namespace Screener

/-- Significands have at most `digits` bits; the last bit is worth at least `2 ^ least` and at most
`2 ^ most`. -/
structure Format where
  digits : Nat
  least : Int
  most : Int
deriving DecidableEq

namespace Format

def double : Format := ⟨53, -1074, 971⟩

def single : Format := ⟨24, -149, 104⟩

/-- One form for each value: the significand is as long as the format allows, unless the exponent
is already the least. -/
def Canonical (f : Format) (significand : Nat) (exponent : Int) : Prop :=
  significand < Nat.pow 2 f.digits ∧ f.least ≤ exponent ∧ exponent ≤ f.most ∧
    (Nat.pow 2 (f.digits - 1) ≤ significand ∨ exponent = f.least)

instance (f : Format) (m : Nat) (e : Int) : Decidable (f.Canonical m e) := by
  unfold Canonical; infer_instance

end Format

/-- The finite value `significand * 2 ^ exponent`, negated if `negative`. Zero has both signs. -/
structure Binary (f : Format) where
  negative : Bool
  significand : Nat
  exponent : Int
  canonical : f.Canonical significand exponent
deriving DecidableEq

abbrev Double := Binary .double

abbrev Single := Binary .single

/-- `2 ^ e` as a quotient of two natural numbers. -/
def powerOfTwo (e : Int) : Nat × Nat := (Nat.pow 2 e.toNat, Nat.pow 2 (-e).toNat)

def powerOfTen (e : Int) : Nat × Nat := (Nat.pow 10 e.toNat, Nat.pow 10 (-e).toNat)

/-- The quotient rounded to the nearest whole number, a half to the even one. -/
def roundHalfEven (num den : Nat) : Nat :=
  let q := num / den
  let twice := 2 * (num % den)
  if den < twice ∨ (twice = den ∧ q % 2 = 1) then q + 1 else q

/-- The exponent of the highest power of two not above `num / den`. -/
def floorLog2 (num den : Nat) : Int :=
  let t : Int := (num.log2 : Int) - den.log2
  let (p, q) := powerOfTwo t
  if den * p ≤ num * q then t else t - 1

namespace Binary

variable {f : Format}

def mk? (negative : Bool) (significand : Nat) (exponent : Int) : Option (Binary f) :=
  if h : f.Canonical significand exponent then some ⟨negative, significand, exponent, h⟩ else none

def zero? (negative : Bool) : Option (Binary f) := mk? negative 0 f.least

/-- The nearest value to `num / den`, a tie going to the even significand; none beyond the range. -/
def ofRatio? (negative : Bool) (num den : Nat) : Option (Binary f) :=
  let e := max f.least (floorLog2 num den - f.digits + 1)
  let (p, q) := powerOfTwo e
  let m := roundHalfEven (num * q) (den * p)
  if num = 0 then zero? negative
  else if m = Nat.pow 2 f.digits then mk? negative (Nat.pow 2 (f.digits - 1)) (e + 1)
  else mk? negative m e

/-- The nearest value to `n * 10 ^ k`. Exponents far outside the range are settled without
computing the power: `10 ^ k` is above `2 ^ (3 * k)` and `10 ^ -k` below `2 ^ (-3 * k)`. -/
def ofDecimal? (negative : Bool) (n : Nat) (k : Int) : Option (Binary f) :=
  let length : Int := (Nat.toDigits 10 n).length
  if n = 0 ∨ 3 * (length + k) < f.least - 1 then zero? negative
  else if f.most + f.digits < 3 * k then none
  else
    let (p, q) := powerOfTen k
    ofRatio? negative (n * p) q

def ofInt? (n : Int) : Option (Binary f) := ofRatio? (n < 0) n.natAbs 1

/-- The value as a count of the format's smallest steps. -/
def steps (x : Binary f) : Int :=
  let m : Int := (x.significand * Nat.pow 2 (x.exponent - f.least).toNat : Nat)
  if x.negative then -m else m

def magnitude (x : Binary f) : Nat × Nat :=
  let (p, q) := powerOfTwo x.exponent
  (x.significand * p, q)

def isZero (x : Binary f) : Bool := x.significand == 0

/-- Order by value: the two zeros are equal. -/
def compareValue (x y : Binary f) : Ordering := compare x.steps y.steps

def toInt? (x : Binary f) : Option Int :=
  let (num, den) := x.magnitude
  if num % den = 0 then some (if x.negative then -(num / den : Nat) else (num / den : Nat))
  else none

/-- The nearest value to the sum; a sum of zero is negative only if both terms are. -/
def add? (x y : Binary f) : Option (Binary f) :=
  let s := x.steps + y.steps
  let (p, q) := powerOfTwo f.least
  ofRatio? (if s = 0 then x.negative && y.negative else s < 0) (s.natAbs * p) q

def convert? {g : Format} (x : Binary f) : Option (Binary g) :=
  let (num, den) := x.magnitude
  ofRatio? x.negative num den

end Binary

def Double.zero : Double := ⟨false, 0, -1074, by decide⟩

instance : Inhabited Double := ⟨Double.zero⟩

instance : Inhabited Single := ⟨⟨false, 0, -149, by decide⟩⟩

/-- A value or a result beyond the range. -/
inductive Extended (f : Format) where
  | finite (value : Binary f)
  | infinite (negative : Bool)
  | undefined
deriving DecidableEq

namespace Extended

variable {f : Format}

def ofRounded (negative : Bool) : Option (Binary f) → Extended f
  | some x => finite x
  | none => infinite negative

def add : Extended f → Extended f → Extended f
  | finite x, finite y => ofRounded (x.steps + y.steps < 0) (x.add? y)
  | finite _, y => y
  | x, finite _ => x
  | infinite a, infinite b => if a = b then infinite a else undefined
  | _, _ => undefined

def convert {g : Format} : Extended f → Extended g
  | finite x => ofRounded x.negative x.convert?
  | infinite n => infinite n
  | undefined => undefined

end Extended

end Screener
