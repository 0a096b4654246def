import Screener.Number.Binary

namespace Screener

/-- `coefficient * 10 ^ exponent`. -/
structure Decimal where
  coefficient : Nat
  exponent : Int
deriving DecidableEq

inductive Tie where
  | toEven
  | up
deriving DecidableEq

def digitsOf (n : Nat) : List Char := Nat.toDigits 10 n

def decimalLength (n : Nat) : Nat := (digitsOf n).length

def floorLog10 (num den : Nat) : Int :=
  if den ≤ num then (decimalLength (num / den) : Int) - 1
  else
    let d := decimalLength (den / num)
    if den ≤ num * Nat.pow 10 (d - 1) then 1 - (d : Int) else -(d : Int)

namespace Decimal

/-- Without trailing zeros in the coefficient; the fuel is its number of digits. -/
def stripZeros : Nat → Decimal → Decimal
  | 0, d => d
  | fuel + 1, d =>
    if d.coefficient ≠ 0 ∧ d.coefficient % 10 = 0 then
      stripZeros fuel ⟨d.coefficient / 10, d.exponent + 1⟩
    else d

end Decimal

namespace Binary

variable {f : Format}

def readsBack (x : Binary f) (d : Decimal) : Bool :=
  ofDecimal? x.negative d.coefficient d.exponent == some x

/-- The nearer to `x` of its two neighbours on the grid of step `10 ^ k` that read back as `x`. -/
def onGrid? (tie : Tie) (x : Binary f) (k : Int) : Option Decimal :=
  let (num, den) := x.magnitude
  let (p, q) := powerOfTen k
  let scaled := num * q
  let unit := den * p
  let below : Decimal := ⟨scaled / unit, k⟩
  let above : Decimal := ⟨scaled / unit + 1, k⟩
  let twice := 2 * (scaled % unit)
  let preferAbove : Bool :=
    unit < twice ∨ (twice = unit ∧ (tie = .up ∨ below.coefficient % 2 = 1))
  match x.readsBack below, x.readsBack above with
  | true, true => some (if preferAbove then above else below)
  | true, false => some below
  | false, true => some above
  | false, false => none

def exactDecimal (x : Binary f) : Decimal :=
  if 0 ≤ x.exponent then ⟨x.significand * Nat.pow 2 x.exponent.toNat, 0⟩
  else ⟨x.significand * Nat.pow 5 (-x.exponent).toNat, x.exponent⟩

/-- The first hit on grids of `count`, `count + 1`, … digits, `fuel` grids in all; `top` is the
exponent of the leading digit. -/
def shortestFrom (tie : Tie) (x : Binary f) (top : Int) : Nat → Nat → Decimal
  | 0, _ => x.exactDecimal
  | fuel + 1, count =>
    match x.onGrid? tie (top - count + 1) with
    | some d => d
    | none => shortestFrom tie x top fuel (count + 1)

/-- The fewest digits that read back as `x` and, of those, the nearest to it. -/
def shortest (tie : Tie) (x : Binary f) : Decimal :=
  if x.isZero then ⟨0, 0⟩
  else
    let (num, den) := x.magnitude
    let d := shortestFrom tie x (floorLog10 num den) f.digits 1
    d.stripZeros (decimalLength d.coefficient)

end Binary

/-- How digits are laid out. `leastTop` and `mostTop` bound the exponents of a leading digit that is
written in place, without an exponent; none leaves that side open. -/
structure Layout where
  tie : Tie
  leastTop : Option Int
  mostTop : Option Int
  whole : List Char
  exponentWidth : Nat

namespace Layout

def plain : Layout := ⟨.up, none, none, [], 1⟩

/-- Numbers of a JSON document: always told from integers. -/
def json : Layout := ⟨.toEven, some (-5), some 15, ['.', '0'], 1⟩

def jsonSingle : Layout := ⟨.toEven, some (-6), some 12, ['.', '0'], 1⟩

def column : Layout := ⟨.up, some (-4), some 15, ['.', '0'], 2⟩

def inPlace (l : Layout) (top : Int) : Bool :=
  l.leastTop.all (· ≤ top) && l.mostTop.all (top ≤ ·)

def positional (l : Layout) (d : Decimal) : List Char :=
  let ds := digitsOf d.coefficient
  if 0 ≤ d.exponent then ds ++ List.replicate d.exponent.toNat '0' ++ l.whole
  else
    let places := (-d.exponent).toNat
    let padded := List.replicate (places + 1 - ds.length) '0' ++ ds
    padded.take (padded.length - places) ++ '.' :: padded.drop (padded.length - places)

def scientific (l : Layout) (d : Decimal) (top : Int) : List Char :=
  let fraction := match digitsOf d.coefficient with
    | c :: r@(_ :: _) => c :: '.' :: r
    | ds => ds
  let power := digitsOf top.natAbs
  fraction ++ 'e' :: (if top < 0 then '-' else '+') ::
    (List.replicate (l.exponentWidth - power.length) '0' ++ power)

def render (l : Layout) (d : Decimal) : List Char :=
  let top : Int := d.exponent + decimalLength d.coefficient - 1
  if l.inPlace top then l.positional d else l.scientific d top

end Layout

namespace Binary

variable {f : Format}

def render (l : Layout) (x : Binary f) : List Char :=
  let body := l.render (x.shortest l.tie)
  if x.negative then '-' :: body else body

/-- The shortest digits that read back, never with an exponent. -/
def text (x : Binary f) : String := String.ofList (x.render .plain)

end Binary

def Extended.text {f : Format} : Extended f → String
  | .finite x => x.text
  | .infinite false => "inf"
  | .infinite true => "-inf"
  | .undefined => "NaN"

def natOfDigits (cs : List Char) : Nat := cs.foldl (fun n c => 10 * n + (c.toNat - '0'.toNat)) 0

def isDigit (c : Char) : Bool := '0' ≤ c && c ≤ '9'

def spanDigits (cs : List Char) : List Char × List Char := cs.span isDigit

def spanSign : List Char → Bool × List Char
  | '-' :: r => (true, r)
  | '+' :: r => (false, r)
  | r => (false, r)

namespace Numeral

def spanFraction : List Char → List Char × List Char
  | '.' :: r => spanDigits r
  | r => ([], r)

def exponent? : List Char → Option Int
  | [] => some 0
  | c :: r =>
    let (negative, r) := spanSign r
    if (c = 'e' ∨ c = 'E') ∧ r ≠ [] ∧ r.all isDigit then
      some (if negative then -(natOfDigits r : Int) else natOfDigits r)
    else none

/-- Sign, digits with an optional point among them or at either end, exponent. -/
def decimal? (cs : List Char) : Option (Bool × Decimal) :=
  let (negative, cs) := spanSign cs
  let (whole, cs) := spanDigits cs
  let (fraction, cs) := spanFraction cs
  if whole = [] ∧ fraction = [] then none
  else (exponent? cs).map fun e =>
    (negative, ⟨natOfDigits (whole ++ fraction), e - fraction.length⟩)

/-- The nearest value to a decimal numeral; none for other text and beyond the range. -/
def read? {f : Format} (cs : List Char) : Option (Binary f) :=
  (decimal? cs).bind fun (negative, d) => Binary.ofDecimal? negative d.coefficient d.exponent

end Numeral

end Screener
