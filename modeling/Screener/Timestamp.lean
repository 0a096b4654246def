import Screener.Number.Decimal
import Screener.Text.Blank

namespace Screener

/-- A leap second is the second 59 with a thousand million nanoseconds and more. -/
structure Timestamp where
  year : Int
  month : Nat
  day : Nat
  hour : Nat
  minute : Nat
  second : Nat
  nano : Nat
deriving DecidableEq

namespace Timestamp

def nanosPerSecond : Nat := 1000000000

def nanosPerMilli : Nat := 1000000

def nanosPerMicro : Nat := 1000

inductive Error where
  | tooShort
  | tooLong
  | invalid
  | outOfRange
deriving DecidableEq

def Error.message : Error → String
  | tooShort => "premature end of input"
  | tooLong => "trailing input"
  | invalid => "input contains invalid characters"
  | outOfRange => "input is out of range"

def isLeapYear (y : Int) : Bool := y % 4 == 0 && (y % 100 != 0 || y % 400 == 0)

def daysInMonth (y : Int) (m : Nat) : Nat :=
  if m = 2 then (if isLeapYear y then 29 else 28)
  else if m = 4 ∨ m = 6 ∨ m = 9 ∨ m = 11 then 30
  else 31

def yearMin : Int := -262143

def yearMax : Int := 262142

/-- The days that the calendar has. -/
def IsDate (y : Int) (m d : Nat) : Prop :=
  yearMin ≤ y ∧ y ≤ yearMax ∧ 1 ≤ m ∧ m ≤ 12 ∧ 1 ≤ d ∧ d ≤ daysInMonth y m

instance (y : Int) (m d : Nat) : Decidable (IsDate y m d) := by unfold IsDate; infer_instance

/-- At least one and at most `width` digits. -/
def readDigits (width : Nat) (cs : List Char) : Except Error (List Char × List Char) :=
  match cs with
  | [] => .error .tooShort
  | c :: _ =>
    if isDigit c then
      let ds := (cs.take width).takeWhile isDigit
      .ok (ds, cs.drop ds.length)
    else .error .invalid

def readNumber (width low high : Nat) (cs : List Char) : Except Error (Nat × List Char) := do
  let (ds, cs) ← readDigits width (Text.dropBlank cs)
  let n := natOfDigits ds
  if low ≤ n ∧ n ≤ high then .ok (n, cs) else .error .outOfRange

/-- Four digits at most, or a sign and any number of them. -/
def readYear (cs : List Char) : Except Error (Int × List Char) := do
  let cs := Text.dropBlank cs
  let (negative, signed, body) := match cs with
    | '-' :: r => (true, true, r)
    | '+' :: r => (false, true, r)
    | r => (false, false, r)
  let (ds, rest) ← readDigits (if signed then body.length else 4) body
  let n : Int := natOfDigits ds
  if n < 2147483648 then .ok (if negative then -n else n, rest) else .error .outOfRange

def readMark (mark : Char) (cs : List Char) : Except Error (List Char) :=
  match Text.dropBlank cs with
  | [] => .error .tooShort
  | c :: rest => if c = mark then .ok rest else .error .invalid

/-- A point and digits, of which nine count; nothing is zero. -/
def readFraction : List Char → Except Error (Nat × List Char)
  | '.' :: r => do
    let (ds, rest) ← readDigits 9 r
    .ok (natOfDigits ds * Nat.pow 10 (9 - ds.length), rest.dropWhile isDigit)
  | r => .ok (0, r)

def ofChars (cs : List Char) : Except Error Timestamp := do
  let (year, cs) ← readYear cs
  let cs ← readMark '-' cs
  let (month, cs) ← readNumber 2 1 12 cs
  let cs ← readMark '-' cs
  let (day, cs) ← readNumber 2 1 31 cs
  let cs ← readMark 'T' cs
  let (hour, cs) ← readNumber 2 0 23 cs
  let cs ← readMark ':' cs
  let (minute, cs) ← readNumber 2 0 59 cs
  let cs ← readMark ':' cs
  let (second, cs) ← readNumber 2 0 60 cs
  let (nano, cs) ← readFraction cs
  if Text.dropBlank cs ≠ [] then .error .tooLong
  else if ¬ IsDate year month day then .error .outOfRange
  else if second = 60 then .ok ⟨year, month, day, hour, minute, 59, nano + nanosPerSecond⟩
  else .ok ⟨year, month, day, hour, minute, second, nano⟩

def padded (width n : Nat) : List Char :=
  let ds := digitsOf n
  List.replicate (width - ds.length) '0' ++ ds

/-- Four digits; outside them a sign is written. -/
def writeYear (y : Int) : List Char :=
  if 0 ≤ y ∧ y ≤ 9999 then padded 4 y.toNat
  else (if y < 0 then '-' else '+') :: padded 4 y.natAbs

/-- Three, six or nine digits after a point, or nothing for zero. -/
def writeFraction (nano : Nat) : List Char :=
  if nano = 0 then []
  else if nano % nanosPerMilli = 0 then '.' :: padded 3 (nano / nanosPerMilli)
  else if nano % nanosPerMicro = 0 then '.' :: padded 6 (nano / nanosPerMicro)
  else '.' :: padded 9 nano

def write (t : Timestamp) : List Char :=
  let (second, nano) := if nanosPerSecond ≤ t.nano then (t.second + 1, t.nano - nanosPerSecond)
    else (t.second, t.nano)
  writeYear t.year ++ '-' :: padded 2 t.month ++ '-' :: padded 2 t.day ++ 'T' :: padded 2 t.hour ++
    ':' :: padded 2 t.minute ++ ':' :: padded 2 second ++ writeFraction nano

def text (t : Timestamp) : String := String.ofList t.write

/-- Without what is below a microsecond. -/
def truncated (t : Timestamp) : Timestamp :=
  { t with nano := t.nano / nanosPerMicro * nanosPerMicro }

end Timestamp

end Screener
