import Screener.Field
import Screener.Json.Printer
import Screener.Json.Value
import Screener.Text.Blank

namespace Screener

inductive Literal where
  | null
  | bool (b : Bool)
  | int (n : Int64)
  | float (x : Double)
  | text (s : String)
deriving DecidableEq

def boolText (b : Bool) : String := if b then "true" else "false"

def intText (n : Int64) : String := String.ofList (Json.writeInt n.toInt)

namespace Literal

/-- An integer of 64 bits is kept; a larger one is its nearest double. -/
def ofInt? (n : Int) : Option Literal :=
  if -Json.int64Bound ≤ n ∧ n < Json.int64Bound then some (int (Int64.ofInt n))
  else (Binary.ofInt? n).map float

/-- Scalars only: arrays and objects give none. -/
def ofJson? : Json → Option Literal
  | .null => some null
  | .bool b => some (bool b)
  | .int n => ofInt? n
  | .float x => some (float x)
  | .string s => some (text s)
  | .array _ | .object _ => none

def ofNumeral (s : String) : Literal :=
  match Numeral.read? (Text.trimChars s.toList) with
  | some x => float x
  | none => null

/-- The operand in the family of values of a field. Text that is no finite number becomes null
beside a number, and matches nothing. -/
def coerce (kind : FieldKind) (l : Literal) : Literal :=
  match kind, l with
  | _, null => null
  | .text, text s => text s
  | .text, int n => text (intText n)
  | .text, float x => text x.text
  | .text, bool b => text (boolText b)
  | _, int n => int n
  | _, float x => float x
  | _, bool b => int (if b then 1 else 0)
  | _, text s => ofNumeral s

def searchText? : Literal → Option String
  | text s => some s
  | int n => some (intText n)
  | float x => some x.text
  | null | bool _ => none

end Literal

end Screener
