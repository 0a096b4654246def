import Screener.Query
import Screener.Sql.Select
import Screener.Sql.Token

namespace Screener.Sql

/-- A value of a cell or an operand. Whole numbers are exact, of any size. -/
inductive Datum where
  | null
  | boolean (b : Bool)
  | integer (n : Int)
  | double (x : Double)
  | text (s : String)
deriving DecidableEq

def Datum.ofValue : Value → Datum
  | .null => null
  | .boolean b => boolean b
  | .bigint n => integer n.toInt
  | .double x => double x
  | .text s => text s

inductive Target where
  | column (name : String)
  | castText (name : String)
deriving DecidableEq

def Target.name : Target → String
  | column n | castText n => n

inductive Test where
  | compare (target : Target) (c : Comparison) (operand : Datum)
  | between (target : Target) (low high : Datum)
  | ilike (target : Target) (pattern : Datum) (escape : Char)
  | member (target : Target) (operands : List Datum)
  | never
deriving DecidableEq

structure Statement where
  /-- None stands for every column. -/
  columns : Option (List String)
  table : String
  tests : List Test
  order : Option (String × Direction)
  limit : Option Nat
deriving DecidableEq

namespace Statement

abbrev Input := List Token × List Value

/-- The operand that a numeral stands for: with a point a double, else a whole number. -/
def numeral? (negative : Bool) (digits : List Char) : Option Datum :=
  if digits.contains '.' then
    (Numeral.read? (if negative then '-' :: digits else digits)).map Datum.double
  else
    let n : Int := natOfDigits digits
    some (.integer (if negative then -n else n))

def readOperand : Input → Option (Datum × Input)
  | (.sign '?' :: ts, v :: vs) => some (.ofValue v, (ts, vs))
  | (.sign '-' :: .number ds :: ts, vs) => (numeral? true ds).map fun d => (d, (ts, vs))
  | (.number ds :: ts, vs) => (numeral? false ds).map fun d => (d, (ts, vs))
  | (.string s :: ts, vs) => some (.text s, (ts, vs))
  | (.word "NULL" :: ts, vs) => some (.null, (ts, vs))
  | (.word "TRUE" :: ts, vs) => some (.boolean true, (ts, vs))
  | (.word "FALSE" :: ts, vs) => some (.boolean false, (ts, vs))
  | _ => none

def readOperands : Nat → Input → Option (List Datum × Input)
  | 0, _ => none
  | fuel + 1, input => do
    let (d, input) ← readOperand input
    match input with
    | (.sign ',' :: ts, vs) =>
      let (ds, input) ← readOperands fuel (ts, vs)
      some (d :: ds, input)
    | (.sign ')' :: ts, vs) => some ([d], (ts, vs))
    | _ => none

def readTarget : List Token → Option (Target × List Token)
  | .word "CAST" :: .sign '(' :: .word name :: .word "AS" :: .word "VARCHAR" :: .sign ')' :: ts =>
    some (.castText name, ts)
  | .word name :: ts => some (.column name, ts)
  | _ => none

def readTest : Input → Option (Test × Input)
  | (.word "FALSE" :: ts, vs) => some (.never, (ts, vs))
  | (ts, vs) => do
    let (target, ts) ← readTarget ts
    match ts with
    | .compare c :: ts =>
      let (d, input) ← readOperand (ts, vs)
      some (.compare target c d, input)
    | .word "BETWEEN" :: ts =>
      let (low, ts, vs) ← readOperand (ts, vs)
      match ts with
      | .word "AND" :: ts =>
        let (high, input) ← readOperand (ts, vs)
        some (.between target low high, input)
      | _ => none
    | .word "ILIKE" :: ts =>
      let (pattern, ts, vs) ← readOperand (ts, vs)
      match ts with
      | .word "ESCAPE" :: .string e :: ts =>
        match e.toList with
        | [c] => some (.ilike target pattern c, (ts, vs))
        | _ => none
      | _ => none
    | .word "IN" :: .sign '(' :: ts =>
      let (ds, input) ← readOperands ts.length (ts, vs)
      some (.member target ds, input)
    | _ => none

def readTests : Nat → Input → Option (List Test × Input)
  | 0, _ => none
  | fuel + 1, input => do
    let (t, input) ← readTest input
    match input with
    | (.word "AND" :: ts, vs) =>
      let (more, input) ← readTests fuel (ts, vs)
      some (t :: more, input)
    | _ => some ([t], input)

def readNames : Nat → List Token → Option (List String × List Token)
  | 0, _ => none
  | fuel + 1, .word n :: .sign ',' :: ts => do
    let (more, ts) ← readNames fuel ts
    some (n :: more, ts)
  | _ + 1, .word n :: ts => some ([n], ts)
  | _ + 1, _ => none

def readColumns : List Token → Option (Option (List String) × List Token)
  | .sign '*' :: ts => some (none, ts)
  | ts => (readNames ts.length ts).map fun (names, ts) => (some names, ts)

def readWhere : Input → Option (List Test × Input)
  | (.word "WHERE" :: ts, vs) => readTests ts.length (ts, vs)
  | input => some ([], input)

def readOrder : List Token → Option (String × Direction) × List Token
  | .word "ORDER" :: .word "BY" :: .word name :: .word "ASC" :: ts => (some (name, .ascending), ts)
  | .word "ORDER" :: .word "BY" :: .word name :: .word "DESC" :: ts =>
    (some (name, .descending), ts)
  | ts => (none, ts)

def readLimit : List Token → Option Nat × List Token
  | .word "LIMIT" :: .number ds :: ts => (some (natOfDigits ds), ts)
  | ts => (none, ts)

def ofTokens? (ts : List Token) (params : List Value) : Option Statement :=
  match ts with
  | .word "SELECT" :: ts => do
    let (columns, ts) ← readColumns ts
    match ts with
    | .word "FROM" :: .word table :: ts =>
      let (tests, ts, params) ← readWhere (ts, params)
      let (order, ts) := readOrder ts
      let (limit, ts) := readLimit ts
      if ts.isEmpty && params.isEmpty then some ⟨columns, table, tests, order, limit⟩ else none
    | _ => none
  | _ => none

def ofBound? (b : Bound) : Option Statement := do ofTokens? (← Token.ofText? b.sql) b.params

end Statement

end Screener.Sql
