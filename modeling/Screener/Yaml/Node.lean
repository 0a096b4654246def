import Screener.Number.Decimal

namespace Screener.Yaml

inductive Node where
  | scalar (quoted : Bool) (text : String)
  | list (items : List Node)
  | map (entries : List (Node × Node))

namespace Node

def nothing : Node := scalar false ""

instance : Inhabited Node := ⟨nothing⟩

/-- Any scalar is a text. -/
def text? : Node → Option String
  | scalar _ s => some s
  | _ => none

/-- The plain scalars that stand for no value. -/
def isNull (s : String) : Bool := s ∈ ["", "~", "null", "Null", "NULL"]

/-- A text or no value. -/
def optionalText? : Node → Option (Option String)
  | scalar false s => some (if isNull s then none else some s)
  | scalar true s => some (some s)
  | _ => none

def digitValue? (base : Nat) (c : Char) : Option Nat :=
  let n := if isDigit c then c.toNat - '0'.toNat
    else if 'a' ≤ c ∧ c ≤ 'z' then c.toNat - 'a'.toNat + 10
    else if 'A' ≤ c ∧ c ≤ 'Z' then c.toNat - 'A'.toNat + 10
    else base
  if n < base then some n else none

def natOfBase? (base : Nat) (cs : List Char) : Option Nat :=
  if cs.isEmpty then none
  else (cs.mapM (digitValue? base)).map fun ds => ds.foldl (fun n d => base * n + d) 0

/-- A number without a sign or with a plus sign. The base may be given before the digits; decimal
digits have no leading zero. -/
def natOfChars? (cs : List Char) : Option Nat :=
  match (match cs with | '+' :: r => r | r => r) with
  | '0' :: 'x' :: ds => natOfBase? 16 ds
  | '0' :: 'o' :: ds => natOfBase? 8 ds
  | '0' :: 'b' :: ds => natOfBase? 2 ds
  | '0' :: _ :: _ => none
  | ds => natOfBase? 10 ds

def whole? (bound : Nat) : Node → Option Nat
  | scalar false s => (natOfChars? s.toList).filter (· < bound)
  | _ => none

/-- A number of a format, rounded by way of a double. -/
def float? (f : Format) : Node → Option (Extended f)
  | scalar false s =>
    if s ∈ [".inf", ".Inf", ".INF", "+.inf", "+.Inf", "+.INF"] then some (.infinite false)
    else if s ∈ ["-.inf", "-.Inf", "-.INF"] then some (.infinite true)
    else if s ∈ [".nan", ".NaN", ".NAN"] then some .undefined
    else (Numeral.read? s.toList).map fun (x : Double) => (Extended.finite x).convert
  | _ => none

def texts? : Node → Option (List String)
  | list items => items.mapM text?
  | scalar false "" => some []
  | _ => none

def entries? : Node → Option (List (Node × Node))
  | map entries => some entries
  | scalar false "" => some []
  | _ => none

end Node

end Screener.Yaml
