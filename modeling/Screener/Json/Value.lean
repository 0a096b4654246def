import Screener.Number.Decimal

namespace Screener

inductive Json where
  | null
  | bool (b : Bool)
  | int (n : Int)
  | float (x : Double)
  | string (s : String)
  | array (items : List Json)
  | object (entries : List (String × Json))

namespace Json

instance : Inhabited Json := ⟨null⟩

/-- Signed integers of 64 bits are below it, and not below its negation. -/
def int64Bound : Int := 9223372036854775808

def uint64Bound : Int := 18446744073709551616

/-- The integers that are kept exactly. -/
def IsWhole (n : Int) : Prop := -int64Bound ≤ n ∧ n < uint64Bound

instance (n : Int) : Decidable (IsWhole n) := by unfold IsWhole; infer_instance

/-- Adds an entry in its place; an earlier one with the same key is replaced. -/
def insert (key : String) (value : Json) : List (String × Json) → List (String × Json)
  | [] => [(key, value)]
  | (k, v) :: rest =>
    if key < k then (key, value) :: (k, v) :: rest
    else if key = k then (key, value) :: rest
    else (k, v) :: insert key value rest

/-- The object with these entries; of those with one key the last counts. -/
def ofEntries (entries : List (String × Json)) : Json :=
  object (entries.foldl (fun sorted (k, v) => insert k v sorted) [])

def get? (key : String) : Json → Option Json
  | object entries => (entries.find? (·.1 = key)).map (·.2)
  | _ => none

def string? : Json → Option String
  | string s => some s
  | _ => none

def items? : Json → Option (List Json)
  | array items => some items
  | _ => none

def isObject : Json → Bool
  | object _ => true
  | _ => false

mutual

def depth : Json → Nat
  | array items => depthOfItems items + 1
  | object entries => depthOfEntries entries + 1
  | _ => 0

def depthOfItems : List Json → Nat
  | [] => 0
  | v :: rest => max (depth v) (depthOfItems rest)

def depthOfEntries : List (String × Json) → Nat
  | [] => 0
  | (_, v) :: rest => max (depth v) (depthOfEntries rest)

end

end Json

end Screener
