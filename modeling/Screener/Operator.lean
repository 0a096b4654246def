namespace Screener

inductive Comparison where
  | eq
  | gt
  | gte
  | lt
  | lte
deriving DecidableEq

def Comparison.sql : Comparison → String
  | eq => "="
  | gt => ">"
  | gte => ">="
  | lt => "<"
  | lte => "<="

inductive Operator where
  | compare (c : Comparison)
  | between
  | like
  | member
deriving DecidableEq

namespace Operator

def all : List Operator :=
  [compare .eq, compare .gt, compare .gte, compare .lt, compare .lte, between, like, member]

theorem mem_all (o : Operator) : o ∈ all := by
  rcases o with c | _ | _ | _
  · cases c <;> decide
  all_goals decide

def name : Operator → String
  | compare .eq => "eq"
  | compare .gt => "gt"
  | compare .gte => "gte"
  | compare .lt => "lt"
  | compare .lte => "lte"
  | between => "between"
  | like => "like"
  | member => "in"

def ofName? (s : String) : Option Operator := all.find? (·.name = s)

theorem ofName?_name (o : Operator) : ofName? o.name = some o := by
  rcases o with c | _ | _ | _
  · cases c <;> decide
  all_goals decide

theorem ofName?_eq_some_iff {s : String} {o : Operator} : ofName? s = some o ↔ s = o.name := by
  constructor
  · intro h
    have := List.find?_some (by simpa only [ofName?] using h)
    exact (of_decide_eq_true this).symm
  · rintro rfl
    exact ofName?_name o

def description : Operator → String
  | compare .eq => "equals"
  | compare .gt => "greater than"
  | compare .gte => "greater than or equal"
  | compare .lt => "less than"
  | compare .lte => "less than or equal"
  | between => "value is between two numbers (use array [min, max])"
  | like => "contains text (for strings)"
  | member => "value is in a list (use array)"

end Operator

end Screener
