import Screener.Literal
import Screener.Operator
import Screener.Query

namespace Screener

def likeEscape : Char := '\\'

inductive Predicate where
  | compare (c : Comparison) (value : Literal)
  | between (low high : Literal)
  | contains (pattern : String)
  | member (values : List Literal)
deriving DecidableEq

structure Condition where
  field : Field
  predicate : Predicate
deriving DecidableEq

def escapePattern (cs : List Char) : List Char :=
  cs.flatMap fun c => if c = '%' ∨ c = '_' ∨ c = likeEscape then [likeEscape, c] else [c]

def containsPattern (text : String) : String :=
  String.ofList ('%' :: escapePattern text.toList ++ ['%'])

namespace Predicate

/-- The predicate of an operator and its operand beside a field of some kind; none if the operand
does not fit. -/
def ofOperand? (kind : FieldKind) (o : Operator) (v : Json) : Option Predicate :=
  let scalar (v : Json) : Option Literal := (Literal.ofJson? v).map (Literal.coerce kind)
  match o, v with
  | .compare c, v => (scalar v).map (compare c)
  | .between, .array [low, high] => do some (between (← scalar low) (← scalar high))
  | .between, _ => none
  | .like, v => do some (contains (containsPattern (← (← Literal.ofJson? v).searchText?)))
  | .member, .array items => (items.mapM scalar).map member
  | .member, _ => none

end Predicate

namespace Condition

def ofClause? (c : Clause) : Option Condition := do
  let field ← Field.ofName? c.field
  let operator ← Operator.ofName? c.operator
  some ⟨field, ← Predicate.ofOperand? field.kind operator c.value⟩

def ofClauses (cs : List Clause) : List Condition := cs.filterMap ofClause?

def column (c : Condition) : String := c.field.column

def target (c : Condition) : String :=
  match c.predicate with
  | .contains _ => c.field.searchTarget
  | _ => c.field.column

end Condition

structure Plan where
  conditions : List Condition
  order : Option (Field × Direction)
  limit : Nat
deriving DecidableEq

def Plan.ofQuery (q : Query) : Plan where
  conditions := Condition.ofClauses q.clauses
  order := q.order.bind SortKey.resolve?
  limit := q.effectiveLimit

end Screener
