import Screener.Condition
import Screener.Query

namespace Screener.Sql

inductive Value where
  | null
  | boolean (b : Bool)
  | bigint (n : Int64)
  | double (x : Double)
  | text (s : String)
deriving DecidableEq

def Value.ofLiteral : Literal → Value
  | .null => null
  | .bool b => boolean b
  | .int n => bigint n
  | .float x => double x
  | .text s => text s

inductive Filter where
  | compare (column : String) (c : Comparison) (value : Value)
  | between (column : String) (low high : Value)
  | ilike (column : String) (pattern : String)
  | member (column : String) (values : List Value)
deriving DecidableEq

namespace Filter

def text : Filter → String
  | compare column c _ => column ++ " " ++ c.sql ++ " ?"
  | between column _ _ => column ++ " BETWEEN ? AND ?"
  | ilike column _ => column ++ " ILIKE ? ESCAPE '" ++ String.singleton likeEscape ++ "'"
  | member _ [] => "FALSE"
  | member column values => column ++ " IN (" ++ ", ".intercalate (values.map fun _ => "?") ++ ")"

def params : Filter → List Value
  | compare _ _ v => [v]
  | between _ low high => [low, high]
  | ilike _ pattern => [.text pattern]
  | member _ values => values

end Filter

/-- The text of a statement and what is bound to its question marks. -/
structure Bound where
  sql : String
  params : List Value
deriving DecidableEq

structure Select where
  table : String
  columns : List String
  filters : List Filter
  order : Option (String × Direction)
  limit : Option UInt32
deriving DecidableEq

namespace Select

def new (table : String) : Select := ⟨table, [], [], none, none⟩

inductive Step where
  /-- More columns to give back; none at all stands for every column. -/
  | columns (names : List String)
  | filter (f : Filter)
  /-- The last sort counts. -/
  | order (column : String) (direction : Direction)
  /-- The last limit counts. -/
  | limit (n : UInt32)
deriving DecidableEq

def apply (s : Select) : Step → Select
  | .columns names => { s with columns := s.columns ++ names }
  | .filter f => { s with filters := s.filters ++ [f] }
  | .order column direction => { s with order := some (column, direction) }
  | .limit n => { s with limit := some n }

def applyAll (s : Select) (steps : List Step) : Select := steps.foldl apply s

def sql (s : Select) : String :=
  "SELECT " ++ (if s.columns.isEmpty then "*" else ", ".intercalate s.columns) ++
    " FROM " ++ s.table ++
    (if s.filters.isEmpty then ""
      else " WHERE " ++ " AND ".intercalate (s.filters.map Filter.text)) ++
    (match s.order with
      | some (column, direction) => " ORDER BY " ++ column ++ " " ++ direction.sql
      | none => "") ++
    (match s.limit with
      | some n => " LIMIT " ++ toString n.toNat
      | none => "")

def params (s : Select) : List Value := s.filters.flatMap Filter.params

def build (s : Select) : Bound := ⟨s.sql, s.params⟩

end Select

end Screener.Sql
