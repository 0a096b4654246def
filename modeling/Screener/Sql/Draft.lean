import Screener.Sql.Select

namespace Screener.Sql

structure Draft where
  table : String
  columns : List String
  tests : List String
  params : List Value
  order : Option (String × Direction)
  limit : Option UInt32

/-- The columns that are asked for; a star if none is named. -/
def projection (columns : List String) : String :=
  if columns.isEmpty then "*" else ", ".intercalate columns

def orderText : Option (String × Direction) → String
  | some (column, direction) => " ORDER BY " ++ column ++ " " ++ direction.sql
  | none => ""

def limitText : Option UInt32 → String
  | some n => " LIMIT " ++ toString n.toNat
  | none => ""

namespace Draft

def start (table : String) : Draft := ⟨table, [], [], [], none, none⟩

def add (d : Draft) : Select.Step → Draft
  | .columns names => { d with columns := d.columns ++ names }
  | .filter f => { d with tests := d.tests ++ [f.text], params := d.params ++ f.params }
  | .order column direction => { d with order := some (column, direction) }
  | .limit n => { d with limit := some n }

def addAll (d : Draft) (steps : List Select.Step) : Draft := steps.foldl add d

def build (d : Draft) : Bound where
  sql := "SELECT " ++ projection d.columns ++ " FROM " ++ d.table ++
    (if d.tests.isEmpty then "" else " WHERE " ++ " AND ".intercalate d.tests) ++
    orderText d.order ++ limitText d.limit
  params := d.params

inductive Call where
  | step (s : Select.Step)
  | build

/-- What the builds among some calls give, and the draft behind the last call. -/
def run : List Call → Draft → List Bound × Draft
  | [], d => ([], d)
  | .step s :: calls, d => run calls (d.add s)
  | .build :: calls, d =>
    let (built, last) := run calls d
    (d.build :: built, last)

end Draft

end Screener.Sql
