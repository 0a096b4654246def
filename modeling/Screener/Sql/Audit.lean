import Screener.Condition

namespace Screener.Sql

def stocksTable : String := "stocks"

def doubled (cs : List Char) : List Char :=
  cs.flatMap fun c => if c = '\'' then ['\'', '\''] else [c]

/-- A string literal; a quote inside it is written twice. -/
def quote (s : String) : String := String.ofList ('\'' :: doubled s.toList ++ ['\''])

def literal : Literal → String
  | .null => "NULL"
  | .bool true => "TRUE"
  | .bool false => "FALSE"
  | .int n => intText n
  | .float x => x.text
  | .text s => quote s

def escapeClause : String := " ESCAPE '" ++ String.singleton likeEscape ++ "'"

def condition (c : Condition) : String :=
  match c.predicate with
  | .compare o v => c.column ++ " " ++ o.sql ++ " " ++ literal v
  | .between low high => c.column ++ " BETWEEN " ++ literal low ++ " AND " ++ literal high
  | .contains pattern => c.target ++ " ILIKE " ++ quote pattern ++ escapeClause
  | .member [] => "FALSE"
  | .member values => c.column ++ " IN (" ++ ", ".intercalate (values.map literal) ++ ")"

def whereClause : List String → List String
  | [] => []
  | tests => ["WHERE " ++ " AND ".intercalate tests]

def audit (p : Plan) : String :=
  " ".intercalate <|
    ["SELECT * FROM " ++ stocksTable] ++ whereClause (p.conditions.map condition) ++
    (p.order.map fun (f, d) => "ORDER BY " ++ f.column ++ " " ++ d.sql).toList ++
    ["LIMIT " ++ toString p.limit]

end Screener.Sql

namespace Screener

def Query.sql (q : Query) : String := Sql.audit (.ofQuery q)

end Screener
