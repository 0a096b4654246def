import Screener.Market.Fixture
import Screener.Sql.Engine
import Screener.Sql.Native

namespace Screener

/-- The rows in the order in which they were added; none before the table is made. -/
structure Catalog where
  table : Option (List Record)

namespace Catalog

inductive Error where
  | noTable
  | duplicateSymbol (symbol : String)
  | invalidRecord (detail : String)
  | provider (e : Market.Error)
  | poisoned

def Error.message : Error → String
  | noTable => "Database error: " ++ (Sql.EngineError.unknownTable Sql.stocksTable).message
  | duplicateSymbol symbol => "Database error: the symbol " ++ symbol ++ " is there already"
  | invalidRecord detail => "Invalid record: " ++ detail
  | provider e => "Market data provider failed: " ++ e.message
  | poisoned => "Database handle poisoned by a panicked writer"

def empty : Catalog := ⟨none⟩

def init (c : Catalog) : Catalog := ⟨some (c.table.getD [])⟩

def count (c : Catalog) : Except Error Nat :=
  match c.table with
  | some rows => .ok rows.length
  | none => .error .noTable

def blank? (records : List Record) : Option Record := records.find? (Text.isBlankText ·.symbol)

/-- A record as it is kept: times count to the microsecond. -/
def stamp (now : Timestamp) (r : Record) : Record :=
  { r with createdAt := some (r.createdAt.getD now).truncated }

def insertRow (rows : List Record) (r : Record) : Except Error (List Record) :=
  if rows.any (·.symbol = r.symbol) then .error (.duplicateSymbol r.symbol) else .ok (rows ++ [r])

def insertRows (rows batch : List Record) : Except Error (List Record) :=
  batch.foldlM insertRow rows

/-- Adds a batch, at the time `now`, and counts it. A batch that fails leaves the rows alone. -/
def insert (now : Timestamp) (batch : List Record) (c : Catalog) : Except Error Nat × Catalog :=
  match blank? batch with
  | some r => (.error (.invalidRecord ("empty symbol for company '" ++ r.companyName ++ "'")), c)
  | none =>
    match c.table with
    | none => (.error .noTable, c)
    | some rows =>
      match insertRows rows (batch.map (stamp now)) with
      | .ok rows => (.ok batch.length, ⟨some rows⟩)
      | .error e => (.error e, c)

def seed (now : Timestamp) (source : List String → Except Market.Error (List Record))
    (symbols : List String) (c : Catalog) : Except Error Nat × Catalog :=
  match c.count with
  | .error e => (.error e, c)
  | .ok (_ + 1) => (.ok 0, c)
  | .ok 0 =>
    match source symbols with
    | .error e => (.error (.provider e), c)
    | .ok batch => c.insert now batch

def query (q : Query) (c : Catalog) : Except Sql.EngineError (List Record) :=
  Sql.runBound (Sql.native (Plan.ofQuery q)) c.table

end Catalog

end Screener
