import Screener.Sql.Engine

namespace Screener

namespace Sql

inductive Cell where
  | null
  | varchar (s : String)
  | double (x : Double)
  | bigint (n : Int64)
  | timestamp (t : Timestamp)
deriving DecidableEq

namespace Cell

def ofOption {α : Type} (cell : α → Cell) (o : Option α) : Cell := (o.map cell).getD null

/-- What a column keeps: times count to the microsecond. -/
def kept : Cell → Cell
  | timestamp t => timestamp t.truncated
  | cell => cell

def datum : Cell → Datum
  | null => .null
  | varchar s => .text s
  | double x => .double x
  | bigint n => .integer n.toInt
  | timestamp t => .text t.text

def varchar? : Cell → Option String
  | varchar s => some s
  | _ => none

def double? : Cell → Option Double
  | double x => some x
  | _ => none

def bigint? : Cell → Option Int64
  | bigint n => some n
  | _ => none

def timestamp? : Cell → Option Timestamp
  | timestamp t => some t
  | _ => none

/-- A null is a missing value; anything else has to be a value of the right type. -/
def optional {α : Type} (read : Cell → Option α) : Cell → Option (Option α)
  | null => some none
  | cell => (read cell).map some

end Cell

def insertColumns : List String :=
  ["symbol", "company_name", "sector", "industry", "price", "market_cap", "volume", "pe_ratio",
    "dividend_yield", "created_at"]

def insertCells (now : Timestamp) (r : Record) : List Cell :=
  [.varchar r.symbol, .varchar r.companyName, .ofOption .varchar r.sector,
    .ofOption .varchar r.industry, .double r.price, .ofOption .double r.marketCap,
    .ofOption .bigint r.volume, .ofOption .double r.peRatio, .ofOption .double r.dividendYield,
    .timestamp (r.createdAt.getD now)]

/-- The cells of a row, each with its column. -/
abbrev Row := List (String × Cell)

namespace Row

/-- The row that an insert of a record leaves. -/
def ofRecord (now : Timestamp) (r : Record) : Row :=
  insertColumns.zip ((insertCells now r).map Cell.kept)

def cells? (row : Row) (columns : List String) : Option (List Cell) :=
  columns.mapM fun column => row.lookup column

def datum? (row : Row) (column : String) : Option Datum := (row.lookup column).map Cell.datum

end Row

/-- The record in the cells that a select gives back. -/
def recordOfCells? : List Cell → Option Record
  | [symbol, companyName, sector, industry, price, marketCap, volume, peRatio, dividendYield,
      createdAt] => do
    some {
      symbol := ← symbol.varchar?
      companyName := ← companyName.varchar?
      sector := ← sector.optional Cell.varchar?
      industry := ← industry.optional Cell.varchar?
      price := ← price.double?
      marketCap := ← marketCap.optional Cell.double?
      volume := ← volume.optional Cell.bigint?
      peRatio := ← peRatio.optional Cell.double?
      dividendYield := ← dividendYield.optional Cell.double?
      createdAt := ← createdAt.optional Cell.timestamp? }
  | _ => none

/-- Runs a statement on rows and reads a record from each that comes back, by the places of the
columns that the statement asks for. -/
def Statement.fetch? (s : Statement) (rows : List Row) : Option (List Record) :=
  (s.selectBy Row.datum? rows).mapM fun row =>
    (row.cells? (s.columns.getD insertColumns)).bind recordOfCells?

end Sql

end Screener
