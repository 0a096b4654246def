import Screener.Record
import Screener.Sql.Audit
import Screener.Sql.Pattern
import Screener.Sql.Statement

namespace Screener.Sql

/-- True, false, or none for unknown. -/
abbrev Truth := Option Bool

def Truth.and : Truth → Truth → Truth
  | some false, _ | _, some false => some false
  | some true, some true => some true
  | _, _ => none

def Truth.or : Truth → Truth → Truth
  | some true, _ | _, some true => some true
  | some false, some false => some false
  | _, _ => none

/-- How two values compare: whole numbers exactly, other numbers as doubles, texts by their code
points, which is the order of their bytes. None if one is null or they have no common order. -/
def Datum.order? : Datum → Datum → Option Ordering
  | integer m, integer n => some (compare m n)
  | double x, double y => some (x.compareValue y)
  | integer m, double y => (Binary.ofInt? m).map (·.compareValue y)
  | double x, integer n => (Binary.ofInt? n).map (x.compareValue ·)
  | text s, text t => some (compare s t)
  | boolean a, boolean b => some (compare a b)
  | _, _ => none

def Datum.castText : Datum → Datum
  | null => null
  | boolean b => text (boolText b)
  | integer n => text (String.ofList (Json.writeInt n))
  | double x => text (String.ofList (x.render .column))
  | text s => text s

def holds (c : Comparison) (o : Ordering) : Bool :=
  match c with
  | .eq => o == .eq
  | .gt => o == .gt
  | .gte => o != .lt
  | .lt => o == .lt
  | .lte => o != .gt

def compareTruth (c : Comparison) (a b : Datum) : Truth := (a.order? b).map (holds c)

/-- The cell of a record in a column; none if there is no such column. -/
def cell? (r : Record) (column : String) : Option Datum :=
  let textOr (s : Option String) : Datum := (s.map Datum.text).getD .null
  let doubleOr (x : Option Double) : Datum := (x.map Datum.double).getD .null
  match column with
  | "symbol" => some (.text r.symbol)
  | "company_name" => some (.text r.companyName)
  | "sector" => some (textOr r.sector)
  | "industry" => some (textOr r.industry)
  | "price" => some (.double r.price)
  | "market_cap" => some (doubleOr r.marketCap)
  | "volume" => some ((r.volume.map fun n => Datum.integer n.toInt).getD .null)
  | "pe_ratio" => some (doubleOr r.peRatio)
  | "dividend_yield" => some (doubleOr r.dividendYield)
  | "created_at" => some ((r.createdAt.map fun t => Datum.text t.text).getD .null)
  | _ => none

/-- The value that a test looks at in a row with these cells. -/
def Target.datum (t : Target) (cells : String → Option Datum) : Datum :=
  match t with
  | column name => (cells name).getD .null
  | castText name => ((cells name).getD .null).castText

def Test.truth (t : Test) (cells : String → Option Datum) : Truth :=
  match t with
  | compare target c d => compareTruth c (target.datum cells) d
  | between target low high =>
    (compareTruth .gte (target.datum cells) low).and (compareTruth .lte (target.datum cells) high)
  | ilike target pattern escape =>
    match target.datum cells, pattern with
    | .text s, .text p => some (Sql.ilike escape p.toList s.toList)
    | _, _ => none
  | member target ds =>
    ds.foldr (fun d t => (compareTruth .eq (target.datum cells) d).or t) (some false)
  | never => some false

def Test.columns : Test → List String
  | compare t .. | between t .. | ilike t .. | member t _ => [t.name]
  | never => []

/-- Before or level with: nulls come last, whatever the direction. -/
def keyLe (direction : Direction) (a b : Datum) : Bool :=
  match a, b with
  | .null, .null => true
  | .null, _ => false
  | _, .null => true
  | a, b =>
    match a.order? b, direction with
    | some o, .ascending => o != .gt
    | some o, .descending => o != .lt
    | none, _ => true

def columnLe (direction : Direction) (column : String) (a b : String → Option Datum) : Bool :=
  keyLe direction ((a column).getD .null) ((b column).getD .null)

/-- The order of rows: by the key if there is one, then by symbol. -/
def rowLe (order : Option (String × Direction)) (a b : String → Option Datum) : Bool :=
  match order with
  | none => columnLe .ascending "symbol" a b
  | some (column, direction) =>
    columnLe direction column a b &&
      (!columnLe direction column b a || columnLe .ascending "symbol" a b)

/-- Whether a value can be brought to a kind, to be compared there. -/
def Datum.fits : Datum → FieldKind → Bool
  | null, _ | text _, .text => true
  | integer _, .number | integer _, .integer | double _, .number | double _, .integer => true
  | _, _ => false

def Target.kind? : Target → Option FieldKind
  | column name => (Field.ofName? name).map Field.kind
  | castText _ => some .text

def Target.takes (t : Target) (d : Datum) : Bool := t.kind?.any d.fits

/-- Whether all operands of a test can be compared with what it looks at. A statement with another
test is refused, whatever rows there are. -/
def Test.converts : Test → Bool
  | compare t _ d => t.takes d
  | between t low high => t.takes low && t.takes high
  | ilike t pattern _ => t.takes pattern
  | member t ds => ds.all t.takes
  | never => true

inductive EngineError where
  | malformed
  | unknownTable (name : String)
  | unknownColumn (name : String)
  | conversion
deriving DecidableEq

def EngineError.message : EngineError → String
  | malformed => "the statement cannot be read"
  | unknownTable name => "there is no table " ++ name
  | unknownColumn name => "there is no column " ++ name
  | conversion => "a value cannot be converted to the type of its column"

namespace Statement

def namedColumns (s : Statement) : List String :=
  s.columns.getD [] ++ s.tests.flatMap Test.columns ++ (s.order.map (·.1)).toList

def keeps (s : Statement) (cells : String → Option Datum) : Bool :=
  s.tests.all fun t => t.truth cells == some true

/-- The rows that pass every test, sorted, up to the limit; `cells` tells what is in a row. -/
def selectBy {α : Type} (cells : α → String → Option Datum) (s : Statement)
    (rows : List α) : List α :=
  let sorted := (rows.filter fun r => s.keeps (cells r)).mergeSort fun a b =>
    rowLe s.order (cells a) (cells b)
  match s.limit with
  | some n => sorted.take n
  | none => sorted

def select (s : Statement) (rows : List Record) : List Record := s.selectBy cell? rows

/-- Runs a statement; without a table there is nothing to run it on. -/
def run (s : Statement) (table : Option (List Record)) : Except EngineError (List Record) :=
  match table with
  | none => .error (.unknownTable s.table)
  | some rows =>
    if s.table ≠ stocksTable then .error (.unknownTable s.table)
    else
      match s.namedColumns.find? (!Record.columns.contains ·) with
      | some name => .error (.unknownColumn name)
      | none => if s.tests.all Test.converts then .ok (s.select rows) else .error .conversion

end Statement

/-- Runs a text with its parameters. -/
def runBound (b : Bound) (table : Option (List Record)) : Except EngineError (List Record) :=
  match Statement.ofBound? b with
  | some s => s.run table
  | none => .error .malformed

end Screener.Sql
