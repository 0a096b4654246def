import Screener.Sql.Row

namespace Screener.Sql

/-- Why a row is not written. -/
inductive WriteError where
  | unknownTable
  | nullCell (column : String)
  | failedCheck
  | duplicateKey
deriving DecidableEq

def keyColumn : String := "symbol"

def requiredColumns : List String := ["symbol", "company_name", "price"]

/-- Puts a row behind others. Its key is not empty, and no other row has it. -/
def writeRow (rows : List Row) (row : Row) : Except WriteError (List Row) :=
  match requiredColumns.find? fun column => (row.lookup column).getD .null = .null with
  | some column => .error (.nullCell column)
  | none =>
    if row.lookup keyColumn = some (.varchar "") then .error .failedCheck
    else if rows.any fun other => other.lookup keyColumn = row.lookup keyColumn then
      .error .duplicateKey
    else .ok (rows ++ [row])

structure Transaction where
  /-- The rows when it began, which everyone else sees. -/
  stored : List Row
  /-- The rows as it sees them. -/
  working : List Row

namespace Transaction

def start (rows : List Row) : Transaction := ⟨rows, rows⟩

def commit (tx : Transaction) : List Row := tx.working

def rollback (tx : Transaction) : List Row := tx.stored

/-- Writes one row after the other; the first that fails ends it, with those before it written. -/
def write : List Row → Transaction → Except WriteError Unit × Transaction
  | [], tx => (.ok (), tx)
  | row :: rows, tx =>
    match writeRow tx.working row with
    | .ok working => write rows { tx with working := working }
    | .error e => (.error e, tx)

end Transaction

/-- Writes rows to a table, if there is one, and commits if all of them could be written. -/
def store (rows : List Row) : Option (List Row) → Except WriteError Nat × Option (List Row)
  | none => (.error .unknownTable, none)
  | some stored =>
    match (Transaction.start stored).write rows with
    | (.ok (), tx) => (.ok rows.length, some tx.commit)
    | (.error e, tx) => (.error e, some tx.rollback)

end Screener.Sql
