import Screener.Digest
import Screener.Field
import Screener.Json.Codec

namespace Screener

structure Clause where
  field : String
  operator : String
  value : Json

inductive Direction where
  | ascending
  | descending
deriving DecidableEq

structure SortKey where
  field : String
  direction : Direction
deriving DecidableEq

structure Query where
  clauses : List Clause
  order : Option SortKey
  limit : UInt32

def defaultLimit : Nat := 100

def maxLimit : Nat := 1000

/-- Field names as they stand in a document. -/
def Field.codec : Json.Codec Field := .choice Field.all Field.name

namespace Direction

/-- Descending for `desc` in letters of any case, else ascending. -/
def ofText (s : String) : Direction :=
  if s.toList.map Char.toLower = "desc".toList then descending else ascending

def name : Direction → String
  | ascending => "asc"
  | descending => "desc"

def sql : Direction → String
  | ascending => "ASC"
  | descending => "DESC"

def codec : Json.Codec Direction := .choice [ascending, descending] name

end Direction

namespace Clause

/-- A clause has text for its field and operator; no value is a null value. -/
def ofJson? (v : Json) : Option Clause := do
  let field ← (v.get? "field").bind Json.string?
  let operator ← (v.get? "operator").bind Json.string?
  some ⟨field, operator, (v.get? "value").getD .null⟩

def codec : Json.Codec Clause :=
  (Json.Codec.record "FilterClause" <|
    .cons (.required "field" .text) <| .cons (.required "operator" .text) <|
      .cons (.defaulted "value" .any .null) .none).via
    (fun (f, o, v, _) => ⟨f, o, v⟩) (fun c => (c.field, c.operator, c.value, ()))

end Clause

namespace SortKey

def ofJson? (v : Json) : Option SortKey := do
  let field ← (v.get? "field").bind Json.string?
  let direction := (v.get? "direction").bind Json.string?
  some ⟨field, (direction.map Direction.ofText).getD .ascending⟩

def codec : Json.Codec SortKey :=
  (Json.Codec.record "OrderBy" <|
    .cons (.required "field" .text) <|
      .cons (.defaulted "direction" Direction.codec .ascending) .none).via
    (fun (f, d, _) => ⟨f, d⟩) (fun k => (k.field, k.direction, ()))

def resolve? (k : SortKey) : Option (Field × Direction) :=
  (Field.ofName? k.field).map fun f => (f, k.direction)

end SortKey

namespace Query

def empty : Query := ⟨[], none, UInt32.ofNat defaultLimit⟩

instance : Inhabited Query := ⟨empty⟩

/-- A limit is a whole number of at least one, and counts up to the largest allowed. -/
def limitOfJson? (v : Json) : Option Nat := do
  let n ← match v with
    | .int n => some n
    | .float x => x.toInt?
    | _ => none
  if 1 ≤ n then some (min n.toNat maxLimit) else none

/-- Reads a query from any document: what is not understood is left out. -/
def ofJson (v : Json) : Query where
  clauses := (((v.get? "filters").bind Json.items?).getD []).filterMap Clause.ofJson?
  order := (v.get? "order_by").bind SortKey.ofJson?
  limit := UInt32.ofNat (((v.get? "limit").bind limitOfJson?).getD defaultLimit)

def codec : Json.Codec Query :=
  (Json.Codec.record "QueryIr" <|
    .cons (.defaulted "filters" Clause.codec.list []) <|
      .cons (.defaulted "order_by" SortKey.codec.optional none) <|
        .cons (.defaulted "limit" .nat32 (UInt32.ofNat defaultLimit)) .none).via
    (fun (c, o, l, _) => ⟨c, o, l⟩) (fun q => (q.clauses, q.order, q.limit, ()))

def text (q : Query) : String := codec.toText q

/-- The digest of the canonical text. -/
def fingerprint (q : Query) : String := Digest.hexOfText q.text

def effectiveLimit (q : Query) : Nat := max 1 (min q.limit.toNat maxLimit)

def withClause (q : Query) (field operator : String) (value : Json) : Query :=
  { q with clauses := q.clauses ++ [⟨field, operator, value⟩] }

def withOrder (q : Query) (field : String) (direction : Direction) : Query :=
  { q with order := some ⟨field, direction⟩ }

def withLimit (q : Query) (limit : UInt32) : Query := { q with limit := limit }

end Query

end Screener
