import Screener.Json.Skip

namespace Screener.Json

/-- `read` is given the levels of nesting that are left. -/
structure Codec (α : Type) where
  read : Nat → List Char → Except Failure (α × List Char)
  ofJson : Json → Except Cause α
  write : α → List Char

/-- The refusal of what comes next: scalars are read before they are refused. -/
def refuse {α : Type} (expected : String) (cs : List Char) : Except Failure α :=
  let wrong (f : Found) (rest : List Char) : Failure := failAt (.invalidType f expected) rest
  match skipSpace cs with
  | [] => .error (failAt .endInValue [])
  | 'n' :: rest => do .error (wrong .null (← readWord "ull".toList rest))
  | 't' :: rest => do .error (wrong (.bool true) (← readWord "rue".toList rest))
  | 'f' :: rest => do .error (wrong (.bool false) (← readWord "alse".toList rest))
  | '-' :: rest => do
    let (v, rest) ← readNumber true rest
    .error (wrong v.found rest)
  | '"' :: rest => do
    let (s, rest) ← readString rest
    .error (wrong (.string s) rest)
  | '[' :: rest => .error (wrong .sequence ('[' :: rest))
  | '{' :: rest => .error (wrong .map ('{' :: rest))
  | c :: rest =>
    if isDigit c then do
      let (v, rest) ← readNumber false (c :: rest)
      .error (wrong v.found rest)
    else .error (failOn .expectedValue (c :: rest))

def refuseJson {α : Type} (expected : String) (v : Json) : Except Cause α :=
  .error (.invalidType v.found expected)

namespace Codec

def via {α β : Type} (c : Codec α) (into : α → β) (back : β → α) : Codec β where
  read depth cs := (c.read depth cs).map fun (a, rest) => (into a, rest)
  ofJson v := (c.ofJson v).map into
  write b := c.write (back b)

def any : Codec Json where
  read := readValue
  ofJson := .ok
  write := Json.write

def parsed {α : Type} (expected : String) (accept : String → Except Cause α)
    (write : α → List Char) : Codec α where
  read _ cs :=
    match skipSpace cs with
    | '"' :: rest => do
      let (s, rest) ← readString rest
      match accept s with
      | .ok a => .ok (a, rest)
      | .error e => .error (failAt e rest)
    | cs => refuse expected cs
  ofJson
    | string s => accept s
    | v => refuseJson expected v
  write := write

def text : Codec String := parsed "a string" .ok writeString

def timestamp : Codec Timestamp :=
  parsed "a formatted date and time string"
    (fun s => (Timestamp.ofChars s.toList).mapError .timestamp)
    (fun t => '"' :: t.write ++ ['"'])

def number {α : Type} (expected : String) (accept : Json → Except Cause α)
    (write : α → List Char) : Codec α :=
  let finish (r : Json × List Char) : Except Failure (α × List Char) :=
    match accept r.1 with
    | .ok a => .ok (a, r.2)
    | .error e => .error (failAt e r.2)
  { read := fun _ cs =>
      match skipSpace cs with
      | '-' :: rest => readNumber true rest >>= finish
      | c :: rest =>
        if isDigit c then readNumber false (c :: rest) >>= finish else refuse expected (c :: rest)
      | [] => refuse expected []
    ofJson := accept
    write := write }

def double : Codec Double :=
  number "f64"
    (fun
      | float x => .ok x
      | int n => match Binary.ofInt? n with
        | some x => .ok x
        | none => .error .numberOutOfRange
      | v => refuseJson "f64" v)
    writeFloat

/-- Integers between two bounds, the upper one left out. -/
def whole {α : Type} (expected : String) (low high : Int) (ofInt : Int → α) (toInt : α → Int) :
    Codec α :=
  number expected
    (fun
      | int n =>
        if low ≤ n ∧ n < high then .ok (ofInt n) else .error (.invalidValue (.int n) expected)
      | v => refuseJson expected v)
    (fun a => writeInt (toInt a))

def int64 : Codec Int64 := whole "i64" (-int64Bound) int64Bound Int64.ofInt Int64.toInt

def nat32 : Codec UInt32 :=
  whole "u32" 0 4294967296 (fun n => UInt32.ofNat n.toNat) (fun n => n.toNat)

def optional {α : Type} (c : Codec α) : Codec (Option α) where
  read depth cs :=
    match skipSpace cs with
    | 'n' :: rest => do .ok (none, ← readWord "ull".toList rest)
    | cs => (c.read depth cs).map fun (a, rest) => (some a, rest)
  ofJson
    | null => .ok none
    | v => (c.ofJson v).map some
  write
    | none => "null".toList
    | some a => c.write a

def readAll {α : Type} (c : Codec α) : List Json → Except Cause (List α)
  | [] => .ok []
  | v :: rest => do .ok ((← c.ofJson v) :: (← readAll c rest))

def list {α : Type} (c : Codec α) : Codec (List α) where
  read depth cs :=
    match skipSpace cs, depth with
    | '[' :: rest, 0 => .error (failOn .nestedTooDeep ('[' :: rest))
    | '[' :: rest, depth + 1 => do
      let (items, rest) ← readItems (c.read depth) (rest.length + 1) 0 rest
      .ok (items, ← closeList rest)
    | cs, _ => refuse "a sequence" cs
  ofJson
    | array items => readAll c items
    | v => refuseJson "a sequence" v
  write items := bracket (items.map c.write)

/-- One of several names, as a string or as the one key of an object that holds null. -/
def choice {α : Type} (all : List α) (name : α → String) : Codec α :=
  let find (s : String) : Except Cause α :=
    match all.find? (name · = s) with
    | some a => .ok a
    | none => .error (.unknownVariant s (all.map name))
  { read := fun depth cs =>
      match skipSpace cs, depth with
      | '"' :: rest, _ => (parsed "variant identifier" find (fun _ => [])).read depth ('"' :: rest)
      | '{' :: rest, 0 => .error (failOn .nestedTooDeep ('{' :: rest))
      | '{' :: rest, depth + 1 => do
        let (a, rest) ← (parsed "variant identifier" find (fun _ => [])).read depth rest
        let rest ← readColon rest
        let rest ← match skipSpace rest with
          | 'n' :: rest => readWord "ull".toList rest
          | rest => refuse "unit" rest
        match skipSpace rest with
        | '}' :: rest => .ok (a, rest)
        | [] => .error (failAt .endInObject [])
        | rest => .error (failAt .expectedValue rest)
      | [], _ => .error (failAt .endInValue [])
      | cs, _ => .error (failOn .expectedValue cs)
    ofJson := fun v =>
      match v with
      | string s => find s
      | object [(k, held)] => do
        let a ← find k
        match held with
        | null => .ok a
        | held => refuseJson "unit" held
      | object _ => .error (.invalidValue .map "map with a single key")
      | v => refuseJson "string or map" v
    write := fun a => writeString (name a) }

/-- A field of a record. `missing` is its value in an object without its key, `short` that in an
array that ends before it. -/
structure Field (α : Type) where
  name : String
  codec : Codec α
  missing : Option α
  short : Option α

namespace Field

def required {α : Type} (name : String) (codec : Codec α) : Field α := ⟨name, codec, none, none⟩

def defaulted {α : Type} (name : String) (codec : Codec α) (value : α) : Field α :=
  ⟨name, codec, some value, some value⟩

/-- A field that may be null, and that an object may leave out. -/
def nullable {α : Type} (name : String) (codec : Codec α) : Field (Option α) :=
  ⟨name, codec.optional, some none, none⟩

end Field

/-- The fields of a record of type `α`; `σ` holds those that were read so far. `ofKey` and `putKey`
answer none to a key that is no field's. -/
structure Fields (σ α : Type) where
  count : Nat
  blank : σ
  ofKey : Nat → String → σ → List Char → Option (Except Failure (σ × List Char))
  putKey : String → Json → σ → Option (Except Cause σ)
  finish : σ → Except Cause α
  ofItems : String → Nat → Nat → List Char → Except Failure (α × List Char)
  putItems : String → Nat → List Json → Except Cause (α × List Json)
  write : α → List (List Char)

/-- Where an error is placed that shows before the end of an object. -/
def afterObject (cs : List Char) : List Char :=
  match skipSpace cs with
  | '}' :: rest => rest
  | rest => rest

namespace Fields

def none : Fields Unit Unit where
  count := 0
  blank := ()
  ofKey _ _ _ _ := .none
  putKey _ _ _ := .none
  finish _ := .ok ()
  ofItems _ _ _ cs := .ok ((), cs)
  putItems _ _ items := .ok ((), items)
  write _ := []

def cons {σ α β : Type} (field : Field α) (more : Fields σ β) :
    Fields (Option α × σ) (α × β) where
  count := more.count + 1
  blank := (.none, more.blank)
  ofKey depth key slots cs :=
    if key = field.name then
      match slots.1 with
      | some _ => some (.error (failAt (.duplicateField key) (afterObject cs)))
      | .none => some <|
        ((readColon cs >>= field.codec.read depth).mapError (Failure.inside (.key key))).map
          fun (a, rest) => ((some a, slots.2), rest)
    else (more.ofKey depth key slots.2 cs).map fun r => r.map fun (s, rest) => ((slots.1, s), rest)
  putKey key v slots :=
    if key = field.name then some ((field.codec.ofJson v).map fun a => (some a, slots.2))
    else (more.putKey key v slots.2).map fun r => r.map fun s => (slots.1, s)
  finish slots := do
    let a ← match slots.1, field.missing with
      | some a, _ | .none, some a => .ok a
      | .none, .none => .error (.missingField field.name)
    .ok (a, ← more.finish slots.2)
  ofItems expected depth i cs := do
    let (present, cs) ← (moreItems (i == 0) cs).mapError (Failure.inside (.index i))
    let (a, cs) ←
      if present then (field.codec.read depth cs).mapError (Failure.inside (.index i))
      else match field.short with
        | some a => .ok (a, cs)
        | .none => .error (failAt (.invalidLength i expected) (cs.drop 1))
    let (b, cs) ← more.ofItems expected depth (i + 1) cs
    .ok ((a, b), cs)
  putItems expected i items := do
    let (a, items) ← match items, field.short with
      | v :: items, _ => do .ok (← field.codec.ofJson v, items)
      | [], some a => .ok (a, [])
      | [], .none => .error (.invalidLength i expected)
    let (b, items) ← more.putItems expected (i + 1) items
    .ok ((a, b), items)
  write
    | (a, b) => writeEntry field.name (field.codec.write a) :: more.write b

end Fields

def putEntries {σ α : Type} (fields : Fields σ α) : List (String × Json) → σ → Except Cause σ
  | [], slots => .ok slots
  | (k, v) :: rest, slots =>
    match fields.putKey k v slots with
    | some r => do putEntries fields rest (← r)
    | none => putEntries fields rest slots

/-- A record as an object, or as an array of its fields in order. Other keys are passed over. -/
def record {σ α : Type} (name : String) (fields : Fields σ α) : Codec α :=
  let kind := "struct " ++ name
  let listed := kind ++ " with " ++ toString fields.count ++
    (if fields.count = 1 then " element" else " elements")
  { read := fun depth cs =>
      match skipSpace cs, depth with
      | '[' :: rest, 0 => .error (failOn .nestedTooDeep ('[' :: rest))
      | '{' :: rest, 0 => .error (failOn .nestedTooDeep ('{' :: rest))
      | '[' :: rest, depth + 1 => do
        let (a, rest) ← fields.ofItems listed depth 0 rest
        .ok (a, ← closeList rest)
      | '{' :: rest, depth + 1 => do
        let entry (key : String) (slots : σ) (cs : List Char) : Except Failure (σ × List Char) :=
          match fields.ofKey depth key slots cs with
          | some r => r
          | none => do
            let cs ← (readColon cs >>= skipValue).mapError (Failure.inside (.key key))
            .ok (slots, cs)
        let (slots, rest) ← readEntries entry (rest.length + 1) true fields.blank rest
        match fields.finish slots with
        | .ok a => do .ok (a, ← closeObject rest)
        | .error e => .error (failAt e (afterObject rest))
      | cs, _ => refuse kind cs
    ofJson := fun v =>
      match v with
      | object entries => do fields.finish (← putEntries fields entries fields.blank)
      | array items => do
        let (a, rest) ← fields.putItems listed 0 items
        if rest.isEmpty then .ok a
        else .error (.invalidLength items.length "fewer elements in array")
      | v => refuseJson kind v
    write := fun a => brace (fields.write a) }

/-- Reads the start of a text; what follows the document does not matter. -/
def readStart {α : Type} (c : Codec α) (cs : List Char) : Except Failure α :=
  (c.read depthLimit cs).map (·.1)

def readText {α : Type} (c : Codec α) (text : String) : Except Error α :=
  let cs := text.toList
  ((c.read depthLimit cs >>= fun (a, rest) => (readEnd rest).map fun _ => a)).mapError
    (Failure.error cs)

def readJson {α : Type} (c : Codec α) (v : Json) : Except Error α :=
  (c.ofJson v).mapError fun e => ⟨e, .none⟩

def toText {α : Type} (c : Codec α) (a : α) : String := String.ofList (c.write a)

end Codec

end Screener.Json
