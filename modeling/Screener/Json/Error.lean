import Screener.Json.Printer
import Screener.Timestamp

namespace Screener.Json

inductive Found where
  | null
  | bool (b : Bool)
  | int (n : Int)
  | float (x : Double)
  | string (s : String)
  | sequence
  | map

def Found.text : Found → String
  | null => "null"
  | bool b => if b then "boolean `true`" else "boolean `false`"
  | int n => "integer `" ++ String.ofList (writeInt n) ++ "`"
  | float x => "floating point `" ++ String.ofList (writeFloat x) ++ "`"
  | string s => "string " ++ Text.shown s
  | sequence => "sequence"
  | map => "map"

def found : Json → Found
  | null => .null
  | bool b => .bool b
  | int n => .int n
  | float x => .float x
  | string s => .string s
  | array _ => .sequence
  | object _ => .map

inductive Cause where
  | endInValue
  | endInList
  | endInObject
  | endInString
  | expectedValue
  | expectedIdent
  | expectedColon
  | expectedListCommaOrEnd
  | expectedObjectCommaOrEnd
  | keyNotString
  | trailingComma
  | trailingCharacters
  | nestedTooDeep
  | numberOutOfRange
  | invalidNumber
  | invalidEscape
  | controlCharacter
  | loneSurrogate
  | unfinishedSurrogate
  | invalidType (found : Found) (expected : String)
  | invalidValue (found : Found) (expected : String)
  | invalidLength (length : Nat) (expected : String)
  | missingField (name : String)
  | duplicateField (name : String)
  | unknownVariant (name : String) (known : List String)
  | timestamp (error : Timestamp.Error)

/-- The text ends too soon, is no JSON, or is JSON of another shape. -/
inductive Category where
  | ending
  | grammar
  | data
deriving DecidableEq

def ticked (name : String) : String := "`" ++ name ++ "`"

def choices : List String → String
  | [] => "there are no variants"
  | [a] => "expected " ++ ticked a
  | [a, b] => "expected " ++ ticked a ++ " or " ++ ticked b
  | names => "expected one of " ++ ", ".intercalate (names.map ticked)

namespace Cause

def category : Cause → Category
  | endInValue | endInList | endInObject | endInString => .ending
  | invalidType .. | invalidValue .. | invalidLength .. | missingField _ | duplicateField _
  | unknownVariant .. | timestamp _ => .data
  | _ => .grammar

def message : Cause → String
  | endInValue => "EOF while parsing a value"
  | endInList => "EOF while parsing a list"
  | endInObject => "EOF while parsing an object"
  | endInString => "EOF while parsing a string"
  | expectedValue => "expected value"
  | expectedIdent => "expected ident"
  | expectedColon => "expected `:`"
  | expectedListCommaOrEnd => "expected `,` or `]`"
  | expectedObjectCommaOrEnd => "expected `,` or `\x7d`"
  | keyNotString => "key must be a string"
  | trailingComma => "trailing comma"
  | trailingCharacters => "trailing characters"
  | nestedTooDeep => "recursion limit exceeded"
  | numberOutOfRange => "number out of range"
  | invalidNumber => "invalid number"
  | invalidEscape => "invalid escape"
  | controlCharacter => "control character (\\u0000-\\u001F) found while parsing a string"
  | loneSurrogate => "lone leading surrogate in hex escape"
  | unfinishedSurrogate => "unexpected end of hex escape"
  | invalidType found expected => "invalid type: " ++ found.text ++ ", expected " ++ expected
  | invalidValue found expected => "invalid value: " ++ found.text ++ ", expected " ++ expected
  | invalidLength n expected => "invalid length " ++ toString n ++ ", expected " ++ expected
  | missingField name => "missing field " ++ ticked name
  | duplicateField name => "duplicate field " ++ ticked name
  | unknownVariant name known => "unknown variant " ++ ticked name ++ ", " ++ choices known
  | timestamp e => e.message

end Cause

/-- Lines count from one; the column is the number of bytes read on the line. -/
structure Place where
  line : Nat
  column : Nat
deriving DecidableEq

def Place.after (bytes : Nat) (cs : List Char) (at_ : Place) : Place :=
  match cs with
  | [] => at_
  | c :: rest =>
    if bytes = 0 then at_
    else
      let next := if c = '\n' then ⟨at_.line + 1, 0⟩
        else ⟨at_.line, at_.column + min bytes c.utf8Size⟩
      Place.after (bytes - c.utf8Size) rest next

def byteLength : List Char → Nat
  | [] => 0
  | c :: cs => c.utf8Size + byteLength cs

inductive Segment where
  | key (name : String)
  | index (i : Nat)

/-- Why reading stopped: `rest` was still unread, and the fault lies `ahead` bytes into it, inside
the part of the document that `path` leads to. -/
structure Failure where
  cause : Cause
  rest : List Char
  ahead : Nat
  path : List Segment

namespace Failure

def inside (s : Segment) (f : Failure) : Failure := { f with path := s :: f.path }

def place (text : List Char) (f : Failure) : Place :=
  .after (byteLength text - byteLength f.rest + f.ahead) text ⟨1, 0⟩

end Failure

/-- A refusal; only one of a text has a place. -/
structure Error where
  cause : Cause
  place : Option Place

def Error.message (e : Error) : String :=
  match e.place with
  | none => e.cause.message
  | some p => e.cause.message ++ " at line " ++ toString p.line ++ " column " ++ toString p.column

def Failure.error (text : List Char) (f : Failure) : Error := ⟨f.cause, some (f.place text)⟩

/-- The path in the form `a.b[0]`. -/
def pathText (path : List Segment) : String :=
  (path.foldl (fun (written, separator) s => match s with
    | .key name => (written ++ separator ++ name, ".")
    | .index i => (written ++ "[" ++ toString i ++ "]", ".")) ("", "")).1

end Screener.Json
