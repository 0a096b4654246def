namespace Screener.Http

/-- Kind, subtype and suffix are in small letters. -/
structure MediaType where
  kind : String
  subtype : String
  suffix : Option String
  parameters : List (String × String)
deriving DecidableEq

namespace MediaType

def isTokenChar (c : Char) : Bool :=
  c.isAlphanum ||
    ['!', '#', '$', '%', '&', '\x27', '*', '+', '-', '.', '^', '_', '\x60', '|', '~'].contains c

def isQuotedChar (c : Char) : Bool := 0x20 ≤ c.toNat && c.toNat < 0x7F

def lower (cs : List Char) : String := String.ofList (cs.map Char.toLower)

/-- A subtype and what follows its last plus sign; one at the start is part of the subtype. -/
def splitSuffix (cs : List Char) : List Char × Option (List Char) :=
  let suffix := (cs.reverse.takeWhile (· ≠ '+')).reverse
  let before := cs.length - suffix.length - 1
  if before = 0 ∨ suffix.length = cs.length then (cs, none) else (cs.take before, some suffix)

/-- The value in quotes: at least one character, the first of which may be a quote itself. -/
def readQuoted : List Char → Option (List Char × List Char)
  | [] => none
  | c :: cs =>
    let (body, rest) := cs.span (fun c => isQuotedChar c && c ≠ '"')
    match isQuotedChar c, rest with
    | true, '"' :: rest => some (c :: body, rest)
    | _, _ => none

/-- A value and the text after the semicolon that ends it. Without quotes only the last value may be
empty. -/
def readParameterValue (cs : List Char) : Option (List Char × List Char) :=
  match cs with
  | '"' :: cs => do
    let (value, rest) ← readQuoted cs
    match rest.dropWhile (· = ' ') with
    | [] => some (value, [])
    | ';' :: rest => some (value, rest)
    | _ => none
  | cs =>
    match cs.span isTokenChar with
    | (value, []) => some (value, [])
    | (c :: value, ';' :: rest) => some (c :: value, rest)
    | _ => none

def readParameters : Nat → List Char → Option (List (String × String))
  | 0, _ => none
  | fuel + 1, cs =>
    match cs.dropWhile (· = ' ') with
    | [] => some []
    | cs =>
      match cs.span isTokenChar with
      | (c :: name, '=' :: rest) => do
        let (value, rest) ← readParameterValue rest
        let more ← readParameters fuel rest
        some ((lower (c :: name), String.ofList value) :: more)
      | _ => none

def ofText? (s : String) : Option MediaType :=
  match s.toList.span isTokenChar with
  | (c :: kind, '/' :: rest) =>
    let (subtype, rest) := rest.span isTokenChar
    let (base, suffix) := splitSuffix subtype
    let named (parameters : List (String × String)) : MediaType :=
      ⟨lower (c :: kind), lower base, suffix.map lower, parameters⟩
    match subtype, rest with
    | _ :: _, [] => some (named [])
    | _ :: _, ';' :: rest => (readParameters (rest.length + 1) rest).map named
    | _, _ => none
  | _ => none

def isJson (m : MediaType) : Bool :=
  m.kind == "application" && (m.subtype == "json" || m.suffix == some "json")

end MediaType

end Screener.Http
