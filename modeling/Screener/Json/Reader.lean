import Screener.Json.Error

namespace Screener.Json

def depthLimit : Nat := 127

def isSpace (c : Char) : Bool := c == ' ' || c == '\n' || c == '\t' || c == '\r'

def skipSpace (cs : List Char) : List Char := cs.dropWhile isSpace

/-- A fault in what was read so far. -/
def failAt (cause : Cause) (rest : List Char) : Failure := ⟨cause, rest, 0, []⟩

def failOn (cause : Cause) (rest : List Char) : Failure :=
  ⟨cause, rest, if rest.isEmpty then 0 else 1, []⟩

def readWord : List Char → List Char → Except Failure (List Char)
  | [], cs => .ok cs
  | _ :: _, [] => .error (failAt .endInValue [])
  | w :: ws, c :: cs =>
    if w = c then readWord ws cs else .error ⟨.expectedIdent, c :: cs, 1, []⟩

def readFraction (cs : List Char) : Except Failure (List Char × List Char) :=
  let (ds, rest) := spanDigits cs
  if ds.isEmpty then
    .error (failOn (if rest.isEmpty then .endInValue else .invalidNumber) rest)
  else .ok (ds, rest)

/-- The largest exponent that is taken in; beyond it a number is zero or out of range. -/
def exponentLimit : Nat := 2147483647

def spanExponent (n : Nat) : List Char → Nat × Bool × List Char
  | [] => (n, true, [])
  | c :: cs =>
    if isDigit c then
      let m := 10 * n + (c.toNat - '0'.toNat)
      if exponentLimit < m then (m, false, cs) else spanExponent m cs
    else (n, true, c :: cs)

/-- A number by its parts, the exponent counted from the last digit read. -/
def roundNumber (negative : Bool) (ds : List Char) (k : Int) (cs : List Char) :
    Except Failure (Json × List Char) :=
  match Binary.ofDecimal? negative (natOfDigits ds) k with
  | some x => .ok (float x, cs)
  | none => .error (failAt .numberOutOfRange cs)

def readExponent (negative : Bool) (ds : List Char) (k : Int) (cs : List Char) :
    Except Failure (Json × List Char) :=
  let (below, cs) := spanSign cs
  match cs with
  | [] => .error (failAt .endInValue [])
  | c :: rest =>
    if ¬ isDigit c then .error ⟨.invalidNumber, c :: rest, 1, []⟩
    else
      let (n, all, rest) := spanExponent 0 (c :: rest)
      if all then roundNumber negative ds (if below then k - n else k + n) rest
      else if ¬ below ∧ natOfDigits ds ≠ 0 then .error (failAt .numberOutOfRange rest)
      else roundNumber negative ['0'] 0 (rest.dropWhile isDigit)

def readWhole (cs : List Char) : Except Failure (List Char × List Char) :=
  match cs with
  | [] => .error (failAt .endInValue [])
  | '0' :: rest =>
    if rest.head?.any isDigit then .error (failOn .invalidNumber rest) else .ok (['0'], rest)
  | c :: rest =>
    if isDigit c then .ok (spanDigits (c :: rest)) else .error ⟨.invalidNumber, c :: rest, 1, []⟩

/-- A number after its sign. An integer that is not kept exactly, and the negative zero, is read as
any other number. -/
def readNumber (negative : Bool) (cs : List Char) : Except Failure (Json × List Char) := do
  let (whole, cs) ← readWhole cs
  match cs with
  | '.' :: rest =>
    let (fraction, rest) ← readFraction rest
    let ds := whole ++ fraction
    let k := -(fraction.length : Int)
    match rest with
    | 'e' :: rest | 'E' :: rest => readExponent negative ds k rest
    | _ => roundNumber negative ds k rest
  | 'e' :: rest | 'E' :: rest => readExponent negative whole 0 rest
  | _ =>
    let n := natOfDigits whole
    let value : Int := if negative then -n else n
    if IsWhole value ∧ (negative → n ≠ 0) then .ok (int value, cs)
    else roundNumber negative whole 0 cs

def hexValue? (c : Char) : Option Nat :=
  if isDigit c then some (c.toNat - '0'.toNat)
  else if 'a' ≤ c ∧ c ≤ 'f' then some (c.toNat - 'a'.toNat + 10)
  else if 'A' ≤ c ∧ c ≤ 'F' then some (c.toNat - 'A'.toNat + 10)
  else none

def readHex (cs : List Char) : Except Failure (Nat × List Char) :=
  if byteLength cs < 4 then .error (failAt .endInString [])
  else
    match (cs.take 4).mapM hexValue? with
    | some [a, b, c, d] => .ok (((a * 16 + b) * 16 + c) * 16 + d, cs.drop 4)
    | _ => .error ⟨.invalidEscape, cs, 4, []⟩

def expectInSurrogate (mark : Char) : List Char → Except Failure (List Char)
  | [] => .error (failAt .endInString [])
  | c :: cs => if c = mark then .ok cs else .error ⟨.unfinishedSurrogate, c :: cs, 1, []⟩

/-- A character given by its code, or by those of a pair of surrogates. -/
def readCode (cs : List Char) : Except Failure (Char × List Char) := do
  let (high, cs) ← readHex cs
  if 0xDC00 ≤ high ∧ high ≤ 0xDFFF then .error (failAt .loneSurrogate cs)
  else if high < 0xD800 ∨ 0xDBFF < high then .ok (Char.ofNat high, cs)
  else
    let cs ← expectInSurrogate '\\' cs
    let cs ← expectInSurrogate 'u' cs
    let (low, cs) ← readHex cs
    if low < 0xDC00 ∨ 0xDFFF < low then .error (failAt .loneSurrogate cs)
    else .ok (Char.ofNat (0x10000 + (high - 0xD800) * 0x400 + (low - 0xDC00)), cs)

def unescape? : Char → Option Char
  | '"' => some '"'
  | '\\' => some '\\'
  | '/' => some '/'
  | 'b' => some '\x08'
  | 'f' => some '\x0c'
  | 'n' => some '\n'
  | 'r' => some '\r'
  | 't' => some '\t'
  | _ => none

def readChars : Nat → List Char → Except Failure (List Char × List Char)
  | 0, _ => .error (failAt .endInString [])
  | fuel + 1, cs =>
    match cs with
    | [] => .error (failAt .endInString [])
    | '"' :: rest => .ok ([], rest)
    | '\\' :: [] => .error (failAt .endInString [])
    | '\\' :: 'u' :: rest => do
      let (c, rest) ← readCode rest
      let (more, rest) ← readChars fuel rest
      .ok (c :: more, rest)
    | '\\' :: e :: rest =>
      match unescape? e with
      | some c => do
        let (more, rest) ← readChars fuel rest
        .ok (c :: more, rest)
      | none => .error ⟨.invalidEscape, e :: rest, 1, []⟩
    | c :: rest =>
      if c.toNat < 0x20 then .error ⟨.controlCharacter, c :: rest, 1, []⟩
      else do
        let (more, rest) ← readChars fuel rest
        .ok (c :: more, rest)

def readString (cs : List Char) : Except Failure (String × List Char) := do
  let (body, rest) ← readChars (cs.length + 1) cs
  .ok (String.ofList body, rest)

/-- Whether another item of an array follows, and the text from it or from the closing bracket. -/
def moreItems (first : Bool) (cs : List Char) : Except Failure (Bool × List Char) :=
  match skipSpace cs with
  | [] => .error (failAt .endInList [])
  | ']' :: rest => .ok (false, ']' :: rest)
  | ',' :: rest =>
    if first then .ok (true, ',' :: rest)
    else
      match skipSpace rest with
      | [] => .error (failAt .endInValue [])
      | ']' :: rest => .error (failOn .trailingComma (']' :: rest))
      | rest => .ok (true, rest)
  | cs => if first then .ok (true, cs) else .error (failOn .expectedListCommaOrEnd cs)

/-- The items of an array after its bracket, up to the closing one, which is left. -/
def readItems {α : Type} (item : List Char → Except Failure (α × List Char)) :
    Nat → Nat → List Char → Except Failure (List α × List Char)
  | 0, _, cs => .error (failAt .endInList cs)
  | fuel + 1, i, cs => do
    let (more, cs) ← (moreItems (i == 0) cs).mapError (Failure.inside (.index i))
    if more then
      let (v, cs) ← (item cs).mapError (Failure.inside (.index i))
      let (vs, cs) ← readItems item fuel (i + 1) cs
      .ok (v :: vs, cs)
    else .ok ([], cs)

def closeList (cs : List Char) : Except Failure (List Char) :=
  match skipSpace cs with
  | [] => .error (failAt .endInList [])
  | ']' :: rest => .ok rest
  | ',' :: rest =>
    match skipSpace rest with
    | ']' :: rest => .error (failOn .trailingComma (']' :: rest))
    | rest => .error (failOn .trailingCharacters rest)
  | cs => .error (failOn .trailingCharacters cs)

/-- The next key of an object, or none before its closing brace, which is left. -/
def readKey (first : Bool) (cs : List Char) : Except Failure (Option String × List Char) :=
  let key (cs : List Char) : Except Failure (Option String × List Char) :=
    match cs with
    | [] => .error (failAt .endInValue [])
    | '"' :: rest => do
      let (k, rest) ← readString rest
      .ok (some k, rest)
    | '}' :: rest => .error (failOn .trailingComma ('}' :: rest))
    | rest => .error (failOn .keyNotString rest)
  match skipSpace cs with
  | [] => .error (failAt .endInObject [])
  | '}' :: rest => .ok (none, '}' :: rest)
  | ',' :: rest => if first then key (',' :: rest) else key (skipSpace rest)
  | cs => if first then key cs else .error (failOn .expectedObjectCommaOrEnd cs)

def readColon (cs : List Char) : Except Failure (List Char) :=
  match skipSpace cs with
  | [] => .error (failAt .endInObject [])
  | ':' :: rest => .ok rest
  | cs => .error (failOn .expectedColon cs)

/-- The entries of an object after its brace, up to the closing one, which is left. What an entry
is read as depends on its key and on what the entries before it gave. -/
def readEntries {σ : Type} (entry : String → σ → List Char → Except Failure (σ × List Char)) :
    Nat → Bool → σ → List Char → Except Failure (σ × List Char)
  | 0, _, _, cs => .error (failAt .endInObject cs)
  | fuel + 1, first, acc, cs => do
    let (key, cs) ← readKey first cs
    match key with
    | none => .ok (acc, cs)
    | some k =>
      let (acc, cs) ← entry k acc cs
      readEntries entry fuel false acc cs

def closeObject (cs : List Char) : Except Failure (List Char) :=
  match skipSpace cs with
  | [] => .error (failAt .endInObject [])
  | '}' :: rest => .ok rest
  | ',' :: rest => .error (failOn .trailingComma (',' :: rest))
  | cs => .error (failOn .trailingCharacters cs)

/-- A value, with `depth` levels of nesting left. -/
def readValue : Nat → List Char → Except Failure (Json × List Char)
  | depth, cs =>
    match skipSpace cs with
    | [] => .error (failAt .endInValue [])
    | 'n' :: rest => do .ok (null, ← readWord "ull".toList rest)
    | 't' :: rest => do .ok (bool true, ← readWord "rue".toList rest)
    | 'f' :: rest => do .ok (bool false, ← readWord "alse".toList rest)
    | '-' :: rest => readNumber true rest
    | '"' :: rest => do
      let (s, rest) ← readString rest
      .ok (string s, rest)
    | '[' :: rest =>
      match depth with
      | 0 => .error (failOn .nestedTooDeep ('[' :: rest))
      | depth + 1 => do
        let (items, rest) ← readItems (readValue depth) (rest.length + 1) 0 rest
        .ok (array items, ← closeList rest)
    | '{' :: rest =>
      match depth with
      | 0 => .error (failOn .nestedTooDeep ('{' :: rest))
      | depth + 1 => do
        let entry (k : String) (sorted : List (String × Json)) (cs : List Char) :
            Except Failure ((List (String × Json)) × List Char) := do
          let (v, cs) ← (readColon cs >>= readValue depth).mapError (Failure.inside (.key k))
          .ok (insert k v sorted, cs)
        let (entries, rest) ← readEntries entry (rest.length + 1) true [] rest
        .ok (object entries, ← closeObject rest)
    | c :: rest =>
      if isDigit c then readNumber false (c :: rest)
      else .error (failOn .expectedValue (c :: rest))

def readEnd (cs : List Char) : Except Failure Unit :=
  match skipSpace cs with
  | [] => .ok ()
  | cs => .error (failOn .trailingCharacters cs)

def ofChars (cs : List Char) : Except Failure Json := do
  let (v, rest) ← readValue depthLimit cs
  readEnd rest
  .ok v

def ofText (text : String) : Except Error Json :=
  (ofChars text.toList).mapError (Failure.error text.toList)

end Screener.Json
