import Screener.Json.Reader

namespace Screener.Json

inductive Frame where
  | list
  | object
deriving DecidableEq

/-- What comes next: a value, or the next member of an open frame, perhaps after a comma. -/
inductive Awaiting where
  | value
  | member (frame : Frame) (afterMember : Bool)

def skipExponent (cs : List Char) : Except Failure (List Char) :=
  let (_, cs) := spanSign cs
  match cs with
  | [] => .error (failAt .invalidNumber [])
  | c :: rest =>
    if isDigit c then .ok (rest.dropWhile isDigit)
    else .error ⟨.invalidNumber, c :: rest, 1, []⟩

def skipNumber (cs : List Char) : Except Failure (List Char) := do
  let cs ← match cs with
    | [] => .error (failAt .invalidNumber [])
    | '0' :: rest =>
      if rest.head?.any isDigit then .error (failOn .invalidNumber rest) else .ok rest
    | c :: rest =>
      if isDigit c then .ok (rest.dropWhile isDigit)
      else .error ⟨.invalidNumber, c :: rest, 1, []⟩
  match cs with
  | '.' :: rest =>
    let (ds, rest) := spanDigits rest
    if ds.isEmpty then .error (failOn .invalidNumber rest)
    else
      match rest with
      | 'e' :: rest | 'E' :: rest => skipExponent rest
      | _ => .ok rest
  | 'e' :: rest | 'E' :: rest => skipExponent rest
  | _ => .ok cs

def skipChars : Nat → List Char → Except Failure (List Char)
  | 0, _ => .error (failAt .endInString [])
  | fuel + 1, cs =>
    match cs with
    | [] => .error (failAt .endInString [])
    | '"' :: rest => .ok rest
    | '\\' :: [] => .error (failAt .endInString [])
    | '\\' :: 'u' :: rest => do
      let (_, rest) ← readHex rest
      skipChars fuel rest
    | '\\' :: e :: rest =>
      if (unescape? e).isSome then skipChars fuel rest
      else .error ⟨.invalidEscape, e :: rest, 1, []⟩
    | c :: rest =>
      if c.toNat < 0x20 then .error ⟨.controlCharacter, c :: rest, 1, []⟩
      else skipChars fuel rest

def skipString (cs : List Char) : Except Failure (List Char) := skipChars (cs.length + 1) cs

/-- A value that opens no frame, or none where one is opened. -/
def skipScalar : List Char → Except Failure (Option (List Char))
  | [] => .error (failAt .endInValue [])
  | 'n' :: rest => do .ok (some (← readWord "ull".toList rest))
  | 't' :: rest => do .ok (some (← readWord "rue".toList rest))
  | 'f' :: rest => do .ok (some (← readWord "alse".toList rest))
  | '-' :: rest => do .ok (some (← skipNumber rest))
  | '"' :: rest => do .ok (some (← skipString rest))
  | '[' :: _ | '{' :: _ => .ok none
  | c :: rest =>
    if isDigit c then do .ok (some (← skipNumber (c :: rest)))
    else .error (failOn .expectedValue (c :: rest))

def skipKey (cs : List Char) : Except Failure (List Char) :=
  match skipSpace cs with
  | [] => .error (failAt .endInObject [])
  | '"' :: rest => do readColon (← skipString rest)
  | rest => .error (failOn .keyNotString rest)

def Frame.ends : Frame → Char
  | list => ']'
  | object => '}'

def Frame.unended : Frame → Cause
  | list => .endInList
  | object => .endInObject

def Frame.expectedComma : Frame → Cause
  | list => .expectedListCommaOrEnd
  | object => .expectedObjectCommaOrEnd

def skipFrom : Nat → Awaiting → List Frame → List Char → Except Failure (List Char)
  | 0, _, _, cs => .error (failAt .endInValue cs)
  | fuel + 1, .value, frames, cs => do
    let cs := skipSpace cs
    match ← skipScalar cs with
    | some rest =>
      match frames with
      | [] => .ok rest
      | frame :: frames => skipFrom fuel (.member frame true) frames rest
    | none =>
      let frame := if cs.head? = some '[' then Frame.list else Frame.object
      skipFrom fuel (.member frame false) frames (cs.drop 1)
  | fuel + 1, .member frame afterMember, frames, cs =>
    let next (cs : List Char) : Except Failure (List Char) := do
      let cs ← if frame = .object then skipKey cs else .ok cs
      skipFrom fuel .value (frame :: frames) cs
    match skipSpace cs with
    | [] => .error (failAt frame.unended [])
    | c :: rest =>
      if c = ',' ∧ afterMember then next rest
      else if c = frame.ends then
        match frames with
        | [] => .ok rest
        | frame :: frames => skipFrom fuel (.member frame true) frames rest
      else if afterMember then .error (failOn frame.expectedComma (c :: rest))
      else next (c :: rest)

def skipValue (cs : List Char) : Except Failure (List Char) :=
  skipFrom (2 * cs.length + 2) .value [] cs

end Screener.Json
