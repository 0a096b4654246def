import Screener.Number.Decimal
import Screener.Operator

namespace Screener.Sql

inductive Token where
  | word (s : String)
  /-- A number without its sign. -/
  | number (digits : List Char)
  | string (s : String)
  | compare (c : Comparison)
  /-- One of `,`, `(`, `)`, `*`, `?` and `-`. -/
  | sign (c : Char)
deriving DecidableEq

namespace Token

/-- The body of a string literal and what follows its closing quote; a quote written twice stands
for one. -/
def readQuoted : List Char → Option (List Char × List Char)
  | [] => none
  | '\'' :: '\'' :: rest => (readQuoted rest).map fun (body, rest) => ('\'' :: body, rest)
  | c :: rest =>
    if c = '\'' then some ([], rest)
    else (readQuoted rest).map fun (body, rest) => (c :: body, rest)

def isWordStart (c : Char) : Bool := c.isAlpha || c == '_'

def isWordPart (c : Char) : Bool := isWordStart c || isDigit c

/-- Digits, with a point and more digits if they follow. -/
def readNumber (cs : List Char) : List Char × List Char :=
  let (whole, rest) := spanDigits cs
  match rest with
  | '.' :: more =>
    let (fraction, rest) := spanDigits more
    (whole ++ '.' :: fraction, rest)
  | rest => (whole, rest)

def read? : List Char → Option (Token × List Char)
  | '>' :: '=' :: rest => some (compare .gte, rest)
  | '<' :: '=' :: rest => some (compare .lte, rest)
  | '>' :: rest => some (compare .gt, rest)
  | '<' :: rest => some (compare .lt, rest)
  | '=' :: rest => some (compare .eq, rest)
  | '\'' :: rest => (readQuoted rest).map fun (body, rest) => (string (String.ofList body), rest)
  | c :: rest =>
    if c ∈ [',', '(', ')', '*', '?', '-'] then some (sign c, rest)
    else if isDigit c then
      let (digits, rest) := readNumber (c :: rest)
      some (number digits, rest)
    else if isWordStart c then
      let (w, rest) := (c :: rest).span isWordPart
      some (word (String.ofList w), rest)
    else none
  | [] => none

/-- All tokens; the fuel is the length of the text. -/
def readAll : Nat → List Char → Option (List Token)
  | _, [] => some []
  | 0, _ :: _ => none
  | fuel + 1, ' ' :: rest => readAll fuel rest
  | fuel + 1, cs => do
    let (t, rest) ← read? cs
    some (t :: (← readAll fuel rest))

def ofText? (text : String) : Option (List Token) :=
  let cs := text.toList
  readAll cs.length cs

end Token

end Screener.Sql
