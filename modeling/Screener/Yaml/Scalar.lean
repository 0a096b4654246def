namespace Screener.Yaml

structure Cell where
  char : Char
  line : Nat
  column : Nat
deriving DecidableEq

def isBreak (c : Char) : Bool := c = '\n' || c = '\u2028' || c = '\u2029'

def isSpace (c : Char) : Bool := c = ' ' || c = '\t'

def isAllowed (c : Char) : Bool :=
  let n := c.toNat
  n == 0x09 || n == 0x0A || n == 0x0D || (0x20 ≤ n && n ≤ 0x7E) || n == 0x85 ||
    (0xA0 ≤ n && n ≤ 0xD7FF) || (0xE000 ≤ n && n ≤ 0xFFFD && n != 0xFEFF) || 0x10000 ≤ n

/-- One character for each line break, the two separators aside. -/
def unifyBreaks : List Char → List Char
  | '\r' :: '\n' :: cs => '\n' :: unifyBreaks cs
  | '\r' :: cs => '\n' :: unifyBreaks cs
  | '\u0085' :: cs => '\n' :: unifyBreaks cs
  | c :: cs => c :: unifyBreaks cs
  | [] => []

/-- The characters with their lines and columns, both counted from zero. -/
def place (line column : Nat) : List Char → List Cell
  | [] => []
  | c :: cs =>
    ⟨c, line, column⟩ :: if isBreak c then place (line + 1) 0 cs else place line (column + 1) cs

abbrev Cells := List Cell

def atBlank : Cells → Bool
  | [] => true
  | c :: _ => isSpace c.char || isBreak c.char

/-- Before a line that begins or ends a document. -/
def atMarker : Cells → Bool
  | a :: b :: c :: rest =>
    a.column == 0 && a.char == b.char && b.char == c.char && (a.char == '-' || a.char == '.') &&
      atBlank rest
  | _ => false

def atEnd (cs : Cells) : Bool := cs.isEmpty || atMarker cs

/-- Blanks and line breaks inside a scalar: the blanks before the first break, and the breaks. -/
structure Gap where
  blanks : List Char
  breaks : List Char
  rest : Cells

def Gap.of (cs : Cells) : Gap :=
  let (skipped, rest) := cs.span fun c => isSpace c.char || isBreak c.char
  let chars := skipped.map Cell.char
  ⟨chars.takeWhile isSpace, chars.filter isBreak, rest⟩

def Gap.text (g : Gap) : List Char :=
  match g.breaks with
  | [] => g.blanks
  | ['\n'] => [' ']
  | '\n' :: more => more
  | breaks => breaks

/-! Plain scalars -/

def isFlowMark (c : Char) : Bool := c ∈ [',', '[', ']', '\x7b', '\x7d']

def startsPlain (flow : Bool) : Cells → Bool
  | [] => false
  | c :: rest =>
    if isSpace c.char || isBreak c.char then false
    else if c.char = '-' then !(atBlank rest)
    else if c.char = '?' ∨ c.char = ':' then !flow && !(atBlank rest)
    else !(isFlowMark c.char) &&
      !(c.char ∈ ['#', '&', '*', '!', '|', '>', '\x27', '"', '%', '@', '\x60'])

/-- The characters up to a blank or to a mark that ends the scalar; none if a mark is misplaced. -/
def plainWord (flow : Bool) : Cells → Option (List Char × Cells)
  | [] => some ([], [])
  | c :: rest =>
    if isSpace c.char || isBreak c.char then some ([], c :: rest)
    else if c.char = ':' ∧ flow ∧ rest.head?.any (fun d => isFlowMark d.char || d.char = '?') then
      none
    else if c.char = ':' ∧ atBlank rest then some ([], c :: rest)
    else if flow ∧ isFlowMark c.char then some ([], c :: rest)
    else (plainWord flow rest).map fun (word, rest) => (c.char :: word, rest)

def tabInIndent (indent : Nat) (cs : Cells) : Bool :=
  ((cs.takeWhile fun c => isSpace c.char || isBreak c.char).dropWhile fun c => !isBreak c.char).any
    fun c => c.char == '\t' && c.column < indent

/-- The rest of a plain scalar after one of its words, over lines that are indented. -/
def plainMore (flow : Bool) (indent : Nat) : Nat → Cells → Option (List Char × Cells)
  | 0, cs => some ([], cs)
  | fuel + 1, cs => do
    if tabInIndent indent cs then none
    let g := Gap.of cs
    let goesOn : Bool := match g.rest with
      | [] => false
      | c :: _ => (g.blanks ≠ [] || g.breaks ≠ []) && c.char != '#' && !(atMarker g.rest) &&
          (flow || indent ≤ c.column)
    if goesOn then
      match ← plainWord flow g.rest with
      | ([], _) => some ([], cs)
      | (word, rest) =>
        let (more, rest) ← plainMore flow indent fuel rest
        some (g.text ++ word ++ more, rest)
    else some ([], cs)

def readPlain (flow : Bool) (indent : Nat) (cs : Cells) : Option (List Char × Cells) := do
  if startsPlain flow cs then
    let (word, rest) ← plainWord flow cs
    let (more, rest) ← plainMore flow indent rest.length rest
    some (word ++ more, rest)
  else none

/-! Quoted scalars -/

def hexValue? (c : Char) : Option Nat :=
  if '0' ≤ c ∧ c ≤ '9' then some (c.toNat - '0'.toNat)
  else if 'a' ≤ c ∧ c ≤ 'f' then some (c.toNat - 'a'.toNat + 10)
  else if 'A' ≤ c ∧ c ≤ 'F' then some (c.toNat - 'A'.toNat + 10)
  else none

def readCode (digits : Nat) (cs : Cells) : Option (Char × Cells) := do
  let ds ← (cs.take digits).mapM fun c => hexValue? c.char
  let n := ds.foldl (fun n d => 16 * n + d) 0
  if ds.length = digits ∧ n.isValidChar then some (Char.ofNat n, cs.drop digits) else none

def readEscape : Cells → Option (Char × Cells)
  | [] => none
  | c :: rest =>
    match c.char with
    | '0' => some ('\x00', rest)
    | 'a' => some ('\x07', rest)
    | 'b' => some ('\x08', rest)
    | 't' | '\t' => some ('\t', rest)
    | 'n' => some ('\n', rest)
    | 'v' => some ('\x0b', rest)
    | 'f' => some ('\x0c', rest)
    | 'r' => some ('\r', rest)
    | 'e' => some ('\x1b', rest)
    | ' ' => some (' ', rest)
    | '"' => some ('"', rest)
    | '/' => some ('/', rest)
    | '\\' => some ('\\', rest)
    | 'N' => some ('\u0085', rest)
    | '_' => some ('\u00a0', rest)
    | 'L' => some ('\u2028', rest)
    | 'P' => some ('\u2029', rest)
    | 'x' => readCode 2 rest
    | 'u' => readCode 4 rest
    | 'U' => readCode 8 rest
    | _ => none

/-- A scalar after its opening quote `q`. In single quotes only the quote is escaped, by another. -/
def readQuoted (q : Char) : Nat → Cells → Option (List Char × Cells)
  | 0, _ => none
  | fuel + 1, cs =>
    if atEnd cs then none
    else
      match cs with
      | [] => none
      | c :: rest =>
        if c.char = q then
          match rest with
          | d :: more =>
            if q = '\x27' ∧ d.char = q then
              (readQuoted q fuel more).map fun (body, rest) => (q :: body, rest)
            else some ([], rest)
          | [] => some ([], [])
        else if c.char = '\\' ∧ q = '"' then
          if rest.head?.any (isBreak ·.char) then
            let g := Gap.of rest
            (readQuoted q fuel g.rest).map fun (body, rest) => (g.breaks.drop 1 ++ body, rest)
          else do
            let (e, rest) ← readEscape rest
            let (body, rest) ← readQuoted q fuel rest
            some (e :: body, rest)
        else if isSpace c.char || isBreak c.char then
          let g := Gap.of (c :: rest)
          (readQuoted q fuel g.rest).map fun (body, rest) => (g.text ++ body, rest)
        else (readQuoted q fuel rest).map fun (body, rest) => (c.char :: body, rest)

end Screener.Yaml
