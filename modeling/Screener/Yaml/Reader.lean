import Screener.Yaml.Node
import Screener.Yaml.Scalar

namespace Screener.Yaml

/-- The next token. A comment runs to the end of its line; a tab separates tokens, but indents none
outside brackets. -/
def skip (flow tabs comment : Bool) : Cells → Cells
  | [] => []
  | c :: rest =>
    if isBreak c.char then skip flow flow false rest
    else if comment ∨ c.char = '#' then skip flow tabs true rest
    else if c.char = ' ' ∨ (c.char = '\t' ∧ tabs) then skip flow tabs false rest
    else c :: rest

def nextInFlow (cs : Cells) : Cells := skip true true false cs

/-- The next token after one that may not be followed by a block on its line. -/
def nextInLine (cs : Cells) : Cells := skip false true false cs

def nextInBlock (cs : Cells) : Cells := skip false false false cs

def startsWith (c : Char) (cs : Cells) : Bool := cs.head?.any (·.char == c)

def sameLine (a b : Cells) : Bool := a.head?.map Cell.line == b.head?.map Cell.line

def scalarNode (quoted : Bool) (r : List Char × Cells) : Node × Cells :=
  (.scalar quoted (String.ofList r.1), r.2)

/-- A scalar, plain over lines that are indented, or in quotes. -/
def readScalar (flow : Bool) (indent : Nat) : Cells → Option (Node × Cells)
  | [] => none
  | c :: rest =>
    if c.char = '"' ∨ c.char = '\x27' then
      (readQuoted c.char (rest.length + 1) rest).map (scalarNode true)
    else (readPlain flow indent (c :: rest)).map (scalarNode false)

/-! Between brackets -/

mutual

def readFlow (indent : Nat) : Nat → Cells → Option (Node × Cells)
  | 0, _ => none
  | fuel + 1, cs =>
    if atEnd cs then none
    else if startsWith '[' cs then
      (readFlowItems indent fuel (cs.drop 1)).map fun (items, rest) => (.list items, rest)
    else if startsWith '\x7b' cs then
      (readFlowEntries indent fuel (cs.drop 1)).map fun (entries, rest) => (.map entries, rest)
    else readScalar true indent cs

/-- The value of a key that starts at `start`, if a colon follows on the same line. -/
def readFlowValue (indent : Nat) (start : Cells) : Nat → Cells → Option (Option Node × Cells)
  | 0, _ => none
  | fuel + 1, cs =>
    let colon := nextInFlow cs
    if startsWith ':' colon ∧ sameLine start colon then
      let next := nextInFlow (colon.drop 1)
      if startsWith ',' next ∨ startsWith ']' next ∨ startsWith '\x7d' next then
        some (some .nothing, next)
      else (readFlow indent fuel next).map fun (v, rest) => (some v, rest)
    else some (none, cs)

/-- The items up to a closing bracket. A key with its value is a map of one entry. -/
def readFlowItems (indent : Nat) : Nat → Cells → Option (List Node × Cells)
  | 0, _ => none
  | fuel + 1, cs => do
    let start := nextInFlow cs
    if startsWith ']' start then some ([], start.drop 1)
    else
      let (key, rest) ← readFlow indent fuel start
      let (value, rest) ← readFlowValue indent start fuel rest
      let item := match value with
        | some v => .map [(key, v)]
        | none => key
      let next := nextInFlow rest
      if startsWith ',' next then
        let (items, rest) ← readFlowItems indent fuel (next.drop 1)
        some (item :: items, rest)
      else if startsWith ']' next then some ([item], next.drop 1)
      else none

def readFlowEntries (indent : Nat) : Nat → Cells → Option (List (Node × Node) × Cells)
  | 0, _ => none
  | fuel + 1, cs => do
    let start := nextInFlow cs
    if startsWith '\x7d' start then some ([], start.drop 1)
    else
      let (key, rest) ← readFlow indent fuel start
      let (value, rest) ← readFlowValue indent start fuel rest
      let entry := (key, value.getD .nothing)
      let next := nextInFlow rest
      if startsWith ',' next then
        let (entries, rest) ← readFlowEntries indent fuel (next.drop 1)
        some (entry :: entries, rest)
      else if startsWith '\x7d' next then some ([entry], next.drop 1)
      else none

end

/-! Blocks -/

/-- A node with nothing after it on its line, and the next token. -/
def readInline (indent : Nat) (cs : Cells) : Option (Node × Cells) := do
  let (node, rest) ←
    if startsWith '[' cs ∨ startsWith '\x7b' cs then readFlow indent (2 * cs.length + 2) cs
    else readScalar false indent cs
  let next := nextInLine rest
  if atEnd next ∨ !(sameLine rest next) then some (node, next) else none

def readKey (cs : Cells) : Option (Node × Cells) := do
  let (line, after) := cs.span fun c => cs.head?.any (·.line == c.line)
  let (key, rest) ← readScalar false 0 line
  match rest.dropWhile (isSpace ·.char) with
  | c :: rest => if c.char = ':' ∧ atBlank rest then some (key, rest ++ after) else none
  | [] => none

def atDash : Cells → Bool
  | [] => false
  | c :: rest => c.char == '-' && atBlank rest

def columnOf (cs : Cells) : Nat := (cs.head?.map Cell.column).getD 0

mutual

/-- The node that begins at the next token; its scalars are indented. After it comes a token. -/
def readBlock (indent : Nat) : Nat → Cells → Option (Node × Cells)
  | 0, _ => none
  | fuel + 1, cs =>
    if atDash cs then
      (readItems (columnOf cs) false fuel cs).map fun (items, rest) => (.list items, rest)
    else if (readKey cs).isSome then
      (readEntries (columnOf cs) fuel cs).map fun (entries, rest) => (.map entries, rest)
    else readInline indent cs
termination_by structural fuel => fuel

/-- What belongs to a key in a column: text on its line, a block further right, or a list in that
column. -/
def readValue (column : Nat) (key : Cells) : Nat → Cells → Option (Node × Cells)
  | 0, _ => none
  | fuel + 1, cs =>
    let next := nextInLine cs
    if atEnd next then some (.nothing, next)
    else if sameLine key next then readInline (column + 1) next
    else if column < columnOf next then readBlock (column + 1) fuel next
    else if columnOf next = column ∧ atDash next then
      (readItems column true fuel next).map fun (items, rest) => (.list items, rest)
    else some (.nothing, next)
termination_by structural fuel => fuel

def readEntries (column : Nat) : Nat → Cells → Option (List (Node × Node) × Cells)
  | 0, _ => none
  | fuel + 1, cs => do
    let (key, rest) ← readKey cs
    let (value, next) ← readValue column cs fuel rest
    if atEnd next ∨ columnOf next < column then some ([(key, value)], next)
    else if columnOf next = column then
      let (entries, rest) ← readEntries column fuel next
      some ((key, value) :: entries, rest)
    else none
termination_by structural fuel => fuel

/-- Items with dashes in a column. A list in the column of a key may be followed by another key. -/
def readItems (column : Nat) (underKey : Bool) : Nat → Cells → Option (List Node × Cells)
  | 0, _ => none
  | fuel + 1, cs => do
    let start := nextInBlock (cs.drop 1)
    let (item, next) ←
      if !(atEnd start) ∧ (sameLine cs start ∨ column < columnOf start) then
        readBlock (column + 1) fuel start
      else some (.nothing, start)
    if atEnd next ∨ columnOf next < column then some ([item], next)
    else if columnOf next ≠ column then none
    else if atDash next then
      let (items, rest) ← readItems column underKey fuel next
      some (item :: items, rest)
    else if underKey then some ([item], next)
    else none
termination_by structural fuel => fuel

end

/-- The end of a text, or a mark of the end and nothing else. -/
def isOver (cs : Cells) : Bool :=
  cs.isEmpty || (startsWith '.' cs && (nextInLine (cs.drop 3)).isEmpty)

/-- The document that a text holds; none if it holds another number of them, or something else. -/
def Node.ofText? (s : String) : Option Node := do
  let chars := match s.toList with
    | '\ufeff' :: cs => cs
    | cs => cs
  if chars.all isAllowed then
    let cs := nextInBlock (place 0 0 (unifyBreaks chars))
    let fuel := 3 * cs.length + 3
    let (node, rest) ←
      if atMarker cs then
        if startsWith '-' cs then
          let next := nextInLine (cs.drop 3)
          if atEnd next then some (nothing, next)
          else if sameLine cs next then readInline 0 next
          else readBlock 0 fuel next
        else none
      else if cs.isEmpty then some (nothing, [])
      else readBlock 0 fuel cs
    if isOver rest then some node else none
  else none

end Screener.Yaml
