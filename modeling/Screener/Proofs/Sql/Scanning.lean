import Screener.Proofs.Compiling
import Screener.Proofs.Sql.Reading

namespace Screener.Sql

/-- The literals of a text, and the text with a question mark in place of each; none if a literal is
left open. A literal runs from a quote to the first quote that is not followed by another; a quote
written twice stands for one. The first argument is what has been read of a literal. -/
def scan : Option (List Char) → List Char → Option (List String × List Char)
  | none, [] => some ([], [])
  | some _, [] => none
  | none, c :: cs =>
    if c = '\'' then scan (some []) cs
    else (scan none cs).map fun (literals, outside) => (literals, c :: outside)
  | some body, '\'' :: '\'' :: cs => scan (some (body ++ ['\''])) cs
  | some body, c :: cs =>
    if c = '\'' then
      (scan none cs).map fun (literals, outside) =>
        (String.ofList body :: literals, '?' :: outside)
    else scan (some (body ++ [c])) cs

theorem scan_append {cs : List Char} (h : '\'' ∉ cs) (rest : List Char) :
    scan none (cs ++ rest) =
      (scan none rest).map fun (literals, outside) => (literals, cs ++ outside) := by
  induction cs with
  | nil => simp
  | cons c cs ih =>
    have hc : c ≠ '\'' := fun he => h (by simp [he])
    have hcs : '\'' ∉ cs := fun hm => h (List.mem_cons_of_mem c hm)
    rw [List.cons_append, scan, if_neg hc, ih hcs, Option.map_map]
    rfl

theorem scan_doubled (body cs : List Char) {rest : List Char} (hr : rest.head? ≠ some '\'') :
    scan (some body) (doubled cs ++ '\'' :: rest) =
      (scan none rest).map fun (literals, outside) =>
        (String.ofList (body ++ cs) :: literals, '?' :: outside) := by
  induction cs generalizing body with
  | nil =>
    have hclose : ∀ more, rest = '\'' :: more → False := by
      rintro more rfl
      exact hr rfl
    have hd : doubled [] = [] := rfl
    rw [hd, List.nil_append, scan, if_pos rfl, List.append_nil]
    -- The closing quote is not the first half of a doubled one.
    intro more _ he
    exact hclose more he
  | cons c cs ih =>
    have happend : ∀ d : Char, body ++ d :: cs = body ++ [d] ++ cs := by simp
    by_cases hc : c = '\''
    · subst hc
      have hd : doubled ('\'' :: cs) = '\'' :: '\'' :: doubled cs := rfl
      rw [hd, List.cons_append, List.cons_append, scan, ih, happend]
    · have hd : doubled (c :: cs) = c :: doubled cs := by simp [doubled, hc]
      rw [hd, List.cons_append, scan, if_neg hc, ih, happend]
      intro _ h
      exact absurd h hc

theorem scan_quote (s : String) {rest : List Char} (hr : rest.head? ≠ some '\'') :
    scan none ((quote s).toList ++ rest) =
      (scan none rest).map fun (literals, outside) => (s :: literals, '?' :: outside) := by
  have htext : (quote s).toList ++ rest = '\'' :: (doubled s.toList ++ '\'' :: rest) := by
    simp [quote]
  rw [htext, scan, if_pos rfl, scan_doubled [] _ hr]
  simp

def literalStrings : Literal → List String
  | .text s => [s]
  | _ => []

def Token.strings : Token → List String
  | .string s => [s]
  | _ => []

def Piece.strings : Piece → List String
  | token _ t => t.strings
  | operand _ l => literalStrings l

/-- A piece with a question mark for a string literal of the statement's own. -/
def Piece.masked : Piece → Piece
  | token spaced (.string _) => token spaced (.sign '?')
  | piece => piece

def maskedLiteral : Literal → String
  | .text _ => "?"
  | l => literal l

theorem quote_notMem_signed (negative : Bool) {ds : List Char} (hd : IsPlain ds) :
    '\'' ∉ signed negative ds := by
  have hds : '\'' ∉ ds := by
    cases hd with
    | whole w hne hw => exact not_mem_of_digits hw rfl
    | pointed w r hne hw hr =>
      have h1 := not_mem_of_digits hw (c := '\'') rfl
      have h2 := not_mem_of_digits hr (c := '\'') rfl
      simp [h1, h2]
  cases negative <;> simp [signed, hds]

theorem quote_notMem_literal {l : Literal} (h : ∀ s, l ≠ .text s) : '\'' ∉ (literal l).toList := by
  cases l with
  | null => decide
  | bool b => cases b <;> decide
  | int n =>
    rw [toList_literal_int]
    exact quote_notMem_signed _ (isPlain_digitsOf _)
  | float x =>
    rw [toList_literal_float]
    exact quote_notMem_signed _ x.isPlain_digits
  | text s => exact absurd rfl (h s)

theorem scan_body {piece : Piece} (hf : piece.Fixed Record.columns) {rest : List Char}
    (hr : piece.isSign = true ∨ rest.head? ≠ some '\'') :
    scan none (piece.body literal ++ rest) = (scan none rest).map fun (literals, outside) =>
      (piece.strings ++ literals, piece.masked.body maskedLiteral ++ outside) := by
  cases piece with
  | token _ t =>
    have ht : t.Fixed Record.columns := hf
    cases t with
    | string s => exact scan_quote s (hr.resolve_left Bool.false_ne_true)
    | _ => exact scan_append (Token.notMem_spell ht (Or.inr ⟨rfl, by simp⟩)) rest
  | operand _ l =>
    cases l with
    | text s =>
      have hquote := scan_quote s (hr.resolve_left Bool.false_ne_true)
      simpa [Piece.body, Piece.strings, literalStrings, Piece.masked, maskedLiteral, literal]
        using hquote
    | null | bool _ | int _ | float _ => exact scan_append (quote_notMem_literal (by simp)) rest

theorem Piece.spaced_masked (piece : Piece) : piece.masked.spaced = piece.spaced := by
  rcases piece with ⟨_, _ | _ | _ | _ | _⟩ | _ <;> rfl

/-- Scanning finds the strings of the pieces and leaves the rest as it is written. -/
theorem scan_spelled {pieces : List Piece}
    (hf : ∀ piece ∈ pieces, piece.Fixed Record.columns)
    (hc : pieces.IsChain fun a b => a.isSign = true ∨ b.apart = true) :
    scan none (spelled literal pieces) =
      some (pieces.flatMap Piece.strings, spelled maskedLiteral (pieces.map Piece.masked)) := by
  induction pieces with
  | nil => rfl
  | cons a pieces ih =>
    have hrest := ih (fun p hp => hf p (List.mem_cons_of_mem a hp)) hc.of_cons
    -- A quote right after a literal would be read as part of it, but none can follow.
    have hends : a.isSign = true ∨ (spelled literal pieces).head? ≠ some '\'' := by
      by_cases hs : a.isSign = true
      · exact Or.inl hs
      · right
        intro hq
        have hends : Token.Ends (spelled literal pieces) := ends_spelled fun b hb =>
          ((List.isChain_cons.mp hc).1 b hb).resolve_left hs
        exact absurd (hends _ hq) (by decide)
    have hbody := scan_body (hf a (by simp)) hends
    have hblank := notMem_blank (c := '\'') (by decide) a
    rw [spelled_cons, Piece.text, List.append_assoc, scan_append hblank, hbody, hrest,
      List.map_cons, spelled_cons, Piece.text, Piece.spaced_masked, List.flatMap_cons]
    simp only [Option.map_some, List.append_assoc]

/-- The literals of a condition: its text operands, or a pattern and the character that escapes. -/
def stringsOf (c : Condition) : List String :=
  match c.predicate with
  | .contains pattern => [pattern, String.singleton likeEscape]
  | _ => (operandsOf c).flatMap literalStrings

theorem strings_conditionPieces (c : Condition) :
    (conditionPieces c).flatMap Piece.strings = stringsOf c := by
  obtain ⟨f, _ | _ | pattern | vs⟩ := c
  case contains => cases f <;> rfl
  case member =>
    cases vs with
    | nil => rfl
    | cons v vs =>
      simp [conditionPieces, Piece.listed, stringsOf, operandsOf, Piece.word, Piece.sign,
        List.flatMap_assoc, List.flatMap_map, Piece.strings, Token.strings]
  all_goals simp [conditionPieces, stringsOf, operandsOf, Piece.word, Piece.strings,
    Token.strings]

theorem strings_planPieces (p : Plan) :
    (planPieces starPieces p).flatMap Piece.strings = p.conditions.flatMap stringsOf := by
  have hg : ∀ spaced t, (∀ s, t ≠ .string s) → (Piece.token spaced t).strings = [] := by
    intro _ t ht
    cases t with
    | string s => exact absurd rfl (ht s)
    | _ => rfl
  have hstar : starPieces.flatMap Piece.strings = [] := rfl
  rw [flatMap_planPieces hg, hstar, List.nil_append, funext strings_conditionPieces]

/-- What may stand outside of the literals; a question mark is where a literal was. -/
def Token.Outside : Token → Prop
  | .word s => s ∈ keywords ++ "NULL" :: Field.all.map Field.column
  | .number ds => IsPlain ds
  | .string _ => False
  | .compare _ => True
  | .sign c => c ∈ [',', '(', ')', '*', '-', '?']

def maskedTokens : Literal → List Token
  | .text _ => [.sign '?']
  | l => literalTokens l

theorem outside_maskedTokens {l : Literal} (h : ∀ b, l ≠ .bool b) :
    ∀ t ∈ maskedTokens l, t.Outside := by
  have hsigned : ∀ (negative : Bool) {ds : List Char}, IsPlain ds →
      ∀ t ∈ signedTokens negative ds, t.Outside := by
    intro negative ds hd t ht
    cases negative with
    | false =>
      rw [List.mem_singleton.mp ht]
      exact hd
    | true =>
      rcases List.mem_cons.mp ht with rfl | ht
      · simp [Token.Outside]
      · rw [List.mem_singleton.mp ht]
        exact hd
  cases l with
  | null =>
    have hnull : (Token.word "NULL").Outside := List.mem_append_right _ (by simp)
    simpa [maskedTokens, literalTokens] using hnull
  | bool b => exact absurd rfl (h b)
  | int n => exact hsigned _ (isPlain_digitsOf _)
  | float x => exact hsigned _ x.isPlain_digits
  | text s => simp [maskedTokens, Token.Outside]

theorem outside_masked {piece : Piece} (hf : piece.Fixed (Field.all.map Field.column))
    (hb : ∀ l ∈ piece.operands, ∀ b, l ≠ .bool b) :
    ∀ t ∈ piece.masked.tokens maskedTokens, t.Outside := by
  cases piece with
  | token _ t =>
    have ht : t.Fixed (Field.all.map Field.column) := hf
    cases t with
    | word s =>
      have hs : (Token.word s).Outside := by
        rcases List.mem_append.mp ht with h | h
        · exact List.mem_append_left _ h
        · exact List.mem_append_right _ (List.mem_cons_of_mem _ h)
      simpa [Piece.masked, Piece.tokens] using hs
    | number ds =>
      obtain ⟨n, rfl⟩ := ht
      have hn : (Token.number (digitsOf n)).Outside := isPlain_digitsOf n
      simpa [Piece.masked, Piece.tokens] using hn
    | string s => simp [Piece.masked, Piece.tokens, Token.Outside]
    | compare c => simp [Piece.masked, Piece.tokens, Token.Outside]
    | sign c =>
      have hc : (Token.sign c).Outside := by
        simp only [Token.Fixed, List.mem_cons, List.not_mem_nil, or_false] at ht
        rcases ht with rfl | rfl | rfl | rfl <;> simp [Token.Outside]
      simpa [Piece.masked, Piece.tokens] using hc
  | operand _ l => exact outside_maskedTokens (hb l (by simp [Piece.operands]))

/-- No operand stays a truth value. -/
theorem operandsOf_ne_bool {q : Query} {c : Condition} (hc : c ∈ (Plan.ofQuery q).conditions)
    {l : Literal} (hl : l ∈ operandsOf c) (b : Bool) : l ≠ .bool b := by
  have htyped := wellTyped_of_mem hc
  rintro rfl
  obtain ⟨f, _ | _ | _ | _⟩ := c
  case compare =>
    rw [← List.mem_singleton.mp hl] at htyped
    exact htyped
  case between =>
    rcases List.mem_pair.mp hl with h | h <;> rw [← h] at htyped
    · exact htyped.1
    · exact htyped.2
  case contains => cases List.mem_singleton.mp hl
  case member => exact htyped _ hl

theorem operands_ne_bool {q : Query} {piece : Piece}
    (h : piece ∈ planPieces starPieces (.ofQuery q)) {l : Literal} (hl : l ∈ piece.operands)
    (b : Bool) : l ≠ .bool b := by
  have hcols : starPieces.flatMap Piece.operands = [] := rfl
  have hmem : l ∈ (planPieces starPieces (.ofQuery q)).flatMap Piece.operands :=
    List.mem_flatMap.mpr ⟨piece, h, hl⟩
  rw [operands_planPieces hcols] at hmem
  obtain ⟨c, hc, hlc⟩ := List.mem_flatMap.mp hmem
  exact operandsOf_ne_bool hc hlc b

theorem Piece.readable_masked {piece : Piece} (h : piece.Fixed Record.columns) :
    piece.masked.Readable := by
  have hr := Piece.readable_of_fixed h
  rcases piece with ⟨_, _ | _ | _ | _ | _⟩ | _
  case token.string => simp [masked, Readable, Token.Readable]
  all_goals exact hr

theorem Piece.apart_masked (piece : Piece) : piece.masked.apart = piece.apart := by
  rcases piece with ⟨_, _ | _ | _ | _ | _⟩ | _
  case token.string => simp [masked, apart]
  all_goals rfl

theorem Piece.isSign_masked {piece : Piece} (h : piece.isSign = true) :
    piece.masked.isSign = true := by
  rcases piece with ⟨_, _ | _ | _ | _ | _⟩ | _ <;> first | rfl | cases h

theorem lexed_maskedLiteral (l : Literal) (rest : List Char) (ts : List Token)
    (hr : Token.Ends rest) (h : Token.Lexed rest ts) :
    Token.Lexed ((maskedLiteral l).toList ++ rest) (maskedTokens l ++ ts) := by
  cases l with
  | text s =>
    have hmark := h.append (t := .sign '?') (by simp [Token.Readable]) (Or.inl ⟨_, rfl⟩)
    simpa [maskedLiteral, maskedTokens, Token.spell] using hmark
  | null => exact lexed_literal .null hr h
  | bool b => exact lexed_literal (.bool b) hr h
  | int n => exact lexed_literal (.int n) hr h
  | float x => exact lexed_literal (.float x) hr h

theorem masked_chain {pieces : List Piece}
    (h : pieces.IsChain fun a b => a.isSign = true ∨ b.apart = true) :
    (pieces.map Piece.masked).IsChain fun a b => a.isSign = true ∨ b.apart = true := by
  refine List.isChain_map_of_isChain Piece.masked (fun a b hab => ?_) h
  rw [Piece.apart_masked]
  exact hab.imp_left Piece.isSign_masked

/-- The literals of the shown text are the texts that are searched for or compared with, and nothing
of them gets outside. -/
theorem scan_sql (q : Query) : ∃ outside ts,
    scan none q.sql.toList = some ((Plan.ofQuery q).conditions.flatMap stringsOf, outside) ∧
      Token.ofText? (String.ofList outside) = some ts ∧ ∀ t ∈ ts, t.Outside := by
  set pieces := planPieces starPieces (.ofQuery q)
  have hstar : Separate starPieces := separate_of_forall (by simp [starPieces])
  have hchain := chain_planPieces hstar (.ofQuery q)
  have hfixed : ∀ {names : List String}, (∀ f : Field, f.column ∈ names) →
      ∀ piece ∈ pieces, piece.Fixed names := fun hf =>
    fixed_planPieces hf (by simp [starPieces, Piece.Fixed, Token.Fixed]) _
  have hcolumns := hfixed column_mem_columns
  have hfields := hfixed fun f => List.mem_map_of_mem (Field.mem_all f)
  have hscan := scan_spelled hcolumns hchain
  have hreadable : ∀ piece ∈ pieces.map Piece.masked, piece.Readable := by
    intro piece hp
    obtain ⟨a, ha, rfl⟩ := List.mem_map.mp hp
    exact Piece.readable_masked (hcolumns a ha)
  -- What is left outside is put together from pieces again, so it is read as they are.
  have hlexed := lexed_spelled lexed_maskedLiteral hreadable (masked_chain hchain)
  rw [strings_planPieces, ← audit_toList] at hscan
  rw [← String.toList_ofList (l := spelled maskedLiteral (pieces.map Piece.masked))] at hlexed
  refine ⟨_, _, hscan, hlexed.ofText?_eq, fun t ht => ?_⟩
  obtain ⟨masked, hm, htm⟩ := List.mem_flatMap.mp ht
  obtain ⟨piece, hp, rfl⟩ := List.mem_map.mp hm
  exact outside_masked (hfields piece hp) (fun l hl => operands_ne_bool hp hl) t htm

end Screener.Sql
