import Screener.Proofs.Sql.Pieces

namespace Screener.Sql

namespace Token

/-- A text that is read as tokens, one after another. -/
inductive Lexed : List Char → List Token → Prop
  | done : Lexed [] []
  | blank {cs : List Char} {ts : List Token} (h : Lexed cs ts) : Lexed (' ' :: cs) ts
  | token {cs rest : List Char} {t : Token} {ts : List Token} (hr : read? cs = some (t, rest))
      (hlt : rest.length < cs.length) (h : Lexed rest ts) : Lexed cs (t :: ts)

theorem readAll_of_read? {cs rest : List Char} {t : Token} (h : read? cs = some (t, rest))
    (n : ℕ) : readAll (n + 1) cs = (readAll n rest).map (t :: ·) := by
  match cs with
  | [] => cases h
  | c :: cs =>
    have hc : c ≠ ' ' := by
      rintro rfl
      cases h
    rw [readAll, h, Option.map_eq_bind]
    · rfl
    · exact List.cons_ne_nil c cs
    · intro more he
      exact hc (List.cons.inj he).1

/-- Fuel as long as the text is enough. -/
theorem Lexed.readAll_eq {cs : List Char} {ts : List Token} (h : Lexed cs ts) {n : ℕ}
    (hn : cs.length ≤ n) : readAll n cs = some ts := by
  induction h generalizing n with
  | done => cases n <;> rfl
  | @blank cs ts _ ih =>
    rw [List.length_cons] at hn
    obtain ⟨n, rfl⟩ : ∃ k, n = k + 1 := ⟨n - 1, by omega⟩
    exact ih (by omega)
  | token hr hlt _ ih =>
    obtain ⟨n, rfl⟩ : ∃ k, n = k + 1 := ⟨n - 1, by omega⟩
    rw [readAll_of_read? hr, ih (by omega)]
    rfl

theorem Lexed.ofText?_eq {s : String} {ts : List Token} (h : Lexed s.toList ts) :
    ofText? s = some ts := h.readAll_eq le_rfl

/-- Where a word or a number ends. -/
def Ends (rest : List Char) : Prop := ∀ c ∈ rest.head?, c ∈ [' ', ',', '(', ')']

theorem ends_nil : Ends [] := by simp [Ends]

theorem ends_cons {c : Char} {cs : List Char} : Ends (c :: cs) ↔ c ∈ [' ', ',', '(', ')'] := by
  simp [Ends]

theorem Ends.head_ne {rest : List Char} (h : Ends rest) {p : Char → Bool}
    (hp : [' ', ',', '(', ')'].any p = false) : ∀ c ∈ rest.head?, p c = false :=
  fun c hc => eq_false_of_ne_true (List.any_eq_false.mp hp c (h c hc))

def IsWord (w : List Char) : Prop :=
  (∃ c ∈ w.head?, isWordStart c = true ∧ isDigit c = false ∧
    c ∉ ['>', '<', '=', '\''] ++ [',', '(', ')', '*', '?', '-']) ∧ ∀ c ∈ w, isWordPart c = true

instance (w : List Char) : Decidable (IsWord w) :=
  decidable_of_iff
    ((w.head?.any fun c => isWordStart c && !isDigit c &&
      decide (c ∉ ['>', '<', '=', '\''] ++ [',', '(', ')', '*', '?', '-'])) && w.all isWordPart)
    (by cases w <;> simp [IsWord, and_assoc])

/-- The tokens whose spelling can be read back. -/
def Readable : Token → Prop
  | word s => IsWord s.toList
  | number ds => IsPlain ds
  | string _ => True
  | compare _ => True
  | sign c => c ∈ [',', '(', ')', '*', '?', '-']

theorem read?_of_ne {c : Char} (h : c ∉ ['>', '<', '=', '\'']) (rest : List Char) :
    read? (c :: rest) =
      if c ∈ [',', '(', ')', '*', '?', '-'] then some (sign c, rest)
      else if isDigit c then some (number (readNumber (c :: rest)).1, (readNumber (c :: rest)).2)
      else if isWordStart c then
        some (word (String.ofList ((c :: rest).span isWordPart).1), ((c :: rest).span isWordPart).2)
      else none := by
  simp only [List.mem_cons, List.not_mem_nil, or_false, not_or] at h
  unfold read?
  split <;> simp_all

theorem read?_word {w rest : List Char} (hw : IsWord w) (hr : Ends rest) :
    read? (w ++ rest) = some (word (String.ofList w), rest) := by
  obtain ⟨⟨c, hc, hstart, hdigit, hne⟩, hall⟩ := hw
  obtain ⟨w, rfl⟩ : ∃ w', w = c :: w' := by
    cases w with
    | nil => simp at hc
    | cons d w =>
      cases hc
      exact ⟨w, rfl⟩
  -- What follows is no part of a word, so the word is neither cut short nor run on.
  have hspan : (c :: (w ++ rest)).span isWordPart = (c :: w, rest) := by
    have hh := hr.head_ne (p := isWordPart) rfl
    rw [← List.cons_append, List.span_eq_takeWhile_dropWhile, List.takeWhile_append_of_pos hall,
      List.dropWhile_append_of_pos hall]
    cases rest with
    | nil => simp
    | cons d rest => simp [hh d rfl]
  obtain ⟨hq, hs⟩ := not_or.mp (mt List.mem_append.mpr hne)
  rw [List.cons_append, read?_of_ne hq, if_neg hs, if_neg (by simp [hdigit]), if_pos hstart, hspan]

theorem readNumber_append {ds rest : List Char} (hd : IsPlain ds) (hr : Ends rest) :
    readNumber (ds ++ rest) = (ds, rest) := by
  have hdigit := hr.head_ne (p := isDigit) rfl
  have hpoint : ∀ more, rest ≠ '.' :: more := by
    rintro more rfl
    exact absurd (ends_cons.mp hr) (by decide)
  cases hd with
  | whole w hne hw =>
    simp only [readNumber, spanDigits_append hw hdigit]
  | pointed w r hne hw hr' =>
    have hdot : ∀ c ∈ ('.' :: (r ++ rest)).head?, isDigit c = false := by
      intro c hc
      cases hc
      rfl
    rw [List.append_assoc, List.cons_append]
    simp only [readNumber, spanDigits_append hw hdot, spanDigits_append hr' hdigit]

theorem read?_number {ds rest : List Char} (hd : IsPlain ds) (hr : Ends rest) :
    read? (ds ++ rest) = some (number ds, rest) := by
  have hnum := readNumber_append hd hr
  obtain ⟨c, ds, rfl, hc⟩ := hd.head
  have hq : c ∉ ['>', '<', '=', '\''] := by
    intro h
    fin_cases h <;> exact absurd hc (by decide)
  have hs : c ∉ [',', '(', ')', '*', '?', '-'] := by
    intro h
    fin_cases h <;> exact absurd hc (by decide)
  rw [List.cons_append, read?_of_ne hq, if_neg hs, if_pos hc, ← List.cons_append, hnum]

theorem readQuoted_doubled (body : List Char) {rest : List Char} (hr : rest.head? ≠ some '\'') :
    readQuoted (doubled body ++ '\'' :: rest) = some (body, rest) := by
  induction body with
  | nil =>
    cases rest with
    | nil => rfl
    | cons c rest =>
      have hc : c ≠ '\'' := fun h => hr (by rw [h]; rfl)
      simp [doubled, readQuoted, hc]
  | cons c body ih =>
    by_cases hc : c = '\''
    · subst hc
      have hd : doubled ('\'' :: body) = '\'' :: '\'' :: doubled body := rfl
      rw [hd, List.cons_append, List.cons_append, readQuoted, ih]
      rfl
    · have hd : doubled (c :: body) = c :: doubled body := by simp [doubled, hc]
      rw [hd, List.cons_append, readQuoted, if_neg hc, ih]
      · rfl
      · intro _ h
        exact absurd h hc

/-- Doubling the quotes of a text is undone by reading it. -/
theorem read?_string (s : String) {rest : List Char} (hr : Ends rest) :
    read? ((quote s).toList ++ rest) = some (string s, rest) := by
  have hquote : rest.head? ≠ some '\'' := by
    intro h
    exact absurd (hr _ h) (by decide)
  have htext : (quote s).toList ++ rest = '\'' :: (doubled s.toList ++ '\'' :: rest) := by
    simp [quote]
  simp only [htext, read?, readQuoted_doubled _ hquote, Option.map_some, String.ofList_toList]

theorem read?_compare (c : Comparison) {rest : List Char} (hr : Ends rest) :
    read? (c.sql.toList ++ rest) = some (compare c, rest) := by
  have heq : ∀ more, rest ≠ '=' :: more := by
    rintro more rfl
    exact absurd (ends_cons.mp hr) (by decide)
  cases c with
  | gt | lt => simp [Comparison.sql, read?]
  | eq | gte | lte => rfl

theorem read?_sign {c : Char} (h : c ∈ [',', '(', ')', '*', '?', '-']) (rest : List Char) :
    read? (c :: rest) = some (sign c, rest) := by
  have hq : c ∉ ['>', '<', '=', '\''] := by
    intro h'
    fin_cases h <;> exact absurd h' (by decide)
  rw [read?_of_ne hq, if_pos h]

/-- What a token is read back from, if the text ends there; a sign is read whatever follows. -/
theorem read?_spell {t : Token} (ht : t.Readable) {rest : List Char}
    (hr : (∃ c, t = sign c) ∨ Ends rest) : read? (t.spell ++ rest) = some (t, rest) := by
  cases t with
  | word s =>
    have h := read?_word ht (hr.resolve_left (by simp))
    rwa [String.ofList_toList] at h
  | number ds => exact read?_number ht (hr.resolve_left (by simp))
  | string s => exact read?_string s (hr.resolve_left (by simp))
  | compare c => exact read?_compare c (hr.resolve_left (by simp))
  | sign c => exact read?_sign ht rest

theorem spell_ne_nil {t : Token} (ht : t.Readable) : t.spell ≠ [] := by
  cases t with
  | word s =>
    obtain ⟨⟨c, hc, -⟩, -⟩ := ht
    rintro h
    rw [spell] at h
    rw [h] at hc
    cases hc
  | number ds =>
    obtain ⟨c, ds, rfl, -⟩ := IsPlain.head ht
    exact List.cons_ne_nil c ds
  | string s => simp [spell, quote]
  | compare c => cases c <;> decide
  | sign c => simp [spell]

theorem Lexed.append {t : Token} (ht : t.Readable) {rest : List Char} {ts : List Token}
    (hr : (∃ c, t = sign c) ∨ Ends rest) (h : Lexed rest ts) :
    Lexed (t.spell ++ rest) (t :: ts) := by
  have hpos := List.length_pos_iff.mpr (spell_ne_nil ht)
  exact .token (read?_spell ht hr) (by rw [List.length_append]; omega) h

theorem isWord_of_mem {s : String} (h : s ∈ keywords ++ Record.columns) : IsWord s.toList := by
  revert s
  decide

theorem readable_of_fixed {t : Token} (h : t.Fixed Record.columns) : t.Readable := by
  cases t with
  | word s => exact isWord_of_mem h
  | number ds =>
    obtain ⟨n, rfl⟩ := h
    exact isPlain_digitsOf n
  | string s => trivial
  | compare c => trivial
  | sign c =>
    simp only [Fixed, List.mem_cons, List.not_mem_nil, or_false] at h
    rcases h with rfl | rfl | rfl | rfl <;> simp [Readable]

end Token

namespace Piece

/-- The tokens of a piece, if operands have those that `lex` gives. -/
def tokens (lex : Literal → List Token) : Piece → List Token
  | token _ t => [t]
  | operand _ l => lex l

def Readable : Piece → Prop
  | token _ t => t.Readable
  | operand _ _ => True

theorem readable_of_fixed {piece : Piece} (h : piece.Fixed Record.columns) : piece.Readable := by
  cases piece with
  | token _ t => exact Token.readable_of_fixed h
  | operand _ l => trivial

def isSign : Piece → Bool
  | token _ (.sign _) => true
  | _ => false

/-- A piece that ends a word or a number before it. -/
def apart : Piece → Bool
  | token spaced (.sign c) => spaced || c ∈ [',', '(', ')']
  | token spaced _ | operand spaced _ => spaced

@[simp] theorem apart_token (t : Token) : (token true t).apart = true := by
  cases t <;> rfl

@[simp] theorem apart_operand (l : Literal) : (operand true l).apart = true := rfl

@[simp] theorem apart_word (s : String) : (word s).apart = true := rfl

theorem exists_text_of_apart {piece : Piece} (h : piece.apart = true) (spell : Literal → String) :
    ∃ c cs, piece.text spell = c :: cs ∧ c ∈ [' ', ',', '(', ')'] := by
  rcases piece with ⟨_ | _, t⟩ | ⟨_ | _, l⟩
  · cases t with
    | sign c => exact ⟨c, [], rfl, List.mem_cons_of_mem _ (by simpa [apart] using h)⟩
    | _ => cases h
  · exact ⟨' ', _, rfl, by simp⟩
  · cases h
  · exact ⟨' ', _, rfl, by simp⟩

end Piece

open Piece
open Token (Lexed Ends)

/-- Pieces that do not run into one another, or into what stands before them. -/
structure Separate (pieces : List Piece) : Prop where
  head : ∀ piece ∈ pieces.head?, piece.apart = true
  chain : pieces.IsChain fun a b => a.isSign = true ∨ b.apart = true

theorem separate_nil : Separate [] := ⟨by simp, .nil⟩

theorem Separate.cons {a : Piece} {pieces : List Piece} (h : Separate pieces)
    (ha : a.apart = true) : Separate (a :: pieces) := by
  refine ⟨by simpa using ha, List.isChain_cons.mpr ⟨fun b hb => Or.inr (h.head b hb), h.chain⟩⟩

theorem Separate.append {a b : List Piece} (ha : Separate a) (hb : Separate b) :
    Separate (a ++ b) := by
  constructor
  · cases a with
    | nil => exact hb.head
    | cons p a => exact ha.head
  · exact ha.chain.append hb.chain fun _ _ q hq => Or.inr (hb.head q hq)

theorem separate_of_forall {pieces : List Piece} (h : ∀ piece ∈ pieces, piece.apart = true) :
    Separate pieces := by
  induction pieces with
  | nil => exact separate_nil
  | cons a pieces ih =>
    exact (ih fun p hp => h p (List.mem_cons_of_mem a hp)).cons (h a (by simp))

theorem separate_flatMap {α : Type} {f : α → List Piece} {l : List α}
    (h : ∀ a ∈ l, Separate (f a)) : Separate (l.flatMap f) := by
  induction l with
  | nil => exact separate_nil
  | cons a l ih =>
    exact (h a (by simp)).append (ih fun b hb => h b (List.mem_cons_of_mem a hb))

theorem Separate.cons_sign {a b : Piece} {pieces : List Piece} (h : Separate pieces)
    (ha : a.apart = true) (hs : a.isSign = true) : Separate (a :: b :: pieces) := by
  refine ⟨by simpa using ha, List.isChain_cons_cons.mpr ⟨Or.inl hs, ?_⟩⟩
  exact List.isChain_cons.mpr ⟨fun c hc => Or.inr (h.head c hc), h.chain⟩

theorem separate_listed {others : List Piece} (h : ∀ piece ∈ others, piece.apart = true) :
    Separate (others.flatMap fun piece => [Piece.sign ',', piece]) :=
  separate_flatMap fun piece hp => separate_of_forall (by simpa using ⟨rfl, h piece hp⟩)

theorem separate_searchPieces (f : Field) : Separate (searchPieces f) := by
  have hrest : Separate [word "AS", word "VARCHAR", Piece.sign ')'] :=
    separate_of_forall (by decide)
  unfold searchPieces
  split
  · exact separate_nil.cons rfl
  · exact (hrest.cons_sign rfl rfl).cons rfl

theorem separate_conditionPieces (c : Condition) : Separate (conditionPieces c) := by
  obtain ⟨f, o | _ | pattern | vs⟩ := c
  case contains =>
    exact (separate_searchPieces f).append (separate_of_forall (by simp))
  case member =>
    cases vs with
    | nil => exact separate_nil.cons rfl
    | cons v vs =>
      have hapart : ∀ piece ∈ vs.map (operand true), piece.apart = true := by simp
      have hothers := separate_listed hapart
      have hclose := hothers.append (separate_nil.cons (a := Piece.sign ')') rfl)
      exact ((hclose.cons_sign rfl rfl).cons rfl).cons rfl
  all_goals exact separate_of_forall (by simp [conditionPieces])

theorem separate_wherePieces (cs : List Condition) : Separate (wherePieces cs) := by
  cases cs with
  | nil => exact separate_nil
  | cons c cs =>
    exact ((separate_conditionPieces c).append (separate_flatMap fun c _ =>
      (separate_conditionPieces c).cons rfl)).cons rfl

theorem separate_orderPieces (o : Option (Field × Direction)) : Separate (orderPieces o) := by
  cases o with
  | none => exact separate_nil
  | some o => exact separate_of_forall (by simp [orderPieces])

theorem separate_recordPieces : Separate recordPieces :=
  (separate_listed (by decide)).cons rfl

theorem chain_planPieces {columns : List Piece} (hc : Separate columns) (p : Plan) :
    (planPieces columns p).IsChain fun a b => a.isSign = true ∨ b.apart = true := by
  have hfrom : Separate [word "FROM", word stocksTable] := separate_of_forall (by simp)
  have hlimit : Separate [word "LIMIT", .token true (.number (digitsOf p.limit))] :=
    separate_of_forall (by simp)
  have htail := (((hc.append hfrom).append (separate_wherePieces p.conditions)).append
    (separate_orderPieces p.order)).append hlimit
  exact List.isChain_cons.mpr ⟨fun b hb => Or.inr (htail.head b hb), htail.chain⟩

section

variable {spell : Literal → String} {lex : Literal → List Token}

theorem ends_spelled {pieces : List Piece} (h : ∀ piece ∈ pieces.head?, piece.apart = true) :
    Ends (spelled spell pieces) := by
  cases pieces with
  | nil => exact Token.ends_nil
  | cons a pieces =>
    obtain ⟨c, cs, ht, hc⟩ := exists_text_of_apart (h a rfl) spell
    rw [spelled_cons, ht]
    exact Token.ends_cons.mpr hc

variable (hop : ∀ l rest ts, Ends rest → Lexed rest ts →
  Lexed ((spell l).toList ++ rest) (lex l ++ ts))
include hop

/-- Pieces are read as their tokens, if operands are. -/
theorem lexed_spelled {pieces : List Piece} (hf : ∀ piece ∈ pieces, piece.Readable)
    (hc : pieces.IsChain fun a b => a.isSign = true ∨ b.apart = true) :
    Lexed (spelled spell pieces) (pieces.flatMap (tokens lex)) := by
  induction pieces with
  | nil => exact .done
  | cons a pieces ih =>
    have hrest := ih (fun p hp => hf p (List.mem_cons_of_mem a hp)) hc.of_cons
    -- The tokens of the rest are known; whether this piece is read whole depends on its start.
    have hends : a.isSign = true ∨ Ends (spelled spell pieces) := by
      by_cases hs : a.isSign = true
      · exact Or.inl hs
      · exact Or.inr (ends_spelled fun b hb =>
          ((List.isChain_cons.mp hc).1 b hb).resolve_left hs)
    have hbody : Lexed (a.body spell ++ spelled spell pieces)
        (a.tokens lex ++ pieces.flatMap (tokens lex)) := by
      cases a with
      | token spaced t =>
        have ht : t.Readable := hf (.token spaced t) (by simp)
        refine Lexed.append ht (hends.imp_left fun hs => ?_) hrest
        cases t with
        | sign c => exact ⟨c, rfl⟩
        | _ => cases hs
      | operand spaced l => exact hop l _ _ (hends.resolve_left (by simp [isSign])) hrest
    rw [spelled_cons, List.flatMap_cons, text, List.append_assoc]
    split
    · exact hbody.blank
    · exact hbody

theorem lexed_planPieces {columns : List Piece}
    (hf : ∀ piece ∈ columns, piece.Fixed Record.columns) (hc : Separate columns) (p : Plan) :
    Lexed (spelled spell (planPieces columns p))
      ((planPieces columns p).flatMap (tokens lex)) :=
  lexed_spelled hop (fun piece hp =>
    readable_of_fixed (fixed_planPieces column_mem_columns hf p piece hp)) (chain_planPieces hc p)

end

end Screener.Sql
