import Screener.Json.Codec
import Screener.Proofs.Json.Numbers
import Screener.Proofs.Json.Strings

namespace Screener.Json

def Opens (text : List Char) : Prop :=
  ∃ c cs, text = c :: cs ∧ isSpace c = false ∧ c ≠ ',' ∧ c ≠ ']'

theorem skipSpace_cons {c : Char} (h : isSpace c = false) (cs : List Char) :
    skipSpace (c :: cs) = c :: cs := by
  simp [skipSpace, h]

theorem isSpace_of_isDigit {c : Char} (h : isDigit c = true) : isSpace c = false := by
  have hne : ∀ a, isDigit a = false → c ≠ a := fun a ha he => by simp [he, ha] at h
  simp [isSpace, hne ' ' rfl, hne '\n' rfl, hne '\t' rfl, hne '\r' rfl]

theorem Opens.skipSpace {t : List Char} (h : Opens t) (rest : List Char) :
    Json.skipSpace (t ++ rest) = t ++ rest := by
  obtain ⟨c, cs, rfl, hc, -⟩ := h
  exact skipSpace_cons hc (cs ++ rest)

theorem opens_cons {c : Char} (cs : List Char)
    (h : isSpace c = false ∧ c ≠ ',' ∧ c ≠ ']' := by decide) : Opens (c :: cs) :=
  ⟨c, cs, rfl, h⟩

theorem opens_signed (negative : Bool) {c : Char} {cs : List Char} (h : isDigit c = true) :
    Opens (signed negative (c :: cs)) := by
  have hne : ∀ a, isDigit a = false → c ≠ a := fun a ha he => by simp [he, ha] at h
  cases negative with
  | true => exact opens_cons _
  | false => exact ⟨c, cs, rfl, isSpace_of_isDigit h, hne ',' rfl, hne ']' rfl⟩

/-- The text is read as `a`, with `depth` levels of nesting left. -/
structure Codec.Reads {α : Type} (c : Codec α) (depth : ℕ) (text : List Char) (a : α) : Prop where
  opens : Opens text
  read : ∀ {rest}, NumberEnds rest → c.read depth (text ++ rest) = .ok (a, rest)

/-- What is written for `a` is read as `a`. -/
def Codec.ReadsBack {α : Type} (c : Codec α) (depth : ℕ) (a : α) : Prop :=
  c.Reads depth (c.write a) a

theorem numberEnds_comma (rest : List Char) : NumberEnds (',' :: rest) := .cons rest (by decide)

theorem numberEnds_bracket (rest : List Char) : NumberEnds (']' :: rest) := .cons rest (by decide)

theorem numberEnds_brace (rest : List Char) : NumberEnds ('}' :: rest) := .cons rest (by decide)

theorem separate_cons (t : List Char) (texts : List (List Char)) :
    separate (t :: texts) = t ++ texts.flatMap (',' :: ·) := by
  induction texts generalizing t with
  | nil => simp [separate]
  | cons u texts ih =>
    rw [separate, ih, List.flatMap_cons]
    · rfl
    · exact nofun

section

variable {α : Type} {c : Codec α} {depth : ℕ}

theorem moreItems_first {t : List Char} (h : Opens t) (rest : List Char) :
    moreItems true (t ++ rest) = .ok (true, t ++ rest) := by
  obtain ⟨a, as, rfl, hs, hc, hb⟩ := h
  rw [moreItems, List.cons_append, skipSpace_cons hs]
  split <;> simp_all

theorem moreItems_next {t : List Char} (h : Opens t) (rest : List Char) :
    moreItems false (',' :: (t ++ rest)) = .ok (true, t ++ rest) := by
  obtain ⟨a, as, rfl, hs, hc, hb⟩ := h
  have hcomma : skipSpace (',' :: (a :: as ++ rest)) = ',' :: (a :: as ++ rest) :=
    skipSpace_cons rfl _
  rw [moreItems, hcomma, List.cons_append]
  simp only [skipSpace_cons hs, Bool.false_eq_true, if_false]
  split <;> simp_all

theorem numberEnds_items (texts : List (List Char)) (rest : List Char) :
    NumberEnds (texts.flatMap (',' :: ·) ++ ']' :: rest) := by
  cases texts with
  | nil => exact numberEnds_bracket rest
  | cons t texts => exact numberEnds_comma _

theorem readItems_next {texts : List (List Char)} {as : List α}
    (h : List.Forall₂ (c.Reads depth) texts as) {fuel : ℕ} (hf : texts.length < fuel) (i : ℕ)
    (rest : List Char) :
    readItems (c.read depth) fuel (i + 1) (texts.flatMap (',' :: ·) ++ ']' :: rest) =
      .ok (as, ']' :: rest) := by
  induction h generalizing fuel i with
  | nil =>
    obtain ⟨fuel, rfl⟩ : ∃ n, fuel = n + 1 := ⟨fuel - 1, by rw [List.length_nil] at hf; omega⟩
    rfl
  | @cons t a texts as ht hts ih =>
    rw [List.length_cons] at hf
    obtain ⟨fuel, rfl⟩ : ∃ n, fuel = n + 1 := ⟨fuel - 1, by omega⟩
    have hmore := moreItems_next ht.opens (texts.flatMap (',' :: ·) ++ ']' :: rest)
    have hread := ht.read (numberEnds_items texts rest)
    have hitems := ih (by omega : texts.length < fuel) (i + 1)
    rw [List.flatMap_cons, List.append_assoc, List.cons_append, readItems]
    have hi : (i + 1 == 0) = false := by simp
    simp only [hi, hmore, bind, Except.bind, Except.mapError, if_true, hread, hitems]

theorem readItems_separate {texts : List (List Char)} {as : List α}
    (h : List.Forall₂ (c.Reads depth) texts as) {fuel : ℕ} (hf : texts.length < fuel)
    (rest : List Char) :
    readItems (c.read depth) fuel 0 (separate texts ++ ']' :: rest) = .ok (as, ']' :: rest) := by
  obtain ⟨fuel, rfl⟩ : ∃ n, fuel = n + 1 := ⟨fuel - 1, by omega⟩
  cases h with
  | nil => rfl
  | @cons t a texts as ht hts =>
    rw [List.length_cons] at hf
    have hmore := moreItems_first ht.opens (texts.flatMap (',' :: ·) ++ ']' :: rest)
    have hread := ht.read (numberEnds_items texts rest)
    have hitems := readItems_next hts (by omega : texts.length < fuel) 0 rest
    rw [separate_cons, List.append_assoc, readItems]
    simp only [beq_self_eq_true, hmore, bind, Except.bind, Except.mapError, if_true, hread, hitems]

/-- Each item takes at least one character, so the fuel lasts. -/
theorem length_le_separate {texts : List (List Char)} {as : List α}
    (h : List.Forall₂ (c.Reads depth) texts as) : texts.length ≤ (separate texts).length := by
  have hone : ∀ t a, c.Reads depth t a → 1 ≤ t.length := by
    intro t a ht
    obtain ⟨x, xs, rfl, -⟩ := ht.opens
    exact Nat.succ_le_succ (Nat.zero_le _)
  have hlater : ∀ texts as, List.Forall₂ (c.Reads depth) texts as →
      texts.length ≤ (texts.flatMap (',' :: ·)).length := by
    intro texts as h
    induction h with
    | nil => exact le_rfl
    | cons ht _ ih =>
      rw [List.flatMap_cons, List.length_append, List.length_cons, List.length_cons]
      omega
  cases h with
  | nil => exact le_rfl
  | cons ht hts =>
    have := hone _ _ ht
    have := hlater _ _ hts
    rw [separate_cons, List.length_append, List.length_cons]
    omega

theorem readItems_bracket {texts : List (List Char)} {as : List α}
    (h : List.Forall₂ (c.Reads depth) texts as) (rest : List Char) :
    readItems (c.read depth) ((separate texts ++ ']' :: rest).length + 1) 0
      (separate texts ++ ']' :: rest) = .ok (as, ']' :: rest) := by
  refine readItems_separate h ?_ rest
  have := length_le_separate h
  rw [List.length_append]
  omega

theorem bracket_append (texts : List (List Char)) (rest : List Char) :
    bracket texts ++ rest = '[' :: (separate texts ++ ']' :: rest) := by
  simp [bracket]

theorem Codec.reads_list {texts : List (List Char)} {as : List α}
    (h : List.Forall₂ (c.Reads depth) texts as) : c.list.Reads (depth + 1) (bracket texts) as where
  opens := opens_cons _
  read := by
    intro rest _
    have hitems := readItems_bracket h rest
    rw [bracket_append]
    simp only [Codec.list, skipSpace_cons (c := '[') rfl, hitems, bind, Except.bind]
    rfl

theorem reads_array {texts : List (List Char)} {vs : List Json}
    (h : List.Forall₂ (Codec.any.Reads depth) texts vs) :
    Codec.any.Reads (depth + 1) (bracket texts) (array vs) where
  opens := opens_cons _
  read := by
    intro rest _
    have hitems := readItems_bracket h rest
    rw [bracket_append]
    show readValue (depth + 1) _ = _
    rw [readValue]
    simp only [skipSpace_cons (c := '[') rfl]
    show (readItems (Codec.any.read depth) _ 0 _ >>= _) = _
    rw [hitems]
    rfl

end

/-- The keys and values of an object, each read where the one before ended. -/
inductive Fills {σ : Type} (step : String → List Char → σ → σ → Prop) :
    σ → List (String × List Char) → σ → Prop
  | nil (s : σ) : Fills step s [] s
  | cons {k : String} {t : List Char} {es : List (String × List Char)} {s s' s'' : σ}
      (h : step k t s s') (more : Fills step s' es s'') : Fills step s ((k, t) :: es) s''

theorem Fills.map {σ τ : Type} {step : String → List Char → σ → σ → Prop}
    {step' : String → List Char → τ → τ → Prop} (f : σ → τ) {es : List (String × List Char)}
    {s s' : σ} (h : Fills step s es s')
    (hstep : ∀ e ∈ es, ∀ s s', step e.1 e.2 s s' → step' e.1 e.2 (f s) (f s')) :
    Fills step' (f s) es (f s') := by
  induction h with
  | nil s => exact .nil (f s)
  | cons ht _ ih =>
    exact .cons (hstep _ List.mem_cons_self _ _ ht)
      (ih fun e he => hstep e (List.mem_cons_of_mem _ he))

def EntryReads {σ : Type} (entry : String → σ → List Char → Except Failure (σ × List Char))
    (k : String) (t : List Char) (s s' : σ) : Prop :=
  ∀ rest, NumberEnds rest → entry k s (':' :: (t ++ rest)) = .ok (s', rest)

def entryText (e : String × List Char) : List Char := writeEntry e.1 e.2

section

variable {σ : Type} {entry : String → σ → List Char → Except Failure (σ × List Char)} {s s' : σ}
  {es : List (String × List Char)}

theorem entryText_append (e : String × List Char) (rest : List Char) :
    entryText e ++ rest = '"' :: (e.1.toList.flatMap escape ++ '"' :: ':' :: (e.2 ++ rest)) := by
  simp [entryText, writeEntry, writeString]

theorem readKey_first (e : String × List Char) (rest : List Char) :
    readKey true (entryText e ++ rest) = .ok (some e.1, ':' :: (e.2 ++ rest)) := by
  rw [entryText_append, readKey, skipSpace_cons rfl]
  simp [readString_escaped, bind, Except.bind]

theorem readKey_next (e : String × List Char) (rest : List Char) :
    readKey false (',' :: (entryText e ++ rest)) = .ok (some e.1, ':' :: (e.2 ++ rest)) := by
  rw [entryText_append, readKey, skipSpace_cons rfl]
  simp [skipSpace_cons (c := '"') rfl, readString_escaped, bind, Except.bind]

theorem numberEnds_entries (texts : List (List Char)) (rest : List Char) :
    NumberEnds (texts.flatMap (',' :: ·) ++ '}' :: rest) := by
  cases texts with
  | nil => exact numberEnds_brace rest
  | cons t texts => exact numberEnds_comma _

/-- The entries behind the first, each behind a comma. -/
theorem readEntries_next (h : Fills (EntryReads entry) s es s') {fuel : ℕ} (hf : es.length < fuel)
    (rest : List Char) :
    readEntries entry fuel false s ((es.map entryText).flatMap (',' :: ·) ++ '}' :: rest) =
      .ok (s', '}' :: rest) := by
  induction h generalizing fuel with
  | nil s =>
    obtain ⟨fuel, rfl⟩ : ∃ n, fuel = n + 1 := ⟨fuel - 1, by rw [List.length_nil] at hf; omega⟩
    rfl
  | @cons k t es s s' s'' ht _ ih =>
    rw [List.length_cons] at hf
    obtain ⟨fuel, rfl⟩ : ∃ n, fuel = n + 1 := ⟨fuel - 1, by omega⟩
    have hkey := readKey_next (k, t) ((es.map entryText).flatMap (',' :: ·) ++ '}' :: rest)
    have hread := ht _ (numberEnds_entries (es.map entryText) rest)
    rw [List.map_cons, List.flatMap_cons, List.append_assoc, List.cons_append, readEntries, hkey]
    simp only [bind, Except.bind, hread]
    exact ih (by omega)

theorem length_le_entries (es : List (String × List Char)) :
    es.length ≤ (separate (es.map entryText)).length := by
  have hone : ∀ e, 1 ≤ (entryText e).length := by
    intro e
    simp [entryText, writeEntry, writeString]
  have hlater : es.tail.length ≤ ((es.tail.map entryText).flatMap (',' :: ·)).length := by
    induction es.tail with
    | nil => exact le_rfl
    | cons e es ih =>
      rw [List.map_cons, List.flatMap_cons, List.length_append, List.length_cons, List.length_cons]
      omega
  cases es with
  | nil => exact le_rfl
  | cons e es =>
    have := hone e
    rw [List.tail_cons] at hlater
    rw [List.map_cons, separate_cons, List.length_append, List.length_cons]
    omega

/-- The entries of an object are read one after the other, up to its closing brace. -/
theorem readEntries_brace (h : Fills (EntryReads entry) s es s') (rest : List Char) :
    readEntries entry ((separate (es.map entryText) ++ '}' :: rest).length + 1) true s
      (separate (es.map entryText) ++ '}' :: rest) = .ok (s', '}' :: rest) := by
  have hlen := length_le_entries es
  have hfuel : es.length < (separate (es.map entryText) ++ '}' :: rest).length := by
    rw [List.length_append, List.length_cons]
    omega
  rw [readEntries]
  cases h with
  | nil => rfl
  | @cons k t es _ s' _ ht hts =>
    have hkey := readKey_first (k, t) ((es.map entryText).flatMap (',' :: ·) ++ '}' :: rest)
    have hread := ht _ (numberEnds_entries (es.map entryText) rest)
    rw [List.length_cons] at hfuel
    have hmore := readEntries_next hts (Nat.lt_of_succ_lt hfuel) rest
    rw [List.map_cons, separate_cons, List.append_assoc] at hmore ⊢
    rw [hkey]
    simp only [bind, Except.bind, hread]
    exact hmore

theorem brace_append (texts : List (List Char)) (rest : List Char) :
    brace texts ++ rest = '{' :: (separate texts ++ '}' :: rest) := by
  simp [brace]

end

def valueEntry (depth : ℕ) (k : String) (sorted : List (String × Json)) (cs : List Char) :
    Except Failure (List (String × Json) × List Char) := do
  let (v, cs) ← (readColon cs >>= readValue depth).mapError (Failure.inside (.key k))
  .ok (insert k v sorted, cs)

theorem readColon_cons (cs : List Char) : readColon (':' :: cs) = .ok cs := rfl

theorem entryReads_value {depth : ℕ} {t : List Char} {v : Json} (h : Codec.any.Reads depth t v)
    (k : String) (sorted : List (String × Json)) :
    EntryReads (valueEntry depth) k t sorted (insert k v sorted) := by
  intro rest hrest
  have hread : readValue depth (t ++ rest) = .ok (v, rest) := h.read hrest
  simp only [valueEntry, readColon_cons, bind, Except.bind, hread, Except.mapError]

theorem fills_values {depth : ℕ} {es : List (String × List Char)} {ws : List (String × Json)}
    (h : List.Forall₂ (fun e w => e.1 = w.1 ∧ Codec.any.Reads depth e.2 w.2) es ws)
    (sorted : List (String × Json)) :
    Fills (EntryReads (valueEntry depth)) sorted es
      (ws.foldl (fun sorted (k, v) => insert k v sorted) sorted) := by
  induction h generalizing sorted with
  | nil => exact .nil sorted
  | @cons e w es ws hew _ ih =>
    obtain ⟨k, t⟩ := e
    obtain ⟨k', v⟩ := w
    obtain ⟨rfl, hv⟩ := hew
    exact .cons (entryReads_value hv k sorted) (ih (insert k v sorted))

theorem reads_object {depth : ℕ} {es : List (String × List Char)} {ws : List (String × Json)}
    (h : List.Forall₂ (fun e w => e.1 = w.1 ∧ Codec.any.Reads depth e.2 w.2) es ws) :
    Codec.any.Reads (depth + 1) (brace (es.map entryText)) (ofEntries ws) where
  opens := opens_cons _
  read := by
    intro rest _
    have hentries := readEntries_brace (fills_values h []) rest
    rw [brace_append]
    show readValue (depth + 1) _ = _
    rw [readValue]
    simp only [skipSpace_cons (c := '{') rfl]
    show (readEntries (valueEntry depth) _ true [] _ >>= _) = _
    rw [hentries]
    rfl

/-- The digits `ds` behind their sign are read as `v`. -/
structure Numeric (negative : Bool) (ds : List Char) (v : Json) : Prop where
  head : ∃ c cs, ds = c :: cs ∧ isDigit c = true
  read : ∀ rest, NumberEnds rest → readNumber negative (ds ++ rest) = .ok (v, rest)

theorem numeric_int {n : ℤ} (hn : IsWhole n) : Numeric (n < 0) (digitsOf n.natAbs) (int n) where
  head := (isLeading_digitsOf n.natAbs).head
  read := fun _ => readNumber_digitsOf hn

theorem numeric_float (x : Double) : Numeric x.negative (floatDigits x) (float x) where
  head := floatDigits_head x
  read := fun _ => readNumber_floatDigits x

theorem ne_of_isDigit {c a : Char} (h : isDigit c = true) (ha : isDigit a = false) : c ≠ a :=
  fun he => by simp [he, ha] at h

theorem reads_number {negative : Bool} {ds : List Char} {v : Json} (h : Numeric negative ds v)
    (depth : ℕ) : Codec.any.Reads depth (signed negative ds) v := by
  obtain ⟨⟨c, cs, rfl, hc⟩, hread⟩ := h
  refine ⟨opens_signed negative hc, fun {rest} hrest => ?_⟩
  have hnumber := hread rest hrest
  show readValue depth _ = _
  cases negative with
  | true =>
    rw [readValue]
    simp only [signed, if_true, List.cons_append, skipSpace_cons (c := '-') rfl]
    exact hnumber
  | false =>
    -- No other value starts with a digit.
    have hother : ∀ {a as}, c :: (cs ++ rest) = a :: as → isDigit a = false → False :=
      fun he ha => ne_of_isDigit hc ha (List.cons.inj he).1
    rw [readValue]
    simp only [signed, Bool.false_eq_true, if_false, List.cons_append,
      skipSpace_cons (isSpace_of_isDigit hc)]
    split
    case h_9 he =>
      cases he
      rw [if_pos hc]
      exact hnumber
    case h_1 he => cases he
    all_goals exact (hother ‹_› rfl).elim

theorem reads_int {n : ℤ} (h : IsWhole n) (depth : ℕ) : Codec.any.Reads depth (writeInt n) (int n) := by
  rw [writeInt_eq]
  exact reads_number (numeric_int h) depth

theorem reads_float (x : Double) (depth : ℕ) : Codec.any.Reads depth (writeFloat x) (float x) := by
  rw [writeFloat_eq]
  exact reads_number (numeric_float x) depth

theorem isWhole_toNat (n : UInt32) : IsWhole n.toNat := by
  have hhigh : n.toNat < 4294967296 := n.toNat_lt
  unfold IsWhole int64Bound uint64Bound
  omega

theorem opens_writeString (s : String) : Opens (writeString s) := opens_cons _

theorem writeString_append (s : String) (rest : List Char) :
    writeString s ++ rest = '"' :: (s.toList.flatMap escape ++ '"' :: rest) := by
  simp [writeString]

theorem reads_string (s : String) (depth : ℕ) : Codec.any.Reads depth (writeString s) (string s) where
  opens := opens_writeString s
  read := by
    intro rest _
    show readValue depth _ = _
    rw [writeString_append, readValue]
    simp only [skipSpace_cons (c := '"') rfl, readString_escaped, bind, Except.bind]

theorem reads_null (depth : ℕ) : Codec.any.Reads depth "null".toList null :=
  ⟨opens_cons _, by intro rest _; show readValue depth _ = _; rw [readValue]; rfl⟩

theorem reads_bool (b : Bool) (depth : ℕ) : Codec.any.Reads depth (write (bool b)) (bool b) := by
  cases b <;>
    exact ⟨opens_cons _, by intro rest _; show readValue depth _ = _; rw [readValue]; rfl⟩

namespace Codec

section

variable {σ α β : Type} {depth : ℕ}

theorem reads_via {c : Codec α} {t : List Char} {a : α} (h : c.Reads depth t a) (into : α → β)
    (back : β → α) : (c.via into back).Reads depth t (into a) where
  opens := h.opens
  read := by
    intro rest hrest
    simp only [via, h.read hrest, Except.map]

theorem readsBack_text (s : String) : text.ReadsBack depth s where
  opens := opens_writeString s
  read := by
    intro rest _
    show (parsed _ _ _).read depth (writeString s ++ rest) = _
    rw [writeString_append]
    simp only [parsed, skipSpace_cons (c := '"') rfl, readString_escaped, bind, Except.bind]

theorem readsBack_number {expected : String} {accept : Json → Except Cause α}
    {write : α → List Char} {a : α} {negative : Bool} {ds : List Char} {v : Json}
    (h : Numeric negative ds v) (hw : write a = signed negative ds) (ha : accept v = .ok a) :
    (number expected accept write).ReadsBack depth a := by
  obtain ⟨⟨c, cs, rfl, hc⟩, hread⟩ := h
  show (number expected accept write).Reads depth (write a) a
  rw [hw]
  refine ⟨opens_signed negative hc, fun {rest} hrest => ?_⟩
  have hnumber := hread rest hrest
  rw [List.cons_append] at hnumber
  cases negative with
  | true =>
    simp only [number, signed, if_true, List.cons_append, skipSpace_cons (c := '-') rfl, hnumber,
      bind, Except.bind, ha]
  | false =>
    have hminus : c ≠ '-' := ne_of_isDigit hc rfl
    simp only [number, signed, Bool.false_eq_true, if_false, List.cons_append,
      skipSpace_cons (isSpace_of_isDigit hc)]
    rw [if_pos hc, hnumber]
    simp only [bind, Except.bind, ha]

theorem readsBack_double (x : Double) : double.ReadsBack depth x :=
  readsBack_number (numeric_float x) (writeFloat_eq x) rfl

theorem readsBack_whole (expected : String) {low high : ℤ} {ofInt : ℤ → α} {toInt : α → ℤ} {a : α}
    (hbounds : low ≤ toInt a ∧ toInt a < high) (hwhole : IsWhole (toInt a))
    (hback : ofInt (toInt a) = a) : (whole expected low high ofInt toInt).ReadsBack depth a := by
  refine readsBack_number (numeric_int hwhole) (writeInt_eq (toInt a)) ?_
  simp only [if_pos hbounds, hback]

theorem readsBack_nat32 (n : UInt32) : nat32.ReadsBack depth n := by
  have hhigh : n.toNat < 4294967296 := n.toNat_lt
  refine readsBack_whole "u32" ⟨Int.natCast_nonneg _, by exact_mod_cast hhigh⟩ (isWhole_toNat n) ?_
  rw [Int.toNat_natCast, UInt32.ofNat_toNat]

theorem readsBack_optional_none (c : Codec α) : c.optional.ReadsBack depth none :=
  ⟨opens_cons _, by intro rest _; rfl⟩

theorem readsBack_optional_some {c : Codec α} {a : α} (h : c.ReadsBack depth a)
    (hnull : (c.write a).head? ≠ some 'n') : c.optional.ReadsBack depth (some a) where
  opens := h.opens
  read := by
    intro rest hrest
    show c.optional.read depth (c.write a ++ rest) = _
    have hread := h.read hrest
    simp only [optional, h.opens.skipSpace rest]
    split
    · rename_i he
      obtain ⟨ch, cs, hcs, -⟩ := h.opens
      rw [hcs, List.cons_append] at he
      rw [hcs] at hnull
      exact (hnull (congrArg some (List.cons.inj he).1)).elim
    · rw [hread]
      rfl

theorem readsBack_list {c : Codec α} {as : List α} (h : ∀ a ∈ as, c.ReadsBack depth a) :
    c.list.ReadsBack (depth + 1) as := by
  refine reads_list ?_
  rw [List.forall₂_map_left_iff, List.forall₂_same]
  exact h

theorem readsBack_choice {all : List α} {name : α → String} {a : α}
    (hfind : all.find? (name · = name a) = some a) : (choice all name).ReadsBack depth a where
  opens := opens_writeString (name a)
  read := by
    intro rest _
    show (choice all name).read depth (writeString (name a) ++ rest) = _
    rw [writeString_append]
    simp only [choice, parsed, skipSpace_cons (c := '"') rfl, readString_escaped, bind, Except.bind,
      hfind]

/-- The entry of a field moves the slots on. -/
def Fields.Takes (fields : Fields σ α) (depth : ℕ) (k : String) (t : List Char) (s s' : σ) : Prop :=
  ∀ rest, NumberEnds rest → fields.ofKey depth k s (':' :: (t ++ rest)) = some (.ok (s', rest))

/-- What is written for `a`, entry by entry under these keys, fills the slots with `a`. -/
def Fields.ReadsBack (fields : Fields σ α) (depth : ℕ) (keys : List String) (a : α) : Prop :=
  ∃ (es : List (String × List Char)) (s : σ), es.map Prod.fst = keys ∧
    fields.write a = es.map entryText ∧ Fills (fields.Takes depth) fields.blank es s ∧
    fields.finish s = .ok a

theorem Fields.readsBack_none : Fields.none.ReadsBack depth [] () :=
  ⟨[], (), rfl, rfl, .nil (), rfl⟩

theorem Fields.takes_field (field : Field α) (more : Fields σ β) {a : α}
    (h : field.codec.ReadsBack depth a) (s : σ) :
    (Fields.cons field more).Takes depth field.name (field.codec.write a) (.none, s)
      (some a, s) := by
  intro rest hrest
  simp only [Fields.cons, if_true, readColon_cons, bind, Except.bind, h.read hrest, Except.mapError,
    Except.map]

theorem Fields.takes_more (field : Field α) {more : Fields σ β} {k : String} {t : List Char}
    {s s' : σ} (hk : k ≠ field.name) (h : more.Takes depth k t s s') (slot : Option α) :
    (Fields.cons field more).Takes depth k t (slot, s) (slot, s') := by
  intro rest hrest
  simp only [Fields.cons, if_neg hk, h rest hrest, Option.map_some, Except.map]

theorem Fields.readsBack_cons {field : Field α} {more : Fields σ β} {keys : List String} {a : α}
    {b : β} (ha : field.codec.ReadsBack depth a) (hb : more.ReadsBack depth keys b)
    (hname : field.name ∉ keys) :
    (Fields.cons field more).ReadsBack depth (field.name :: keys) (a, b) := by
  obtain ⟨es, s, rfl, hwrite, hfills, hfinish⟩ := hb
  refine ⟨(field.name, field.codec.write a) :: es, (some a, s), rfl, ?_, ?_, ?_⟩
  · show writeEntry field.name (field.codec.write a) :: more.write b = _
    rw [hwrite]
    rfl
  · refine .cons (takes_field field more ha more.blank) (hfills.map _ fun e he s s' hs => ?_)
    have hk : e.1 ≠ field.name := by
      rintro hk
      exact hname (hk ▸ List.mem_map_of_mem he)
    exact takes_more field hk hs (some a)
  · simp only [Fields.cons, hfinish, bind, Except.bind]

def recordEntry (fields : Fields σ α) (depth : ℕ) (key : String) (slots : σ) (cs : List Char) :
    Except Failure (σ × List Char) :=
  match fields.ofKey depth key slots cs with
  | some r => r
  | none => do
    let cs ← (readColon cs >>= skipValue).mapError (Failure.inside (.key key))
    .ok (slots, cs)

theorem Fields.Takes.entryReads {fields : Fields σ α} {k : String} {t : List Char} {s s' : σ}
    (h : fields.Takes depth k t s s') : EntryReads (recordEntry fields depth) k t s s' := by
  intro rest hrest
  rw [recordEntry, h rest hrest]

/-- What is written for a record is read back, with one more level of nesting than its fields
need. -/
theorem readsBack_record {fields : Fields σ α} {keys : List String} {a : α}
    (h : fields.ReadsBack depth keys a) (name : String) :
    (record name fields).ReadsBack (depth + 1) a where
  opens := opens_cons _
  read := by
    intro rest _
    obtain ⟨es, s, -, hwrite, hfills, hfinish⟩ := h
    have hreads : Fills (EntryReads (recordEntry fields depth)) fields.blank es s :=
      hfills.map id fun e _ _ _ hs => hs.entryReads
    have hentries := readEntries_brace hreads rest
    show (record name fields).read (depth + 1) (brace (fields.write a) ++ rest) = _
    rw [hwrite, brace_append]
    simp only [record, skipSpace_cons (c := '{') rfl]
    show (readEntries (recordEntry fields depth) _ true fields.blank _ >>= _) = _
    rw [hentries]
    simp only [bind, Except.bind, hfinish]
    rfl

end

end Codec

end Screener.Json
