import Screener.Proofs.Json.Lexemes

namespace Screener.Json

def Blank (ws : List Char) : Prop := ∀ c ∈ ws, isSpace c = true

structure Atom where
  text : List Char
  value : Json
  starts : skipSpace text = text
  read : readValue 0 text = .ok (value, [])

/-- A key as it is spelled, from behind its opening quote. -/
structure Key where
  text : List Char
  name : String
  read : readString text = .ok (name, [])

/-- A key as it is written out. -/
def Key.named (name : String) : Key where
  text := name.toList.flatMap escape ++ ['"']
  name := name
  read := readString_escaped name []

inductive Tree where
  | atom (a : Atom)
  | array (items : List Tree)
  | object (entries : List (Key × Tree))

namespace Tree

mutual

def value : Tree → Json
  | atom a => a.value
  | array items => .array (values items)
  | object entries => ofEntries (entryValues entries)

def values : List Tree → List Json
  | [] => []
  | t :: rest => value t :: values rest

def entryValues : List (Key × Tree) → List (String × Json)
  | [] => []
  | (k, t) :: rest => (k.name, value t) :: entryValues rest

end

theorem values_eq (items : List Tree) : values items = items.map value := by
  induction items with
  | nil => rfl
  | cons t items ih => rw [values, ih, List.map_cons]

theorem entryValues_eq (entries : List (Key × Tree)) :
    entryValues entries = entries.map fun e => (e.1.name, e.2.value) := by
  induction entries with
  | nil => rfl
  | cons e entries ih => rw [entryValues, ih, List.map_cons]

theorem values_append (a b : List Tree) : values (a ++ b) = values a ++ values b := by
  rw [values_eq, values_eq, values_eq, List.map_append]

theorem entryValues_append (a b : List (Key × Tree)) :
    entryValues (a ++ b) = entryValues a ++ entryValues b := by
  rw [entryValues_eq, entryValues_eq, entryValues_eq, List.map_append]

mutual

def compact : Tree → List Char
  | atom a => a.text
  | array items => bracket (compactItems items)
  | object entries => brace (compactEntries entries)

def compactItems : List Tree → List (List Char)
  | [] => []
  | t :: rest => compact t :: compactItems rest

def compactEntries : List (Key × Tree) → List (List Char)
  | [] => []
  | (k, t) :: rest => ('"' :: (k.text ++ ':' :: compact t)) :: compactEntries rest

end

theorem compactItems_eq (items : List Tree) : compactItems items = items.map compact := by
  induction items with
  | nil => rfl
  | cons t items ih => rw [compactItems, ih, List.map_cons]

theorem compactEntries_eq (entries : List (Key × Tree)) :
    compactEntries entries = entries.map fun e => '"' :: (e.1.text ++ ':' :: e.2.compact) := by
  induction entries with
  | nil => rfl
  | cons e entries ih => rw [compactEntries, ih, List.map_cons]

end Tree

structure SpelledEntry where
  before : List Char
  key : Key
  between : List Char
  tree : Tree
  text : List Char

def SpelledEntry.chars (e : SpelledEntry) : List Char :=
  e.before ++ '"' :: (e.key.text ++ (e.between ++ ':' :: e.text))

/-- The text is one of the tree: space may stand around each value and each key. -/
inductive Spells : Tree → List Char → Prop
  | atom (a : Atom) : Spells (.atom a) a.text
  | array {lead : List Char} (hlead : Blank lead) (items : List (Tree × List Char))
      (h : ∀ p ∈ items, Spells p.1 p.2) :
      Spells (.array (items.map Prod.fst))
        ('[' :: (lead ++ (separate (items.map Prod.snd) ++ [']'])))
  | object {lead : List Char} (hlead : Blank lead) (entries : List SpelledEntry)
      (hkeys : ∀ e ∈ entries, Blank e.before ∧ Blank e.between)
      (h : ∀ e ∈ entries, Spells e.tree e.text) :
      Spells (.object (entries.map fun e => (e.key, e.tree)))
        ('{' :: (lead ++ (separate (entries.map SpelledEntry.chars) ++ ['}'])))
  | spaced {t : Tree} {before text after : List Char} (hbefore : Blank before)
      (hafter : Blank after) (h : Spells t text) : Spells t (before ++ (text ++ after))

theorem blank_nil : Blank [] := fun _ => nofun

theorem blank_singleton {c : Char} (h : isSpace c = true) : Blank [c] :=
  List.forall_mem_singleton.mpr h

theorem spells_array {items : List Tree} (h : ∀ t ∈ items, Spells t t.compact) :
    Spells (.array items) (Tree.array items).compact := by
  have hspells := Spells.array blank_nil (items.map fun t => (t, t.compact))
    (List.forall_mem_map.mpr h)
  simpa [Tree.compact, Tree.compactItems_eq, bracket, Function.comp_def] using hspells

theorem spells_object {entries : List (Key × Tree)} (h : ∀ e ∈ entries, Spells e.2 e.2.compact) :
    Spells (.object entries) (Tree.object entries).compact := by
  have hspells := Spells.object blank_nil
    (entries.map fun e => ⟨[], e.1, [], e.2, e.2.compact⟩)
    (List.forall_mem_map.mpr fun _ _ => ⟨blank_nil, blank_nil⟩) (List.forall_mem_map.mpr h)
  simpa [Tree.compact, Tree.compactEntries_eq, brace, SpelledEntry.chars, Function.comp_def]
    using hspells

mutual

theorem spells_compact : ∀ t : Tree, Spells t t.compact
  | .atom a => .atom a
  | .array items => spells_array (spells_compactItems items)
  | .object entries => spells_object (spells_compactEntries entries)

theorem spells_compactItems : ∀ items : List Tree, ∀ t ∈ items, Spells t t.compact
  | [] => fun _ => nofun
  | t :: items => List.forall_mem_cons.mpr ⟨spells_compact t, spells_compactItems items⟩

theorem spells_compactEntries : ∀ entries : List (Key × Tree), ∀ e ∈ entries, Spells e.2 e.2.compact
  | [] => fun _ => nofun
  | (_, t) :: entries => List.forall_mem_cons.mpr ⟨spells_compact t, spells_compactEntries entries⟩

end

theorem skipSpace_blank {ws : List Char} (h : Blank ws) (cs : List Char) :
    skipSpace (ws ++ cs) = skipSpace cs := List.dropWhile_append_of_pos h

theorem exists_blank (cs : List Char) : ∃ ws, Blank ws ∧ cs = ws ++ skipSpace cs :=
  ⟨cs.takeWhile isSpace, fun _ hc => List.mem_takeWhile_imp hc,
    List.takeWhile_append_dropWhile.symm⟩

theorem NumberEnds.blank {ws rest : List Char} (h : Blank ws) (hrest : NumberEnds rest) :
    NumberEnds (ws ++ rest) := by
  cases ws with
  | nil => exact hrest
  | cons c ws =>
    have hc : isSpace c = true := h c List.mem_cons_self
    have hcases : ((c = ' ' ∨ c = '\n') ∨ c = '\t') ∨ c = '\r' := by
      simpa [isSpace] using hc
    refine .cons (ws ++ rest) ?_
    rcases hcases with ((rfl | rfl) | rfl) | rfl <;> decide

theorem Opens.append {t : List Char} (h : Opens t) (rest : List Char) : Opens (t ++ rest) := by
  obtain ⟨c, cs, rfl, hc⟩ := h
  exact ⟨c, cs ++ rest, rfl, hc⟩

theorem skipSpace_append {t : List Char} (h : Opens (skipSpace t)) (rest : List Char) :
    skipSpace (t ++ rest) = skipSpace t ++ rest := by
  obtain ⟨c, cs, hc, -⟩ := h
  have hne : ((t.dropWhile isSpace).isEmpty) = false := by
    rw [show t.dropWhile isSpace = c :: cs from hc]
    rfl
  rw [skipSpace, List.dropWhile_append, hne]
  rfl

theorem Atom.readsScalar (a : Atom) : ReadsScalar a.text a.value := by
  -- Without any level left neither an array nor an object is read.
  obtain ⟨text, htext, hread⟩ | ⟨body, -, hread⟩ | ⟨body, -, hread⟩ := readValue_parts a.read
  · rw [a.starts, List.append_nil] at htext
    rw [htext]
    exact hread
  · obtain ⟨d, _, _, hd, -⟩ := readValue_array hread
    cases hd
  · obtain ⟨d, _, _, hd, -⟩ := readValue_object hread
    cases hd

theorem Key.readString_append (k : Key) (rest : List Char) :
    readString (k.text ++ rest) = .ok (k.name, rest) := by
  obtain ⟨used, hused, hread⟩ := readString_eq k.read
  rw [List.append_nil] at hused
  rw [hused]
  exact hread rest

theorem Spells.opens {t : Tree} {text : List Char} (h : Spells t text) :
    Opens (skipSpace text) := by
  induction h with
  | atom a =>
    rw [a.starts]
    exact (a.readsScalar 0).opens
  | array => exact opens_cons _
  | object => exact opens_cons _
  | spaced hbefore hafter _ ih =>
    rw [skipSpace_blank hbefore, skipSpace_append ih]
    exact ih.append _

/-- Texts with commas between them, and one in front unless the first of them comes first. -/
def joined (first : Bool) (texts : List (List Char)) : List Char :=
  if first then separate texts else texts.flatMap (',' :: ·)

theorem joined_nil (first : Bool) : joined first [] = [] := by
  cases first <;> rfl

theorem joined_cons (first : Bool) (t : List Char) (texts : List (List Char)) :
    joined first (t :: texts) = (if first then t else ',' :: t) ++ joined false texts := by
  cases first with
  | true => exact separate_cons t texts
  | false => rfl

theorem numberEnds_joined (texts : List (List Char)) {rest : List Char} (h : NumberEnds rest) :
    NumberEnds (joined false texts ++ rest) := by
  cases texts with
  | nil => exact h
  | cons t texts => exact numberEnds_comma _

section

variable {depth fuel : ℕ} {first : Bool} {cs rest behind : List Char} {texts : List (List Char)}

theorem moreItems_end (h : skipSpace cs = ']' :: rest) :
    moreItems first cs = .ok (false, ']' :: rest) := by
  rw [moreItems, h]
  rfl

theorem moreItems_joined {text : List Char} (htext : Opens (skipSpace text))
    (h : skipSpace cs = skipSpace (joined first (text :: texts) ++ rest)) :
    moreItems first cs = .ok (true, skipSpace text ++ (joined false texts ++ rest)) := by
  rw [joined_cons, List.append_assoc] at h
  obtain ⟨c, tail, hc, hs, hcomma, hbracket⟩ := htext.append (joined false texts ++ rest)
  cases first with
  | true =>
    rw [if_pos rfl, skipSpace_append htext, hc] at h
    rw [moreItems, h, hc]
    split <;> simp_all
  | false =>
    rw [if_neg Bool.false_ne_true, List.cons_append, skipSpace_cons rfl] at h
    rw [moreItems, h]
    simp only [skipSpace_append htext, hc, Bool.false_eq_true, if_false]
    split <;> simp_all

theorem readKey_end (h : skipSpace cs = '}' :: rest) :
    readKey first cs = .ok (none, '}' :: rest) := by
  rw [readKey, h]
  rfl

theorem readKey_joined {e : SpelledEntry} (he : Blank e.before)
    (h : skipSpace cs = skipSpace (joined first (e.chars :: texts) ++ rest)) :
    readKey first cs =
      .ok (some e.key.name, e.between ++ ':' :: (e.text ++ (joined false texts ++ rest))) := by
  have hchars : ∀ more, skipSpace (e.chars ++ more) =
      '"' :: (e.key.text ++ (e.between ++ ':' :: (e.text ++ more))) := by
    intro more
    rw [SpelledEntry.chars, List.append_assoc, skipSpace_blank he, List.cons_append,
      skipSpace_cons rfl]
    simp
  rw [joined_cons, List.append_assoc] at h
  cases first with
  | true =>
    rw [if_pos rfl, hchars] at h
    rw [readKey, h]
    simp [e.key.readString_append, bind, Except.bind]
  | false =>
    rw [if_neg Bool.false_ne_true, List.cons_append, skipSpace_cons rfl] at h
    rw [readKey, h]
    simp [hchars, e.key.readString_append, bind, Except.bind]

theorem readColon_blank {ws : List Char} (h : Blank ws) (cs : List Char) :
    readColon (ws ++ ':' :: cs) = .ok cs := by
  rw [readColon, skipSpace_blank h, skipSpace_cons rfl]
  rfl

end

/-- Wherever the text is read as a value, it is read as that of the tree, up to space behind it. -/
def ReadsAs (t : Tree) (text : List Char) : Prop :=
  Opens (skipSpace text) ∧ ∀ {depth rest v behind}, NumberEnds rest →
    readValue depth (text ++ rest) = .ok (v, behind) →
    v = t.value ∧ skipSpace behind = skipSpace rest

section

variable {depth fuel : ℕ} {cs rest behind : List Char}

theorem readItems_joined {items : List (Tree × List Char)} (hitems : ∀ p ∈ items, ReadsAs p.1 p.2)
    {i : ℕ} {vs : List Json}
    (hcs : skipSpace cs = skipSpace (joined (i == 0) (items.map Prod.snd) ++ ']' :: rest))
    (h : readItems (readValue depth) fuel i cs = .ok (vs, behind)) :
    vs = items.map (fun p => p.1.value) ∧ behind = ']' :: rest := by
  -- On the items. Where one ends in the text is known up to space, which the next step skips.
  induction items generalizing fuel i cs vs with
  | nil =>
    rw [List.map_nil, joined_nil, List.nil_append, skipSpace_cons rfl] at hcs
    obtain ⟨n, -, ⟨rfl, hmore⟩ | ⟨v, _, _, _, -, hmore, -⟩⟩ := readItems_cases h
    · rw [moreItems_end hcs] at hmore
      cases hmore
      exact ⟨rfl, rfl⟩
    · rw [moreItems_end hcs] at hmore
      cases hmore
  | cons p items ih =>
    obtain ⟨⟨hopens, hread⟩, hlater⟩ := List.forall_mem_cons.mp hitems
    have hnext := moreItems_joined hopens hcs
    obtain ⟨n, -, ⟨rfl, hmore⟩ | ⟨v, cs', rest', vs, rfl, hmore, hv, hvs⟩⟩ := readItems_cases h
    · rw [hnext] at hmore
      cases hmore
    · rw [hnext] at hmore
      cases hmore
      rw [← skipSpace_append hopens, readValue_skipSpace] at hv
      obtain ⟨rfl, hrest⟩ := hread (numberEnds_joined _ (numberEnds_bracket rest)) hv
      have hi : (i + 1 == 0) = false := by simp
      rw [← hi] at hrest
      obtain ⟨rfl, rfl⟩ := ih hlater hrest hvs
      exact ⟨rfl, rfl⟩

theorem readEntries_joined {entries : List SpelledEntry}
    (hkeys : ∀ e ∈ entries, Blank e.before ∧ Blank e.between)
    (hentries : ∀ e ∈ entries, ReadsAs e.tree e.text) {first : Bool}
    {sorted sorted' : List (String × Json)}
    (hcs : skipSpace cs = skipSpace (joined first (entries.map SpelledEntry.chars) ++ '}' :: rest))
    (h : readEntries (valueEntry depth) fuel first sorted cs = .ok (sorted', behind)) :
    sorted' = entries.foldl (fun sorted e => insert e.key.name e.tree.value sorted) sorted ∧
      behind = '}' :: rest := by
  induction entries generalizing fuel first cs sorted with
  | nil =>
    rw [List.map_nil, joined_nil, List.nil_append, skipSpace_cons rfl] at hcs
    obtain ⟨n, -, ⟨rfl, hkey⟩ | ⟨k, _, _, _, hkey, -⟩⟩ := readEntries_cases h
    · rw [readKey_end hcs] at hkey
      cases hkey
      exact ⟨rfl, rfl⟩
    · rw [readKey_end hcs] at hkey
      cases hkey
  | cons e entries ih =>
    obtain ⟨⟨hbefore, hbetween⟩, hkeys⟩ := List.forall_mem_cons.mp hkeys
    obtain ⟨⟨hopens, hread⟩, hlater⟩ := List.forall_mem_cons.mp hentries
    have hnext := readKey_joined hbefore hcs
    obtain ⟨n, -, ⟨rfl, hkey⟩ | ⟨k, cs', sorted'', rest', hkey, hentry, hrest⟩⟩ :=
      readEntries_cases h
    · rw [hnext] at hkey
      cases hkey
    · rw [hnext] at hkey
      cases hkey
      obtain ⟨_, v, hcolon, hv, rfl⟩ := valueEntry_eq_ok hentry
      rw [readColon_blank hbetween] at hcolon
      cases hcolon
      obtain ⟨rfl, hbehind⟩ := hread (numberEnds_joined _ (numberEnds_brace rest)) hv
      exact ih hkeys hlater hbehind hrest

end

theorem Spells.readsAs {t : Tree} {text : List Char} (h : Spells t text) : ReadsAs t text := by
  refine ⟨h.opens, ?_⟩
  -- That the text is read at all is given, so neither the fuel nor the depth has to be counted.
  induction h with
  | atom a =>
    intro depth rest v behind hrest hread
    have hatom : readValue depth (a.text ++ rest) = .ok (a.value, rest) :=
      (a.readsScalar depth).read hrest
    rw [hatom] at hread
    cases hread
    exact ⟨rfl, rfl⟩
  | @array lead hlead items h ih =>
    intro depth rest v behind hrest hread
    obtain ⟨d, vs, close, rfl, rfl, hitems, hclose⟩ := readValue_array hread
    have hcs : skipSpace (lead ++ (separate (items.map Prod.snd) ++ [']']) ++ rest) =
        skipSpace (joined (0 == 0) (items.map Prod.snd) ++ ']' :: rest) := by
      rw [List.append_assoc, skipSpace_blank hlead, List.append_assoc]
      rfl
    obtain ⟨rfl, rfl⟩ := readItems_joined (fun p hp => ⟨(h p hp).opens, ih p hp⟩) hcs hitems
    cases hclose
    rw [Tree.value, Tree.values_eq, List.map_map]
    exact ⟨rfl, rfl⟩
  | @object lead hlead entries hkeys h ih =>
    intro depth rest v behind hrest hread
    obtain ⟨d, es, close, rfl, rfl, hentries, hclose⟩ := readValue_object hread
    have hcs : skipSpace (lead ++ (separate (entries.map SpelledEntry.chars) ++ ['}']) ++ rest) =
        skipSpace (joined true (entries.map SpelledEntry.chars) ++ '}' :: rest) := by
      rw [List.append_assoc, skipSpace_blank hlead, List.append_assoc]
      rfl
    obtain ⟨rfl, rfl⟩ :=
      readEntries_joined hkeys (fun e he => ⟨(h e he).opens, ih e he⟩) hcs hentries
    cases hclose
    rw [Tree.value, Tree.entryValues_eq, ofEntries, List.foldl_map, List.foldl_map]
    exact ⟨rfl, rfl⟩
  | @spaced t before text after hbefore hafter h ih =>
    intro depth rest v behind hrest hread
    rw [← readValue_skipSpace, List.append_assoc, skipSpace_blank hbefore, readValue_skipSpace,
      List.append_assoc] at hread
    obtain ⟨hv, hbehind⟩ := ih (hrest.blank hafter) hread
    exact ⟨hv, hbehind.trans (skipSpace_blank hafter rest)⟩

/-- A text that is read as a document is read as the value of its tree. -/
theorem Spells.ofText_eq {t : Tree} {text : String} (h : Spells t text.toList) {v : Json}
    (hread : ofText text = .ok v) : v = t.value := by
  obtain ⟨⟨v', behind⟩, hv, hend⟩ := Except.bind_eq_ok (Except.mapError_eq_ok hread)
  obtain ⟨-, -, hdone⟩ := Except.bind_eq_ok hend
  cases hdone
  rw [← List.append_nil text.toList] at hv
  exact (h.readsAs.2 .nil hv).1

end Screener.Json
