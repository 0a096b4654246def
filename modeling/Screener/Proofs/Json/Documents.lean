import Screener.Proofs.Json.Reading

namespace Screener

theorem Except.bind_eq_ok {ε α β : Type} {x : Except ε α} {f : α → Except ε β} {b : β}
    (h : (x >>= f) = .ok b) : ∃ a, x = .ok a ∧ f a = .ok b := by
  cases x with
  | error e => cases h
  | ok a => exact ⟨a, rfl, h⟩

theorem Except.mapError_eq_ok {ε ε' α : Type} {x : Except ε α} {f : ε → ε'} {a : α}
    (h : x.mapError f = .ok a) : x = .ok a := by
  cases x with
  | error e => cases h
  | ok b => exact congrArg Except.ok (Except.ok.inj h)

namespace Json

def Sorted (entries : List (String × Json)) : Prop := entries.Pairwise fun a b => a.1 < b.1

instance (entries : List (String × Json)) : Decidable (Sorted entries) := by
  unfold Sorted
  infer_instance

/-- A value that a document can hold. -/
inductive WellFormed : Json → Prop
  | null : WellFormed null
  | bool (b : Bool) : WellFormed (bool b)
  | int {n : ℤ} (h : IsWhole n) : WellFormed (int n)
  | float (x : Double) : WellFormed (float x)
  | string (s : String) : WellFormed (string s)
  | array {items : List Json} (h : ∀ v ∈ items, WellFormed v) : WellFormed (array items)
  | object {entries : List (String × Json)} (hs : Sorted entries)
      (h : ∀ e ∈ entries, WellFormed e.2) : WellFormed (object entries)

theorem depth_le_of_mem {items : List Json} {v : Json} (h : v ∈ items) :
    v.depth ≤ depthOfItems items := by
  induction items with
  | nil => cases h
  | cons w items ih =>
    rw [depthOfItems]
    rcases List.mem_cons.mp h with rfl | h
    · exact le_max_left _ _
    · exact (ih h).trans (le_max_right _ _)

theorem depth_le_of_mem_entries {entries : List (String × Json)} {e : String × Json}
    (h : e ∈ entries) : e.2.depth ≤ depthOfEntries entries := by
  induction entries with
  | nil => cases h
  | cons w entries ih =>
    obtain ⟨k, v⟩ := w
    rw [depthOfEntries]
    rcases List.mem_cons.mp h with rfl | h
    · exact le_max_left _ _
    · exact (ih h).trans (le_max_right _ _)

theorem depthOfItems_le {items : List Json} {n : ℕ} (h : ∀ v ∈ items, v.depth ≤ n) :
    depthOfItems items ≤ n := by
  induction items with
  | nil => exact Nat.zero_le n
  | cons v items ih =>
    exact max_le (h v List.mem_cons_self) (ih fun w hw => h w (List.mem_cons_of_mem _ hw))

theorem depthOfEntries_le {entries : List (String × Json)} {n : ℕ}
    (h : ∀ e ∈ entries, e.2.depth ≤ n) : depthOfEntries entries ≤ n := by
  induction entries with
  | nil => exact Nat.zero_le n
  | cons e entries ih =>
    exact max_le (h e List.mem_cons_self) (ih fun w hw => h w (List.mem_cons_of_mem _ hw))

theorem insert_last {k : String} {v : Json} {sorted : List (String × Json)}
    (h : ∀ e ∈ sorted, e.1 < k) : insert k v sorted = sorted ++ [(k, v)] := by
  induction sorted with
  | nil => rfl
  | cons e sorted ih =>
    obtain ⟨k', v'⟩ := e
    have hlt : k' < k := h _ List.mem_cons_self
    rw [insert, if_neg (String.lt_asymm hlt), if_neg (String.ne_of_lt hlt).symm,
      ih fun w hw => h w (List.mem_cons_of_mem _ hw), List.cons_append]

theorem foldl_insert {sorted entries : List (String × Json)} (h : Sorted (sorted ++ entries)) :
    entries.foldl (fun sorted (k, v) => insert k v sorted) sorted = sorted ++ entries := by
  induction entries generalizing sorted with
  | nil => rw [List.foldl_nil, List.append_nil]
  | cons e entries ih =>
    obtain ⟨-, -, hlt⟩ := List.pairwise_append.mp h
    have hlast : insert e.1 e.2 sorted = sorted ++ [e] :=
      insert_last fun w hw => hlt w hw e List.mem_cons_self
    have hassoc : sorted ++ e :: entries = sorted ++ [e] ++ entries := by simp
    rw [hassoc] at h ⊢
    rw [List.foldl_cons]
    show entries.foldl _ (insert e.1 e.2 sorted) = _
    rw [hlast]
    exact ih h

theorem ofEntries_of_sorted {entries : List (String × Json)} (h : Sorted entries) :
    ofEntries entries = object entries := by
  have hfold := @foldl_insert [] entries h
  rw [ofEntries, hfold, List.nil_append]

theorem writeItems_eq (items : List Json) : writeItems items = items.map write := by
  induction items with
  | nil => rfl
  | cons v items ih => rw [writeItems, ih, List.map_cons]

theorem writeEntries_eq (entries : List (String × Json)) :
    writeEntries entries = (entries.map fun e => (e.1, e.2.write)).map entryText := by
  induction entries with
  | nil => rfl
  | cons e entries ih =>
    obtain ⟨k, v⟩ := e
    rw [writeEntries, ih]
    rfl

/-- A value is read back from its canonical text, whatever follows it. -/
theorem readsBack_any {v : Json} (hv : v.WellFormed) {depth : ℕ} (hd : v.depth ≤ depth) :
    Codec.any.ReadsBack depth v := by
  -- Down the value; each array and each object takes one of the levels that are left.
  show Codec.any.Reads depth v.write v
  induction hv generalizing depth with
  | null => exact reads_null depth
  | bool b => exact reads_bool b depth
  | int h => exact reads_int h depth
  | float x => exact reads_float x depth
  | string s => exact reads_string s depth
  | @array items _ ih =>
    rw [Json.depth] at hd
    obtain ⟨depth, rfl⟩ : ∃ n, depth = n + 1 := ⟨depth - 1, by omega⟩
    rw [write, writeItems_eq]
    refine reads_array ?_
    rw [List.forall₂_map_left_iff, List.forall₂_same]
    exact fun v hv => ih v hv ((depth_le_of_mem hv).trans (Nat.le_of_succ_le_succ hd))
  | @object entries hs _ ih =>
    rw [Json.depth] at hd
    obtain ⟨depth, rfl⟩ : ∃ n, depth = n + 1 := ⟨depth - 1, by omega⟩
    rw [write, writeEntries_eq, ← ofEntries_of_sorted hs]
    refine reads_object ?_
    rw [List.forall₂_map_left_iff, List.forall₂_same]
    exact fun e he =>
      ⟨rfl, ih e he ((depth_le_of_mem_entries he).trans (Nat.le_of_succ_le_succ hd))⟩

theorem Codec.Reads.ofChars {text : List Char} {v : Json} (h : Codec.any.Reads depthLimit text v) :
    ofChars text = .ok v := by
  have hread : readValue depthLimit (text ++ []) = .ok (v, []) := h.read .nil
  rw [List.append_nil] at hread
  simp only [Json.ofChars, hread, bind, Except.bind]
  rfl

theorem Codec.ReadsBack.readText {α : Type} {c : Codec α} {a : α}
    (h : c.ReadsBack depthLimit a) : c.readText (c.toText a) = .ok a := by
  have hread : c.read depthLimit (c.write a ++ []) = .ok (a, []) := h.read .nil
  rw [List.append_nil] at hread
  simp only [Codec.readText, Codec.toText, String.toList_ofList, hread, bind, Except.bind]
  rfl

theorem Codec.ReadsBack.write_inj {α : Type} {c : Codec α} {depth : ℕ} {a b : α}
    (ha : c.ReadsBack depth a) (hb : c.ReadsBack depth b) (h : c.write a = c.write b) : a = b := by
  have hread : c.read depth (c.write a ++ []) = .ok (a, []) := ha.read .nil
  have hother : c.read depth (c.write b ++ []) = .ok (b, []) := hb.read .nil
  rw [h, hother] at hread
  cases hread
  rfl

def IsNumber (v : Json) : Prop := (∃ x, v = float x) ∨ ∃ n, IsWhole n ∧ v = int n

theorem roundNumber_isNumber {negative : Bool} {ds cs rest : List Char} {k : ℤ} {v : Json}
    (h : roundNumber negative ds k cs = .ok (v, rest)) : v.IsNumber := by
  unfold roundNumber at h
  split at h
  · cases h
    exact .inl ⟨_, rfl⟩
  · cases h

theorem readExponent_isNumber {negative : Bool} {ds cs rest : List Char} {k : ℤ} {v : Json}
    (h : readExponent negative ds k cs = .ok (v, rest)) : v.IsNumber := by
  simp only [readExponent] at h
  split at h
  · cases h
  · split_ifs at h
    all_goals exact roundNumber_isNumber h

theorem readNumber_isNumber {negative : Bool} {cs rest : List Char} {v : Json}
    (h : readNumber negative cs = .ok (v, rest)) : v.IsNumber := by
  rw [readNumber] at h
  obtain ⟨⟨whole, cs⟩, -, h⟩ := Except.bind_eq_ok h
  dsimp only at h
  split at h
  · obtain ⟨⟨fraction, cs⟩, -, h⟩ := Except.bind_eq_ok h
    dsimp only at h
    split at h
    · exact readExponent_isNumber h
    · exact readExponent_isNumber h
    · exact roundNumber_isNumber h
  · exact readExponent_isNumber h
  · exact readExponent_isNumber h
  · generalize (if negative then _ else _ : ℤ) = value at h
    split at h
    · rename_i hwhole
      cases h
      exact .inr ⟨value, hwhole.1, rfl⟩
    · exact roundNumber_isNumber h

theorem readItems_cases {α : Type} {item : List Char → Except Failure (α × List Char)}
    {fuel i : ℕ} {cs behind : List Char} {as : List α}
    (h : readItems item fuel i cs = .ok (as, behind)) :
    ∃ n, fuel = n + 1 ∧ ((as = [] ∧ moreItems (i == 0) cs = .ok (false, behind)) ∨
      ∃ a cs' rest' tail, as = a :: tail ∧ moreItems (i == 0) cs = .ok (true, cs') ∧
        item cs' = .ok (a, rest') ∧ readItems item n (i + 1) rest' = .ok (tail, behind)) := by
  cases fuel with
  | zero => cases h
  | succ n =>
    refine ⟨n, rfl, ?_⟩
    rw [readItems] at h
    obtain ⟨⟨more, cs'⟩, hmore, hitem⟩ := Except.bind_eq_ok h
    cases more with
    | false =>
      cases hitem
      exact .inl ⟨rfl, Except.mapError_eq_ok hmore⟩
    | true =>
      obtain ⟨⟨a, rest'⟩, ha, hrest⟩ := Except.bind_eq_ok hitem
      obtain ⟨⟨tail, _⟩, htail, hdone⟩ := Except.bind_eq_ok hrest
      cases hdone
      exact .inr ⟨a, cs', rest', tail, rfl, Except.mapError_eq_ok hmore, Except.mapError_eq_ok ha,
        htail⟩

theorem readEntries_cases {σ : Type}
    {entry : String → σ → List Char → Except Failure (σ × List Char)} {fuel : ℕ} {first : Bool}
    {s s' : σ} {cs behind : List Char}
    (h : readEntries entry fuel first s cs = .ok (s', behind)) :
    ∃ n, fuel = n + 1 ∧ ((s' = s ∧ readKey first cs = .ok (none, behind)) ∨
      ∃ k cs' s'' rest', readKey first cs = .ok (some k, cs') ∧ entry k s cs' = .ok (s'', rest') ∧
        readEntries entry n false s'' rest' = .ok (s', behind)) := by
  cases fuel with
  | zero => cases h
  | succ n =>
    refine ⟨n, rfl, ?_⟩
    rw [readEntries] at h
    obtain ⟨⟨key, cs'⟩, hkey, hentry⟩ := Except.bind_eq_ok h
    cases key with
    | none =>
      cases hentry
      exact .inl ⟨rfl, hkey⟩
    | some k =>
      obtain ⟨⟨s'', rest'⟩, hk, hrest⟩ := Except.bind_eq_ok hentry
      exact .inr ⟨k, cs', s'', rest', hkey, hk, hrest⟩

theorem valueEntry_eq_ok {depth : ℕ} {cs rest : List Char} {k : String}
    {sorted sorted' : List (String × Json)}
    (h : valueEntry depth k sorted cs = .ok (sorted', rest)) :
    ∃ cs' v, readColon cs = .ok cs' ∧ readValue depth cs' = .ok (v, rest) ∧
      sorted' = insert k v sorted := by
  obtain ⟨⟨v, _⟩, hv, hdone⟩ := Except.bind_eq_ok h
  obtain ⟨cs', hcolon, hread⟩ := Except.bind_eq_ok (Except.mapError_eq_ok hv)
  cases hdone
  exact ⟨cs', v, hcolon, hread, rfl⟩

/-- What `P` holds of all that an item reader gives, it holds of every item. -/
theorem readItems_forall {α : Type} {P : α → Prop}
    {item : List Char → Except Failure (α × List Char)}
    (hitem : ∀ {cs a rest}, item cs = .ok (a, rest) → P a) {fuel i : ℕ} {cs rest : List Char}
    {as : List α} (h : readItems item fuel i cs = .ok (as, rest)) : ∀ a ∈ as, P a := by
  induction fuel generalizing i cs as with
  | zero => cases h
  | succ fuel ih =>
    obtain ⟨n, hn, ⟨rfl, -⟩ | ⟨a, _, _, tail, rfl, -, ha, htail⟩⟩ := readItems_cases h
    · exact fun _ hmem => absurd hmem List.not_mem_nil
    · cases hn
      exact List.forall_mem_cons.mpr ⟨hitem ha, ih htail⟩

theorem readEntries_preserves {σ : Type} {P : σ → Prop}
    {entry : String → σ → List Char → Except Failure (σ × List Char)}
    (hentry : ∀ {k s cs s' rest}, entry k s cs = .ok (s', rest) → P s → P s') {fuel : ℕ}
    {first : Bool} {s s' : σ} {cs rest : List Char}
    (h : readEntries entry fuel first s cs = .ok (s', rest)) (hs : P s) : P s' := by
  induction fuel generalizing first s cs with
  | zero => cases h
  | succ fuel ih =>
    obtain ⟨n, hn, ⟨rfl, -⟩ | ⟨k, _, s'', _, -, hk, hrest⟩⟩ := readEntries_cases h
    · exact hs
    · cases hn
      exact ih hrest (hentry hk hs)

theorem mem_insert {k : String} {v : Json} {sorted : List (String × Json)} {e : String × Json}
    (h : e ∈ insert k v sorted) : e = (k, v) ∨ e ∈ sorted := by
  fun_induction insert k v sorted with
  | case1 => exact .inl (List.mem_singleton.mp h)
  | case2 => exact List.mem_cons.mp h
  | case3 => exact (List.mem_cons.mp h).imp_right (List.mem_cons_of_mem _)
  | case4 k' v' rest hlt hne ih =>
    rcases List.mem_cons.mp h with rfl | h
    · exact .inr List.mem_cons_self
    · exact (ih h).imp_right (List.mem_cons_of_mem _)

theorem Sorted.insert {sorted : List (String × Json)} (h : Sorted sorted) (k : String) (v : Json) :
    Sorted (Json.insert k v sorted) := by
  fun_induction Json.insert k v sorted with
  | case1 => exact List.pairwise_singleton _ _
  | case2 k' v' rest hlt =>
    refine List.pairwise_cons.mpr ⟨fun e he => ?_, h⟩
    rcases List.mem_cons.mp he with rfl | he
    · exact hlt
    · exact String.lt_trans hlt ((List.pairwise_cons.mp h).1 e he)
  | case3 v' rest _ => exact List.pairwise_cons.mpr (List.pairwise_cons.mp h)
  | case4 k' v' rest hlt hne ih =>
    obtain ⟨hfirst, hrest⟩ := List.pairwise_cons.mp h
    refine List.pairwise_cons.mpr ⟨fun e he => ?_, ih hrest⟩
    rcases mem_insert he with rfl | he
    · exact Std.lt_of_le_of_ne (String.not_lt.mp hlt) (Ne.symm hne)
    · exact hfirst e he

theorem IsNumber.wellFormed {v : Json} (h : v.IsNumber) : v.WellFormed ∧ v.depth = 0 := by
  obtain ⟨x, rfl⟩ | ⟨n, hn, rfl⟩ := h
  · exact ⟨.float x, rfl⟩
  · exact ⟨.int hn, rfl⟩

/-- What a value can be read as: arrays and objects take one of the levels that are left. -/
theorem readValue_cases {depth : ℕ} {cs rest : List Char} {v : Json}
    (h : readValue depth cs = .ok (v, rest)) :
    (v.WellFormed ∧ v.depth = 0) ∨
    (∃ d fuel cs items rest, depth = d + 1 ∧ v = array items ∧
      readItems (readValue d) fuel 0 cs = .ok (items, rest)) ∨
    ∃ d fuel cs entries rest, depth = d + 1 ∧ v = object entries ∧
      readEntries (valueEntry d) fuel true [] cs = .ok (entries, rest) := by
  rw [readValue] at h
  split at h
  case h_1 => cases h
  case h_2 =>
    obtain ⟨_, -, h⟩ := Except.bind_eq_ok h
    cases h
    exact .inl ⟨.null, rfl⟩
  case h_3 =>
    obtain ⟨_, -, h⟩ := Except.bind_eq_ok h
    cases h
    exact .inl ⟨.bool true, rfl⟩
  case h_4 =>
    obtain ⟨_, -, h⟩ := Except.bind_eq_ok h
    cases h
    exact .inl ⟨.bool false, rfl⟩
  case h_5 => exact .inl (readNumber_isNumber h).wellFormed
  case h_6 =>
    obtain ⟨⟨s, _⟩, -, h⟩ := Except.bind_eq_ok h
    cases h
    exact .inl ⟨.string s, rfl⟩
  case h_7 =>
    cases depth with
    | zero => cases h
    | succ d =>
      obtain ⟨⟨items, _⟩, hitems, h⟩ := Except.bind_eq_ok h
      obtain ⟨_, -, h⟩ := Except.bind_eq_ok h
      cases h
      exact .inr (.inl ⟨d, _, _, items, _, rfl, rfl, hitems⟩)
  case h_8 =>
    cases depth with
    | zero => cases h
    | succ d =>
      obtain ⟨⟨entries, _⟩, hentries, h⟩ := Except.bind_eq_ok h
      obtain ⟨_, -, h⟩ := Except.bind_eq_ok h
      cases h
      exact .inr (.inr ⟨d, _, _, entries, _, rfl, rfl, hentries⟩)
  case h_9 =>
    split at h
    · exact .inl (readNumber_isNumber h).wellFormed
    · cases h

/-- What is read is well formed and nested no deeper than the reader was allowed to go. -/
theorem readValue_sound {depth : ℕ} {cs rest : List Char} {v : Json}
    (h : readValue depth cs = .ok (v, rest)) : v.WellFormed ∧ v.depth ≤ depth := by
  -- On the levels that are left: items and entries are read with one less.
  induction depth generalizing cs rest v with
  | zero =>
    obtain ⟨hv, hd⟩ | ⟨d, _, _, _, _, hd, -⟩ | ⟨d, _, _, _, _, hd, -⟩ := readValue_cases h
    · exact ⟨hv, hd.le⟩
    · cases hd
    · cases hd
  | succ depth ih =>
    obtain ⟨hv, hd⟩ | ⟨d, _, _, items, _, hd, rfl, hitems⟩ |
      ⟨d, _, _, entries, _, hd, rfl, hentries⟩ := readValue_cases h
    · exact ⟨hv, by omega⟩
    · cases hd
      have hall : ∀ v ∈ items, v.WellFormed ∧ v.depth ≤ depth := readItems_forall ih hitems
      exact ⟨.array fun v hv => (hall v hv).1,
        Nat.succ_le_succ (depthOfItems_le fun v hv => (hall v hv).2)⟩
    · cases hd
      have hall : Sorted entries ∧ ∀ e ∈ entries, e.2.WellFormed ∧ e.2.depth ≤ depth := by
        refine readEntries_preserves (P := fun es => Sorted es ∧
          ∀ e ∈ es, e.2.WellFormed ∧ e.2.depth ≤ depth) ?_ hentries ⟨.nil, fun _ => nofun⟩
        intro k es cs es' rest hentry ⟨hs, hes⟩
        obtain ⟨_, v, -, hv, rfl⟩ := valueEntry_eq_ok hentry
        refine ⟨hs.insert k v, fun e he => ?_⟩
        rcases mem_insert he with rfl | he
        · exact ih hv
        · exact hes e he
      exact ⟨.object hall.1 fun e he => (hall.2 e he).1,
        Nat.succ_le_succ (depthOfEntries_le fun e he => (hall.2 e he).2)⟩

theorem ofText_sound {text : String} {v : Json} (h : ofText text = .ok v) :
    v.WellFormed ∧ v.depth ≤ depthLimit := by
  obtain ⟨⟨v', rest⟩, hread, h⟩ := Except.bind_eq_ok (Except.mapError_eq_ok h)
  obtain ⟨-, -, h⟩ := Except.bind_eq_ok h
  cases h
  exact readValue_sound hread

end Json

end Screener
