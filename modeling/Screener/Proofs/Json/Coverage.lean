import Screener.Proofs.Json.Spelling

namespace Screener.Json

section

variable {first : Bool} {cs behind : List Char}

theorem moreItems_cases {more : Bool} (h : moreItems first cs = .ok (more, behind)) :
    ∃ lead, Blank lead ∧
      ((more = false ∧ cs = lead ++ behind ∧ ∃ rest, behind = ']' :: rest) ∨
      (more = true ∧ ∃ ws, Blank ws ∧
        cs = lead ++ if first then ws ++ behind else ',' :: (ws ++ behind))) := by
  obtain ⟨lead, hlead, hcs⟩ := exists_blank cs
  refine ⟨lead, hlead, ?_⟩
  rw [moreItems] at h
  split at h
  case h_1 => cases h
  case h_2 rest hskip =>
    cases h
    rw [hskip] at hcs
    exact .inl ⟨rfl, hcs, rest, rfl⟩
  case h_3 rest hskip =>
    rw [hskip] at hcs
    split at h
    · rename_i hfirst
      cases h
      refine .inr ⟨rfl, [], blank_nil, ?_⟩
      rwa [if_pos hfirst, List.nil_append]
    · rename_i hfirst
      obtain ⟨ws, hws, hrest⟩ := exists_blank rest
      split at h
      · cases h
      · cases h
      · cases h
        refine .inr ⟨rfl, ws, hws, ?_⟩
        rwa [if_neg hfirst, ← hrest]
  case h_4 =>
    split at h
    · rename_i hfirst
      cases h
      refine .inr ⟨rfl, [], blank_nil, ?_⟩
      rwa [if_pos hfirst, List.nil_append]
    · cases h

theorem readKey_cases {name : Option String} (h : readKey first cs = .ok (name, behind)) :
    ∃ lead, Blank lead ∧
      ((name = none ∧ cs = lead ++ behind ∧ ∃ rest, behind = '}' :: rest) ∨
      ∃ k : Key, name = some k.name ∧ ∃ ws, Blank ws ∧
        cs = lead ++ if first then ws ++ '"' :: (k.text ++ behind)
          else ',' :: (ws ++ '"' :: (k.text ++ behind))) := by
  obtain ⟨lead, hlead, hcs⟩ := exists_blank cs
  refine ⟨lead, hlead, ?_⟩
  have hquoted : ∀ {cs' : List Char}, (readString cs' >>= fun p => .ok (some p.1, p.2)) =
      (Except.ok (name, behind) : Except Failure (Option String × List Char)) →
      ∃ k : Key, name = some k.name ∧ cs' = k.text ++ behind := by
    intro cs' h
    obtain ⟨⟨s, rest⟩, hs, hdone⟩ := Except.bind_eq_ok h
    cases hdone
    obtain ⟨used, rfl, hused⟩ := readString_eq hs
    have hread := hused []
    rw [List.append_nil] at hread
    exact ⟨⟨used, s, hread⟩, rfl, rfl⟩
  unfold readKey at h
  dsimp only at h
  split at h
  case h_1 => cases h
  case h_2 rest hskip =>
    cases h
    rw [hskip] at hcs
    exact .inl ⟨rfl, hcs, rest, rfl⟩
  case h_3 rest hskip =>
    rw [hskip] at hcs
    split at h
    · cases h
    · rename_i hfirst
      obtain ⟨ws, hws, hrest⟩ := exists_blank rest
      rw [hrest] at hcs
      split at h
      · cases h
      · rename_i hkey
        obtain ⟨k, hk, rfl⟩ := hquoted h
        refine .inr ⟨k, hk, ws, hws, ?_⟩
        rwa [if_neg hfirst, ← hkey]
      · cases h
      · cases h
  case h_4 =>
    split at h
    · rename_i hfirst
      split at h
      · cases h
      · rename_i hkey
        obtain ⟨k, hk, rfl⟩ := hquoted h
        refine .inr ⟨k, hk, [], blank_nil, ?_⟩
        rwa [if_pos hfirst, List.nil_append, ← hkey]
      · cases h
      · cases h
    · cases h

theorem readColon_cases (h : readColon cs = .ok behind) :
    ∃ ws, Blank ws ∧ cs = ws ++ ':' :: behind := by
  obtain ⟨ws, hws, hcs⟩ := exists_blank cs
  refine ⟨ws, hws, ?_⟩
  rw [readColon] at h
  split at h
  case h_2 hskip =>
    cases h
    rwa [hskip] at hcs
  all_goals cases h

end

/-- All that is read as a value with `depth` levels left is a text of a tree with that value. -/
def Covers (depth : ℕ) : Prop := ∀ {cs v rest}, readValue depth cs = .ok (v, rest) →
  ∃ t text, cs = text ++ rest ∧ Spells t text ∧ t.value = v

section

variable {depth fuel : ℕ} {cs behind : List Char}

theorem readItems_covered (hd : Covers depth) {i : ℕ} {vs : List Json}
    (h : readItems (readValue depth) fuel i cs = .ok (vs, behind)) :
    ∃ lead, ∃ items : List (Tree × List Char), Blank lead ∧ (∀ p ∈ items, Spells p.1 p.2) ∧
      vs = items.map (fun p => p.1.value) ∧ (∃ rest, behind = ']' :: rest) ∧
      cs = lead ++ (joined (i == 0) (items.map Prod.snd) ++ behind) := by
  induction fuel generalizing i cs vs with
  | zero => cases h
  | succ fuel ih =>
    obtain ⟨n, hn, ⟨rfl, hmore⟩ | ⟨v, cs', rest', vs, rfl, hmore, hv, hvs⟩⟩ := readItems_cases h
    · obtain ⟨lead, hlead, ⟨-, hcs, hclose⟩ | ⟨hmore, -⟩⟩ := moreItems_cases hmore
      · exact ⟨lead, [], hlead, fun _ => nofun, rfl, hclose, by rw [hcs]; simp [joined_nil]⟩
      · cases hmore
    · obtain ⟨lead, hlead, ⟨hmore, -⟩ | ⟨-, ws, hws, hcs⟩⟩ := moreItems_cases hmore
      · cases hmore
      obtain ⟨t, text, rfl, ht, rfl⟩ := hd hv
      cases hn
      obtain ⟨after, items, hafter, hitems, rfl, hclose, hrest⟩ := ih hvs
      have hi : (i + 1 == 0) = false := by simp
      rw [hi] at hrest
      -- The space behind the item, which the reader skips only in the next round, goes to it.
      refine ⟨lead, (t, ws ++ (text ++ after)) :: items, hlead, ?_, rfl, hclose, ?_⟩
      · exact List.forall_mem_cons.mpr ⟨.spaced hws hafter ht, hitems⟩
      · rw [hcs, hrest, List.map_cons, joined_cons]
        cases i == 0 <;> simp

theorem readEntries_covered (hd : Covers depth) {first : Bool}
    {sorted sorted' : List (String × Json)}
    (h : readEntries (valueEntry depth) fuel first sorted cs = .ok (sorted', behind)) :
    ∃ lead, ∃ entries : List SpelledEntry, Blank lead ∧
      (∀ e ∈ entries, Blank e.before ∧ Blank e.between) ∧
      (∀ e ∈ entries, Spells e.tree e.text) ∧
      sorted' = entries.foldl (fun sorted e => insert e.key.name e.tree.value sorted) sorted ∧
      (∃ rest, behind = '}' :: rest) ∧
      cs = lead ++ (joined first (entries.map SpelledEntry.chars) ++ behind) := by
  induction fuel generalizing first cs sorted with
  | zero => cases h
  | succ fuel ih =>
    obtain ⟨n, hn, ⟨rfl, hkey⟩ | ⟨k, cs', sorted'', rest', hkey, hentry, hrest⟩⟩ :=
      readEntries_cases h
    · obtain ⟨lead, hlead, ⟨-, hcs, hclose⟩ | ⟨k, hkey, -⟩⟩ := readKey_cases hkey
      · exact ⟨lead, [], hlead, fun _ => nofun, fun _ => nofun, rfl, hclose,
          by rw [hcs]; simp [joined_nil]⟩
      · cases hkey
    · obtain ⟨lead, hlead, ⟨hkey, -⟩ | ⟨key, hkey, ws, hws, hcs⟩⟩ := readKey_cases hkey
      · cases hkey
      obtain rfl := Option.some.inj hkey
      obtain ⟨behind', v, hcolon, hv, rfl⟩ := valueEntry_eq_ok hentry
      obtain ⟨between, hbetween, rfl⟩ := readColon_cases hcolon
      obtain ⟨t, text, rfl, ht, rfl⟩ := hd hv
      cases hn
      obtain ⟨after, entries, hafter, hkeys, hentries, rfl, hclose, hrest⟩ := ih hrest
      refine ⟨lead, ⟨ws, key, between, t, text ++ after⟩ :: entries, hlead, ?_, ?_, rfl, hclose, ?_⟩
      · exact List.forall_mem_cons.mpr ⟨⟨hws, hbetween⟩, hkeys⟩
      · exact List.forall_mem_cons.mpr ⟨.spaced blank_nil hafter ht, hentries⟩
      · rw [hcs, hrest, List.map_cons, joined_cons]
        cases first <;> simp [SpelledEntry.chars]

end

def ReadsScalar.atom {text : List Char} {v : Json} (h : ReadsScalar text v) : Atom where
  text := text
  value := v
  starts := by
    have hskip := (h 0).opens.skipSpace []
    rwa [List.append_nil] at hskip
  read := by
    have hread : readValue 0 (text ++ []) = .ok (v, []) := (h 0).read .nil
    rwa [List.append_nil] at hread

theorem Covers.next {depth : ℕ} (hd : ∀ d, depth = d + 1 → Covers d) : Covers depth := by
  intro cs v rest h
  obtain ⟨ws, hws, hcs⟩ := exists_blank cs
  obtain ⟨text, htext, hread⟩ | ⟨body, hbody, hread⟩ | ⟨body, hbody, hread⟩ := readValue_parts h
  · refine ⟨.atom hread.atom, ws ++ (text ++ []), ?_, .spaced hws blank_nil (.atom hread.atom), rfl⟩
    rw [hcs, htext]
    simp
  · obtain ⟨d, items, behind, rfl, rfl, hitems, hclose⟩ := readValue_array hread
    obtain ⟨lead, items, hlead, hspells, rfl, ⟨after, rfl⟩, rfl⟩ :=
      readItems_covered (hd d rfl) hitems
    obtain rfl := Except.ok.inj hclose
    refine ⟨_, _, ?_, .spaced hws blank_nil (.array hlead items hspells), ?_⟩
    · rw [hcs, hbody]
      simp [joined]
    · rw [Tree.value, Tree.values_eq, List.map_map]
      rfl
  · obtain ⟨d, entries, behind, rfl, rfl, hentries, hclose⟩ := readValue_object hread
    obtain ⟨lead, entries, hlead, hkeys, hspells, rfl, ⟨after, rfl⟩, rfl⟩ :=
      readEntries_covered (hd d rfl) hentries
    obtain rfl := Except.ok.inj hclose
    refine ⟨_, _, ?_, .spaced hws blank_nil (.object hlead entries hkeys hspells), ?_⟩
    · rw [hcs, hbody]
      simp [joined]
    · rw [Tree.value, Tree.entryValues_eq, ofEntries, List.foldl_map, List.foldl_map]

/-- Whatever is read is a text of a tree, and is read as the value of that tree. -/
theorem covers (depth : ℕ) : Covers depth := by
  -- On the levels that are left: items and entries are read with one less.
  induction depth with
  | zero => exact Covers.next fun d hd => absurd hd.symm (Nat.succ_ne_zero d)
  | succ depth ih => exact Covers.next fun d hd => Nat.succ.inj hd ▸ ih

theorem exists_spells {text : String} {v : Json} (h : ofText text = .ok v) :
    ∃ t, Spells t text.toList ∧ t.value = v := by
  obtain ⟨⟨v', behind⟩, hv, hend⟩ := Except.bind_eq_ok (Except.mapError_eq_ok h)
  obtain ⟨_, hspace, hdone⟩ := Except.bind_eq_ok hend
  cases hdone
  obtain ⟨t, used, hused, ht, rfl⟩ := covers depthLimit hv
  have hbehind : Blank behind := by
    obtain ⟨ws, hws, hbehind⟩ := exists_blank behind
    unfold readEnd at hspace
    split at hspace
    · rename_i hnil
      rw [hnil, List.append_nil] at hbehind
      rwa [hbehind]
    · cases hspace
  refine ⟨t, ?_, rfl⟩
  rw [hused, ← List.nil_append (used ++ behind)]
  exact .spaced blank_nil hbehind ht

end Screener.Json
