import Screener.Proofs.Sql.Matching

namespace Screener.Sql

/-- A text that a pattern stands for: `%` is any run of characters and `_` any one, a character
behind the escape is itself, and so is any other that is no mark. Characters are told apart as
`lower` has them. -/
inductive Matches (lower : Char → Char) : List Char → List Char → Prop
  | nil : Matches lower [] []
  | run {pattern text : List Char} (skipped : List Char) (h : Matches lower pattern text) :
      Matches lower ('%' :: pattern) (skipped ++ text)
  | any {pattern text : List Char} (d : Char) (h : Matches lower pattern text) :
      Matches lower ('_' :: pattern) (d :: text)
  | escaped {pattern text : List Char} {c d : Char} (hd : lower c = lower d)
      (h : Matches lower pattern text) :
      Matches lower (likeEscape :: c :: pattern) (d :: text)
  | plain {pattern text : List Char} {c d : Char} (hc : c ∉ marks) (hd : lower c = lower d)
      (h : Matches lower pattern text) : Matches lower (c :: pattern) (d :: text)

namespace Matches

variable {lower : Char → Char} {pattern text : List Char}

theorem nil_iff : Matches lower [] text ↔ text = [] := by
  constructor
  · intro h
    cases h
    rfl
  · rintro rfl
    exact .nil

theorem run_iff : Matches lower ('%' :: pattern) text ↔
    ∃ t, t <:+ text ∧ Matches lower pattern t := by
  constructor
  · intro h
    cases h with
    | run skipped h => exact ⟨_, List.suffix_append _ _, h⟩
    | plain hc => exact absurd (by simp [marks]) hc
  · rintro ⟨t, ⟨skipped, rfl⟩, h⟩
    exact .run skipped h

theorem escaped_iff {c : Char} : Matches lower (likeEscape :: c :: pattern) text ↔
    ∃ d t, text = d :: t ∧ lower c = lower d ∧ Matches lower pattern t := by
  constructor
  · intro h
    cases h with
    | escaped hd h => exact ⟨_, _, rfl, hd, h⟩
    | plain hc => exact absurd (by simp [marks]) hc
  · rintro ⟨d, t, rfl, hd, h⟩
    exact .escaped hd h

theorem not_escape : ¬Matches lower [likeEscape] text := by
  intro h
  cases h with
  | plain hc => exact absurd (by simp [marks]) hc

theorem single_iff {c : Char} (hrun : c ≠ '%') (hescape : c ≠ likeEscape) :
    Matches lower (c :: pattern) text ↔
      ∃ d t, text = d :: t ∧ (c = '_' ∨ lower c = lower d) ∧ Matches lower pattern t := by
  constructor
  · intro h
    cases h with
    | run => exact absurd rfl hrun
    | any d h => exact ⟨d, _, rfl, .inl rfl, h⟩
    | escaped => exact absurd rfl hescape
    | plain _ hd h => exact ⟨_, _, rfl, .inr hd, h⟩
  · rintro ⟨d, t, rfl, rfl | hd, h⟩
    · exact .any d h
    · by_cases hany : c = '_'
      · subst hany
        exact .any d h
      · exact .plain (by simp [mem_marks, hrun, hany, hescape]) hd h

end Matches

section

variable {lower : Char → Char} (h : KeepsMarks lower) {pattern : List Char}
include h

/-- The matcher keeps to the rules if it does behind the first character, which is no escape. -/
theorem like_map_cons {c : Char} (hc : c ≠ likeEscape)
    (ih : ∀ text : List Char,
      like likeEscape (pattern.map lower) (text.map lower) = true ↔ Matches lower pattern text)
    (text : List Char) :
    like likeEscape ((c :: pattern).map lower) (text.map lower) = true ↔
      Matches lower (c :: pattern) text := by
  rw [List.map_cons]
  by_cases hrun : c = '%'
  · subst hrun
    have hmark : lower '%' = '%' := h.apply_mark (by simp [marks])
    rw [hmark, like_run, Matches.run_iff]
    simp only [List.suffix_map_iff, ← ih]
    constructor
    · rintro ⟨_, ⟨t, ht, rfl⟩, hl⟩
      exact ⟨t, ht, hl⟩
    · rintro ⟨t, ht, hl⟩
      exact ⟨_, ⟨t, ht, rfl⟩, hl⟩
  · have hother : ∀ d ∈ marks, lower c = d ↔ c = d := fun d hd => h d hd c
    rw [like_single (mt (hother _ (by simp [marks])).mp hrun)
        (mt (hother _ (by simp [marks])).mp hc), Matches.single_iff hrun hc,
      hother '_' (by simp [marks])]
    simp only [List.map_eq_cons_iff, ← ih]
    constructor
    · rintro ⟨_, _, ⟨d, t, rfl, rfl, rfl⟩, hd, hl⟩
      exact ⟨d, t, rfl, hd, hl⟩
    · rintro ⟨d, t, rfl, hd, hl⟩
      exact ⟨_, _, ⟨d, t, rfl, rfl, rfl⟩, hd, hl⟩

theorem like_map_escaped {c : Char}
    (ih : ∀ text : List Char,
      like likeEscape (pattern.map lower) (text.map lower) = true ↔ Matches lower pattern text)
    (text : List Char) :
    like likeEscape ((likeEscape :: c :: pattern).map lower) (text.map lower) = true ↔
      Matches lower (likeEscape :: c :: pattern) text := by
  have hescape : lower likeEscape = likeEscape := h.apply_mark (by simp [marks])
  rw [List.map_cons, List.map_cons, hescape, like_escaped, Matches.escaped_iff]
  simp only [List.map_eq_cons_iff, ← ih]
  constructor
  · rintro ⟨_, ⟨d, t, rfl, hd, rfl⟩, hl⟩
    exact ⟨d, t, rfl, hd.symm, hl⟩
  · rintro ⟨d, t, rfl, hd, hl⟩
    exact ⟨_, ⟨d, t, rfl, hd.symm, rfl⟩, hl⟩

theorem like_map_iff (pattern text : List Char) :
    like likeEscape (pattern.map lower) (text.map lower) = true ↔ Matches lower pattern text := by
  have hnil : ∀ text : List Char,
      like likeEscape ([].map lower) (text.map lower) = true ↔ Matches lower [] text := by
    intro text
    simp [like, Matches.nil_iff]
  -- On the pattern, two characters of which go at once where the first is the escape.
  induction pattern using List.twoStepInduction generalizing text with
  | nil => exact hnil text
  | singleton c =>
    by_cases hc : c = likeEscape
    · subst hc
      have hescape : lower likeEscape = likeEscape := h.apply_mark (by simp [marks])
      simp [like, hescape, Matches.not_escape]
    · exact like_map_cons h hc hnil text
  | cons_cons c d pattern ih ih' =>
    by_cases hc : c = likeEscape
    · subst hc
      exact like_map_escaped h ih text
    · exact like_map_cons h hc (ih' d) text

end

/-- The pattern for a text stands for just the texts that contain it, and the matcher finds them.
With letters of any case, whatever lower-casing leaves the marks alone, they are those whose
lower-case form contains that of the text. -/
theorem matches_containsPattern (needle text : String) :
    (Matches id (containsPattern needle).toList text.toList ↔ needle.toList <:+: text.toList) ∧
    (like likeEscape (containsPattern needle).toList text.toList = true ↔
      needle.toList <:+: text.toList) ∧
    ∀ lower : Char → Char, KeepsMarks lower →
      (Matches lower (containsPattern needle).toList text.toList ↔
        needle.toList.map lower <:+: text.toList.map lower) ∧
      (like likeEscape ((containsPattern needle).toList.map lower) (text.toList.map lower) = true ↔
        needle.toList.map lower <:+: text.toList.map lower) := by
  have hmatch : ∀ lower : Char → Char, KeepsMarks lower →
      (Matches lower (containsPattern needle).toList text.toList ↔
        needle.toList.map lower <:+: text.toList.map lower) := by
    intro lower h
    rw [← like_map_iff h, like_map_containsPattern h]
  have hlike := like_map_containsPattern keepsMarks_id needle text.toList
  have hplain := hmatch id keepsMarks_id
  rw [List.map_id, List.map_id] at hlike hplain
  exact ⟨hplain, hlike, fun lower h => ⟨hmatch lower h, like_map_containsPattern h needle _⟩⟩

theorem matches_containsPattern_marks :
    KeepsMarks Text.lowerChar ∧
    Matches Text.lowerChar (containsPattern "%\\_É").toList "A%\\_éB".toList ∧
    ilike likeEscape (containsPattern "%\\_É").toList "A%\\_éB".toList = true ∧
    ¬Matches id (containsPattern "%\\_É").toList "A%\\_éB".toList := by
  have hkeeps := Text.keepsMarks_lowerChar
  obtain ⟨hplain, -, hlower⟩ := matches_containsPattern "%\\_É" "A%\\_éB"
  have hinfix : "%\\_É".toList.map Text.lowerChar <:+: "A%\\_éB".toList.map Text.lowerChar := by
    decide +kernel
  exact ⟨hkeeps, (hlower _ hkeeps).1.mpr hinfix, (hlower _ hkeeps).2.mpr hinfix,
    mt hplain.mp (by decide)⟩

end Screener.Sql
