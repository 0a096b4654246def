import Mathlib.Tactic
import Screener.Condition
import Screener.Sql.Pattern

namespace Screener

def marks : List Char := ['%', '_', likeEscape]

/-- The marks stay what they are, and nothing else becomes one. -/
def KeepsMarks (lower : Char → Char) : Prop := ∀ d ∈ marks, ∀ c, lower c = d ↔ c = d

theorem mem_marks {c : Char} : c ∈ marks ↔ c = '%' ∨ c = '_' ∨ c = likeEscape := by simp [marks]

namespace KeepsMarks

variable {lower : Char → Char} (h : KeepsMarks lower)
include h

theorem apply_mark {c : Char} (hc : c ∈ marks) : lower c = c := (h c hc c).mpr rfl

theorem mem_iff {c : Char} : lower c ∈ marks ↔ c ∈ marks := by
  constructor
  · intro hc
    rwa [(h _ hc c).mp rfl]
  · intro hc
    rwa [h.apply_mark hc]

end KeepsMarks

theorem keepsMarks_id : KeepsMarks id := fun _ _ _ => Iff.rfl

theorem escapePattern_cons_of_mem {c : Char} (hc : c ∈ marks) (cs : List Char) :
    escapePattern (c :: cs) = likeEscape :: c :: escapePattern cs := by
  rw [mem_marks] at hc
  simp [escapePattern, hc]

theorem escapePattern_cons_of_not_mem {c : Char} (hc : c ∉ marks) (cs : List Char) :
    escapePattern (c :: cs) = c :: escapePattern cs := by
  rw [mem_marks] at hc
  simp [escapePattern, hc]

theorem map_escapePattern {lower : Char → Char} (h : KeepsMarks lower) (cs : List Char) :
    (escapePattern cs).map lower = escapePattern (cs.map lower) := by
  induction cs with
  | nil => rfl
  | cons c cs ih =>
    rw [List.map_cons]
    by_cases hc : c ∈ marks
    · have hescape : lower likeEscape = likeEscape := h.apply_mark (by simp [marks])
      rw [escapePattern_cons_of_mem hc, escapePattern_cons_of_mem (h.mem_iff.mpr hc), List.map_cons,
        List.map_cons, hescape, ih]
    · rw [escapePattern_cons_of_not_mem hc, escapePattern_cons_of_not_mem (mt h.mem_iff.mp hc),
        List.map_cons, ih]

namespace Text

/-- What lower-casing leaves alone and does not produce: no run of characters starts or ends up
there. -/
def Settled (n : ℕ) : Prop :=
  0 < n ∧ ∀ run ∈ lowerRuns, (n < run.1 ∨ run.2.1 < n) ∧
    ((n : ℤ) < run.1 + run.2.2.2 ∨ run.2.1 + run.2.2.2 < (n : ℤ))

instance (n : ℕ) : Decidable (Settled n) := inferInstanceAs (Decidable (_ ∧ _))

theorem toNat_ofNat (n : ℕ) : (Char.ofNat n).toNat = n ∨ (Char.ofNat n).toNat = 0 := by
  by_cases h : n.isValidChar
  · left
    rw [Char.ofNat, dif_pos h]
    rfl
  · right
    rw [Char.ofNat, dif_neg h]
    rfl

theorem lowerChar_eq_iff {c d : Char} (hd : Settled d.toNat) : lowerChar c = d ↔ c = d := by
  obtain ⟨hpos, hruns⟩ := hd
  unfold lowerChar
  dsimp only
  split
  · rename_i first last step added hfind
    obtain ⟨hleft, hright⟩ := hruns _ (List.mem_of_find?_eq_some hfind)
    have hrun := List.find?_some hfind
    simp only [Bool.and_eq_true, decide_eq_true_eq] at hrun
    obtain ⟨⟨hfirst, hlast⟩, -⟩ := hrun
    dsimp only at hleft hright
    constructor
    · intro he
      -- A number that is no character counts as zero, and zero is not settled.
      have hn := toNat_ofNat (c.toNat + added).toNat
      rw [he] at hn
      omega
    · rintro rfl
      omega
  · rfl

theorem settled_of_mem {c : Char} (h : c ∈ marks) : Settled c.toNat := by
  unfold marks at h
  fin_cases h <;> decide +kernel

theorem keepsMarks_lowerChar : KeepsMarks lowerChar :=
  fun _ hd _ => lowerChar_eq_iff (settled_of_mem hd)

end Text

namespace Sql

theorem anySuffix_iff {p : List Char → Bool} {text : List Char} :
    anySuffix p text = true ↔ ∃ t, t <:+ text ∧ p t = true := by
  induction text with
  | nil => simp [anySuffix]
  | cons c text ih =>
    rw [anySuffix, Bool.or_eq_true, ih]
    constructor
    · rintro (h | ⟨t, ht, hp⟩)
      · exact ⟨c :: text, List.suffix_refl _, h⟩
      · exact ⟨t, ht.trans (List.suffix_cons c text), hp⟩
    · rintro ⟨t, ht, hp⟩
      rcases List.suffix_cons_iff.mp ht with rfl | ht
      · exact Or.inl hp
      · exact Or.inr ⟨t, ht, hp⟩

theorem like_run {pattern text : List Char} :
    like likeEscape ('%' :: pattern) text = true ↔
      ∃ t, t <:+ text ∧ like likeEscape pattern t = true := by
  cases pattern with
  | nil => simp [like, likeEscape, List.nil_suffix]
  | cons q pattern =>
    rw [← anySuffix_iff]
    simp [like, likeEscape]

theorem like_escaped {c : Char} {pattern text : List Char} :
    like likeEscape (likeEscape :: c :: pattern) text = true ↔
      ∃ t, text = c :: t ∧ like likeEscape pattern t = true := by
  cases text with
  | nil => simp [like]
  | cons d text =>
    simp only [like, if_pos, Bool.and_eq_true, decide_eq_true_eq, List.cons.injEq]
    exact ⟨fun ⟨hc, h⟩ => ⟨text, ⟨hc.symm, rfl⟩, h⟩, fun ⟨_, ⟨hc, ht⟩, h⟩ => ⟨hc.symm, ht ▸ h⟩⟩

/-- A character that is neither a run nor the escape takes one character. -/
theorem like_single {c : Char} (hrun : c ≠ '%') (hescape : c ≠ likeEscape)
    {pattern text : List Char} :
    like likeEscape (c :: pattern) text = true ↔
      ∃ d t, text = d :: t ∧ (c = '_' ∨ c = d) ∧ like likeEscape pattern t = true := by
  cases pattern with
  | nil => rcases text with _ | ⟨d, _ | _⟩ <;> simp [like, hrun, hescape]
  | cons q pattern => cases text <;> simp [like, hrun, hescape]

/-- An escaped text matches itself, and the wildcard after it the rest. -/
theorem like_escapePattern {cs text : List Char} :
    like likeEscape (escapePattern cs ++ ['%']) text = true ↔ cs <+: text := by
  induction cs generalizing text with
  | nil => simp [escapePattern, like, likeEscape]
  | cons c cs ih =>
    -- A mark stands behind the escape, any other character as it is.
    by_cases hc : c ∈ marks
    · rw [escapePattern_cons_of_mem hc, List.cons_append, List.cons_append, like_escaped,
        List.cons_prefix_iff]
      simp only [ih]
    · rw [escapePattern_cons_of_not_mem hc, List.cons_append]
      simp only [mem_marks, not_or] at hc
      obtain ⟨hrun, hany, hescape⟩ := hc
      rw [like_single hrun hescape, List.cons_prefix_iff]
      simp only [ih, hany, false_or]
      exact ⟨fun ⟨_, t, ht, hd, h⟩ => ⟨t, hd ▸ ht, h⟩, fun ⟨t, ht, h⟩ => ⟨c, t, ht, rfl, h⟩⟩

theorem like_map_containsPattern {lower : Char → Char} (h : KeepsMarks lower) (needle : String)
    (text : List Char) :
    like likeEscape ((containsPattern needle).toList.map lower) text = true ↔
      needle.toList.map lower <:+: text := by
  have hrun : lower '%' = '%' := h.apply_mark (by simp [marks])
  have hpattern : (containsPattern needle).toList.map lower =
      '%' :: (escapePattern (needle.toList.map lower) ++ ['%']) := by
    rw [containsPattern, String.toList_ofList, List.map_append, List.map_cons, List.map_cons,
      List.map_nil, hrun, map_escapePattern h, List.cons_append]
  rw [hpattern, like_run, List.infix_iff_prefix_suffix]
  simp only [like_escapePattern]
  exact exists_congr fun t => and_comm

/-- A search finds just the texts that contain what is searched for, letters of any case. -/
theorem ilike_containsPattern (needle : String) (text : List Char) :
    ilike likeEscape (containsPattern needle).toList text = true ↔
      Text.lowerChars needle.toList <:+: Text.lowerChars text :=
  like_map_containsPattern Text.keepsMarks_lowerChar needle _

end Sql

end Screener
