import Screener.Proofs.Number.Whole

namespace Screener

namespace Binary

variable {f : Format}

theorem magnitude_snd_pos (x : Binary f) : 0 < x.magnitude.2 := powerOfTwo_snd_pos x.exponent

theorem magnitude_div (x : Binary f) : (x.magnitude.1 / x.magnitude.2 : ℚ) = x.value := by
  rw [value, ← powerOfTwo_div, magnitude]
  push_cast
  ring

theorem magnitude_eq_mul_iff {x : Binary f} {n : ℕ} :
    x.magnitude.1 = n * x.magnitude.2 ↔ x.value = n := by
  have hden : (x.magnitude.2 : ℚ) ≠ 0 := by exact_mod_cast x.magnitude_snd_pos.ne'
  rw [← magnitude_div, div_eq_iff hden]
  exact_mod_cast Iff.rfl

theorem toInt?_eq_some_iff {x : Binary f} {n : ℤ} : x.toInt? = some n ↔ x.rational = n := by
  simp only [toInt?, rational, Option.ite_none_right_eq_some, Option.some.injEq]
  constructor
  · rintro ⟨hrest, hn⟩
    have hvalue := magnitude_eq_mul_iff.mp
      (Nat.div_mul_cancel (Nat.dvd_of_mod_eq_zero hrest)).symm
    generalize x.magnitude.1 / x.magnitude.2 = m at hn hvalue
    rw [hvalue, ← hn]
    split <;> simp
  · intro h
    have hnonneg := x.value_nonneg
    have habs : x.value = n.natAbs := by
      rw [Nat.cast_natAbs, Int.cast_abs, ← h]
      split
      · rw [abs_neg, abs_of_nonneg hnonneg]
      · rw [abs_of_nonneg hnonneg]
    have hnum := magnitude_eq_mul_iff.mpr habs
    rw [hnum, Nat.mul_mod_left, Nat.mul_div_cancel _ x.magnitude_snd_pos, Int.natCast_natAbs]
    rw [habs, Nat.cast_natAbs] at h
    refine ⟨rfl, ?_⟩
    split_ifs at h ⊢
    · exact_mod_cast h
    · exact_mod_cast h

theorem steps_eq_iff (x y : Binary f) : x.steps = y.steps ↔ x.rational = y.rational := by
  rw [← steps_mul, ← steps_mul, mul_left_inj' (two_zpow_pos _).ne']
  exact_mod_cast Iff.rfl

theorem rounded_value (hf : 0 < f.digits) (x : Binary f) : rounded f x.value = x.value :=
  (ofValue?_eq_some hf (ofValue?_value hf x)).2.symm

theorem rounded_natCast {n : ℕ} (h : n ≤ 2 ^ 53) : rounded .double n = n := by
  rcases h.eq_or_lt with rfl | hlt
  · have hvalue : (⟨false, 2 ^ 52, 1, by decide⟩ : Double).value = (2 ^ 53 : ℕ) := by
      norm_num [value]
    rw [← hvalue]
    exact rounded_value (by decide) _
  rcases Nat.eq_zero_or_pos n with rfl | hpos
  · rw [Nat.cast_zero, rounded_zero]
  have hr : (0 : ℚ) < n := by exact_mod_cast hpos
  have hlog : Int.log 2 (n : ℚ) < 53 := by
    rw [← Int.lt_zpow_iff_log_lt (by decide) hr]
    exact_mod_cast hlt
  have hscale : scale .double n ≤ 0 := by
    simp only [scale, Format.double]
    omega
  -- The last bit is worth no more than one, so counted in it the number is whole.
  obtain ⟨k, hk⟩ := Int.exists_eq_neg_ofNat hscale
  have hwhole : (n : ℚ) / 2 ^ scale .double n = (n * 2 ^ k : ℕ) := by
    rw [hk, zpow_neg, zpow_natCast, div_inv_eq_mul]
    push_cast
    rfl
  rw [rounded, hwhole, nearestEven_natCast, hk, zpow_neg, zpow_natCast]
  push_cast
  field_simp

theorem rational_ofInt? {n : ℤ} (h : n.natAbs ≤ 2 ^ 53) {x : Double} (hx : ofInt? n = some x) :
    x.rational = n := by
  rw [ofInt?_eq_ofValue?] at hx
  obtain ⟨hsign, hvalue⟩ := ofValue?_eq_some (by decide) hx
  rw [rational, hsign, hvalue, rounded_natCast h, Nat.cast_natAbs, Int.cast_abs]
  by_cases hn : n < 0
  · have hneg : (n : ℚ) < 0 := by exact_mod_cast hn
    simp [hn, abs_of_neg hneg]
  · have hnonneg : (0 : ℚ) ≤ n := by exact_mod_cast not_lt.mp hn
    simp [hn, abs_of_nonneg hnonneg]

/-- Rounding merges two whole numbers if their nearest doubles are level. -/
def Merges (m n : ℤ) : Prop :=
  (ofInt? m : Option Double).map steps = (ofInt? n : Option Double).map steps

instance (m n : ℤ) : Decidable (Merges m n) := by
  unfold Merges
  infer_instance

section

variable {m n : ℤ} {x y : Double} (hx : ofInt? m = some x) (hy : ofInt? n = some y)
include hx hy

theorem merges_iff : Merges m n ↔ x.steps = y.steps := by
  rw [Merges, hx, hy, Option.map_some, Option.map_some, Option.some.injEq]

theorem compareValue_ofInt? :
    x.compareValue y = if Merges m n then .eq else compare m n := by
  by_cases h : Merges m n
  · rw [if_pos h, compareValue]
    exact compare_eq_iff_eq.mpr ((merges_iff hx hy).mp h)
  rw [if_neg h, compareValue]
  rw [merges_iff hx hy] at h
  rcases lt_or_gt_of_ne h with hlt | hgt
  · have hmn : m < n := by
      by_contra hle
      have := ofInt?_mono (by decide) hy hx (not_lt.mp hle)
      omega
    rw [compare_lt_iff_lt.mpr hlt, compare_lt_iff_lt.mpr hmn]
  · have hmn : n < m := by
      by_contra hle
      have := ofInt?_mono (by decide) hx hy (not_lt.mp hle)
      omega
    rw [compare_gt_iff_gt.mpr hgt, compare_gt_iff_gt.mpr hmn]

end

namespace Merges

variable {m n : ℤ}

theorem symm (h : Merges m n) : Merges n m := Eq.symm h

theorem within (h : Merges m n) (hm : m.natAbs ≤ 2 ^ 64) (hn : n.natAbs ≤ 2 ^ 64) {k l : ℤ}
    (hmk : m ≤ k) (hkl : k ≤ l) (hln : l ≤ n) : Merges k l := by
  obtain ⟨x, hx⟩ := ofInt?_isSome_of_natAbs_le hm
  obtain ⟨y, hy⟩ := ofInt?_isSome_of_natAbs_le hn
  obtain ⟨u, hu⟩ := ofInt?_isSome_of_natAbs_le (n := k) (by omega)
  obtain ⟨w, hw⟩ := ofInt?_isSome_of_natAbs_le (n := l) (by omega)
  rw [merges_iff hx hy] at h
  rw [merges_iff hu hw]
  have hxu := ofInt?_mono (by decide) hx hu hmk
  have huw := ofInt?_mono (by decide) hu hw hkl
  have hwy := ofInt?_mono (by decide) hw hy hln
  omega

theorem not_succ (hn : n.natAbs ≤ 2 ^ 53) (hn' : (n + 1).natAbs ≤ 2 ^ 53) :
    ¬Merges n (n + 1) := by
  intro h
  obtain ⟨x, hx⟩ := ofInt?_isSome_of_natAbs_le (n := n) (by omega)
  obtain ⟨y, hy⟩ := ofInt?_isSome_of_natAbs_le (n := n + 1) (by omega)
  rw [merges_iff hx hy, steps_eq_iff, rational_ofInt? hn hx, rational_ofInt? hn' hy] at h
  have : n = n + 1 := by exact_mod_cast h
  omega

/-- Nothing is merged with a number below two to the power of 53. -/
theorem eq_of_small (h : Merges m n) (hm : m.natAbs ≤ 2 ^ 64) (hn : n.natAbs < 2 ^ 53) :
    m = n := by
  rcases lt_trichotomy m n with hlt | heq | hgt
  · have hbelow : Merges (n - 1) (n - 1 + 1) :=
      h.within hm (by omega) (by omega) (by omega) (by omega)
    exact absurd hbelow (not_succ (by omega) (by omega))
  · exact heq
  · have habove : Merges n (n + 1) := h.symm.within (by omega) hm le_rfl (by omega) (by omega)
    exact absurd habove (not_succ (by omega) (by omega))

/-- Where the integers of 64 bits with a sign end, rounding merges the last 512 of them with the
first 1025 that are larger, and no other of them with any that is larger. -/
theorem top_iff (hm : -2 ^ 63 ≤ m) (hm' : m < 2 ^ 63) (hn : 2 ^ 63 ≤ n) (hn' : n < 2 ^ 64) :
    Merges m n ↔ 2 ^ 63 - 512 ≤ m ∧ n ≤ 2 ^ 63 + 1024 := by
  have hmAbs : m.natAbs ≤ 2 ^ 64 := by omega
  have hnAbs : n.natAbs ≤ 2 ^ 64 := by omega
  constructor
  · intro h
    have hbelow : ¬Merges (2 ^ 63 - 513) (2 ^ 63) := by decide +kernel
    have habove : ¬Merges (2 ^ 63 - 1) (2 ^ 63 + 1025) := by decide +kernel
    constructor
    · by_contra hlt
      exact hbelow (h.within hmAbs hnAbs (by omega) (by omega) hn)
    · by_contra hgt
      exact habove (h.within hmAbs hnAbs (by omega) (by omega) (by omega))
  · rintro ⟨hlow, hhigh⟩
    have hends : Merges (2 ^ 63 - 512) (2 ^ 63 + 1024) := by decide +kernel
    exact hends.within (by decide) (by decide) hlow (by omega) hhigh

end Merges

end Binary

end Screener
