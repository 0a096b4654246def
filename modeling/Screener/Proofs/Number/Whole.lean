import Screener.Proofs.Number.Numeral

namespace Screener

namespace Binary

section

variable {f : Format}

def rational (x : Binary f) : ℚ := if x.negative then -x.value else x.value

theorem steps_mul (x : Binary f) : (x.steps : ℚ) * 2 ^ f.least = x.rational := by
  obtain ⟨k, hk⟩ : ∃ k : ℕ, x.exponent = f.least + k :=
    ⟨(x.exponent - f.least).toNat, by have := x.canonical.2.1; omega⟩
  have hv : x.value = (x.significand * 2 ^ k : ℕ) * 2 ^ f.least := by
    rw [value, hk, zpow_add₀ two_ne_zero, zpow_natCast]
    push_cast
    ring
  have hs : (x.exponent - f.least).toNat = k := by omega
  rw [rational, hv]
  cases hn : x.negative <;> simp [steps, hs, hn]

theorem steps_le_iff (x y : Binary f) : x.steps ≤ y.steps ↔ x.rational ≤ y.rational := by
  rw [← steps_mul, ← steps_mul, mul_le_mul_iff_left₀ (two_zpow_pos _)]
  exact_mod_cast Iff.rfl

theorem ofInt?_eq_ofValue? (n : ℤ) :
    (ofInt? n : Option (Binary f)) = ofValue? (n < 0) n.natAbs := by
  rw [ofInt?, ofRatio?_eq_ofValue? _ _ one_pos, Nat.cast_one, div_one]

/-- Larger whole numbers have no smaller nearest values. -/
theorem ofInt?_mono (hf : 0 < f.digits) {m n : ℤ} {x y : Binary f} (hx : ofInt? m = some x)
    (hy : ofInt? n = some y) (h : m ≤ n) : x.steps ≤ y.steps := by
  rw [ofInt?_eq_ofValue?] at hx hy
  obtain ⟨hxs, hxv⟩ := ofValue?_eq_some hf hx
  obtain ⟨hys, hyv⟩ := ofValue?_eq_some hf hy
  have hx0 := x.value_nonneg
  have hy0 := y.value_nonneg
  rw [steps_le_iff, rational, rational, hxs, hys]
  -- Magnitudes are rounded in order; below zero the order of the magnitudes is the other way round.
  by_cases hm : m < 0 <;> by_cases hn : n < 0
  · have hle : (n.natAbs : ℚ) ≤ m.natAbs := by exact_mod_cast (by omega : n.natAbs ≤ m.natAbs)
    have := rounded_mono (f := f) hf (Nat.cast_nonneg _) hle
    simp only [hm, hn, decide_true, if_true, hxv, hyv]
    exact neg_le_neg this
  · simp only [hm, hn, decide_true, decide_false, if_true]
    exact (neg_nonpos.mpr hx0).trans hy0
  · omega
  · have hle : (m.natAbs : ℚ) ≤ n.natAbs := by exact_mod_cast (by omega : m.natAbs ≤ n.natAbs)
    have := rounded_mono (f := f) hf (Nat.cast_nonneg _) hle
    simpa [hm, hn, hxv, hyv] using this

end

theorem ofInt?_isSome_of_natAbs_le {n : ℤ} (h : n.natAbs ≤ 2 ^ 64) :
    ∃ x : Double, ofInt? n = some x := by
  have hlt : (n.natAbs : ℚ) < 2 ^ (Format.double.most + Format.double.digits - 1) := by
    calc (n.natAbs : ℚ) ≤ 2 ^ 64 := by exact_mod_cast h
      _ = 2 ^ (64 : ℤ) := by norm_num
      _ < 2 ^ (Format.double.most + Format.double.digits - 1) :=
          zpow_lt_zpow_right₀ one_lt_two (by decide)
  rw [ofInt?_eq_ofValue?]
  exact ofValue?_isSome (by decide) (by decide) _ (Nat.cast_nonneg _) hlt

theorem ofInt?_isSome (n : Int64) : ∃ x : Double, ofInt? n.toInt = some x := by
  refine ofInt?_isSome_of_natAbs_le ?_
  have h1 := n.le_toInt
  have h2 := n.toInt_lt
  omega

/-- A text without a point spells a whole number whose nearest double is the number. -/
theorem ofInt?_spelledInt {x : Double} (h : '.' ∉ x.digits) :
    ∃ y : Double, ofInt? x.spelledInt = some y ∧ y.steps = x.steps := by
  have hback := x.readsBack_shortest .up
  rcases (x.shortest .up).digits_cases with ⟨he, -, -, hval⟩ | ⟨-, w, r, hd, -⟩
  · set n := natOfDigits x.digits with hn
    have hv : (x.shortest .up).value = n := by
      rw [hn, digits, hval, Decimal.value]
      push_cast
      rw [← zpow_natCast, Int.toNat_of_nonneg he]
    rw [ReadsBack, hv] at hback
    rcases Nat.eq_zero_or_pos n with h0 | hpos
    · -- Both zeros are level with the whole number zero.
      have hspelled : x.spelledInt = 0 := by simp [spelledInt, ← hn, h0]
      rw [h0, Nat.cast_zero, ofValue?, if_pos rfl] at hback
      have hx : x.steps = 0 := by simp [steps, (mk?_eq_some hback).2.1]
      refine ⟨Double.zero, ?_, hx.symm⟩
      rw [hspelled]
      decide
    · have hneg : decide (x.spelledInt < 0) = x.negative := by
        cases hs : x.negative <;> simp [spelledInt, ← hn, hs, hpos]
      have habs : x.spelledInt.natAbs = n := by
        cases hs : x.negative <;> simp [spelledInt, ← hn, hs]
      refine ⟨x, ?_, rfl⟩
      rw [ofInt?_eq_ofValue?, hneg, habs]
      exact hback
  · exact absurd (by rw [digits, hd]; simp) h

end Binary

end Screener
