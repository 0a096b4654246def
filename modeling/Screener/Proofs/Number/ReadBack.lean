import Screener.Number.Decimal
import Screener.Proofs.Number.Rounding

namespace Screener

namespace Decimal

def value (d : Decimal) : ℚ := d.coefficient * 10 ^ d.exponent

theorem value_stripZeros (fuel : ℕ) (d : Decimal) : (stripZeros fuel d).value = d.value := by
  induction fuel generalizing d with
  | zero => rfl
  | succ fuel ih =>
    unfold stripZeros
    split_ifs with h
    · obtain ⟨k, hk⟩ := Nat.dvd_of_mod_eq_zero h.2
      rw [ih, value, value, hk, Nat.mul_div_cancel_left _ (by decide), zpow_add_one₀ (by norm_num)]
      push_cast
      ring
    · rfl

end Decimal

theorem lt_pow_decimalLength (n : ℕ) : n < 10 ^ (Nat.toDigits 10 n).length :=
  (Nat.length_toDigits_le_iff (by decide) Nat.length_toDigits_pos).mp le_rfl

theorem ten_zpow_le {k : ℤ} (h : k ≤ 0) : (10 : ℚ) ^ k ≤ 2 ^ (3 * k) := by
  obtain ⟨n, rfl⟩ := Int.exists_eq_neg_ofNat h
  rw [mul_neg, zpow_neg, zpow_neg, zpow_mul, zpow_natCast, zpow_natCast]
  exact inv_anti₀ (by positivity) (pow_le_pow_left₀ (by norm_num) (by norm_num) n)

theorem le_ten_zpow {k : ℤ} (h : 0 ≤ k) : (2 : ℚ) ^ (3 * k) ≤ 10 ^ k := by
  obtain ⟨n, rfl⟩ := Int.eq_ofNat_of_zero_le h
  rw [zpow_mul, zpow_natCast, zpow_natCast]
  exact pow_le_pow_left₀ (by norm_num) (by norm_num) n

namespace Binary

/-- The shortcuts for far exponents settle what rounding would have settled. -/
theorem ofDecimal?_eq_ofValue? (negative : Bool) (n : ℕ) (k : ℤ) :
    (ofDecimal? negative n k : Option Double) = ofValue? negative (n * 10 ^ k) := by
  have h10 : (0 : ℚ) < 10 ^ k := zpow_pos (by norm_num) k
  by_cases hn : n = 0
  · simp [ofDecimal?, hn, ofValue?]
  have hn1 : (1 : ℚ) ≤ n := by exact_mod_cast Nat.pos_of_ne_zero hn
  simp only [ofDecimal?, hn, false_or]
  split_ifs with hlow h2
  · -- Too small: below half of the least step, so rounding gives zero as well.
    simp only [Format.double] at hlow
    refine (ofValue?_eq_zero? negative (by positivity) ?_).symm
    have hlen : (n : ℚ) < 10 ^ (((Nat.toDigits 10 n).length : ℕ) : ℤ) := by
      rw [zpow_natCast]
      exact_mod_cast lt_pow_decimalLength n
    calc (n : ℚ) * 10 ^ k < 10 ^ (((Nat.toDigits 10 n).length : ℕ) : ℤ) * 10 ^ k :=
          mul_lt_mul_of_pos_right hlen h10
      _ = 10 ^ (((Nat.toDigits 10 n).length : ℤ) + k) := (zpow_add₀ (by norm_num) _ _).symm
      _ ≤ 2 ^ (3 * (((Nat.toDigits 10 n).length : ℤ) + k)) := ten_zpow_le (by omega)
      _ ≤ 2 ^ (Format.double.least - 1) := zpow_le_zpow_right₀ one_le_two hlow.le
  · -- Too large: the power alone is beyond the range.
    simp only [Format.double] at h2
    refine (ofValue?_eq_none negative ?_).symm
    calc (2 : ℚ) ^ (Format.double.most + Format.double.digits)
        ≤ 2 ^ (3 * k) := zpow_le_zpow_right₀ one_le_two h2.le
      _ ≤ 10 ^ k := le_ten_zpow (by omega)
      _ ≤ n * 10 ^ k := le_mul_of_one_le_left h10.le hn1
  · rw [ofRatio?_eq_ofValue? negative _ (powerOfTen_snd_pos k), ← powerOfTen_div k]
    congr 1
    push_cast
    ring

variable (x : Double)

theorem value_exactDecimal : x.exactDecimal.value = x.value := by
  unfold exactDecimal
  split_ifs with h
  · obtain ⟨n, hn⟩ := Int.eq_ofNat_of_zero_le h
    simp only [Decimal.value, value, hn, Int.toNat_natCast, Nat.pow_eq, zpow_natCast]
    push_cast
    ring
  · obtain ⟨n, hn⟩ := Int.exists_eq_neg_ofNat (by omega : x.exponent ≤ 0)
    have h10 : (10 : ℚ) ^ n = 2 ^ n * 5 ^ n := by rw [← mul_pow]; norm_num
    simp only [Decimal.value, value, hn, neg_neg, Int.toNat_natCast, Nat.pow_eq, zpow_neg,
      zpow_natCast, h10]
    push_cast
    field_simp

/-- A decimal reads back as `x` if rounding its value gives `x`. -/
def ReadsBack (d : Decimal) : Prop := ofValue? x.negative d.value = some x

theorem readsBack_iff (d : Decimal) : x.readsBack d = true ↔ x.ReadsBack d := by
  rw [readsBack, beq_iff_eq, ofDecimal?_eq_ofValue?]
  rfl

theorem readsBack_exactDecimal : x.ReadsBack x.exactDecimal := by
  rw [ReadsBack, value_exactDecimal]
  exact ofValue?_value (by decide) x

theorem readsBack_of_onGrid? {tie : Tie} {k : ℤ} {d : Decimal} (h : x.onGrid? tie k = some d) :
    x.ReadsBack d := by
  rw [← readsBack_iff]
  unfold onGrid? at h
  dsimp only at h
  -- Both neighbours, the one below, the one above, or neither.
  split at h
  · rename_i hb ha
    cases h
    split
    · exact ha
    · exact hb
  · rename_i hb _
    cases h
    exact hb
  · rename_i _ ha
    cases h
    exact ha
  · cases h

theorem readsBack_shortestFrom (tie : Tie) (top : ℤ) (fuel count : ℕ) :
    x.ReadsBack (x.shortestFrom tie top fuel count) := by
  induction fuel generalizing count with
  | zero => exact x.readsBack_exactDecimal
  | succ fuel ih =>
    unfold shortestFrom
    split
    · rename_i d h
      exact x.readsBack_of_onGrid? h
    · -- No neighbour reads back with so few digits, so one more is tried.
      exact ih (count + 1)

/-- The digits that are written for a number read back as it, the sign of a zero included. -/
theorem readsBack_shortest (tie : Tie) : x.ReadsBack (x.shortest tie) := by
  unfold shortest
  split
  · rename_i h
    have hv : x.value = 0 := (value_eq_zero_iff x).mpr (by simpa [isZero] using h)
    have hd : (⟨0, 0⟩ : Decimal).value = x.value := by simp [Decimal.value, hv]
    rw [ReadsBack, hd]
    exact ofValue?_value (by decide) x
  · dsimp only
    rw [ReadsBack, Decimal.value_stripZeros]
    exact x.readsBack_shortestFrom ..

end Binary

end Screener
