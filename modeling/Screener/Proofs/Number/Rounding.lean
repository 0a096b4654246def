import Mathlib.Algebra.Order.Floor.Semifield
import Mathlib.Data.Int.Log
import Mathlib.Data.Rat.Floor
import Mathlib.Tactic
import Screener.Number.Binary

namespace Screener

def nearestEven (r : ℚ) : ℕ :=
  if 1 / 2 < r - ⌊r⌋₊ ∨ (r - ⌊r⌋₊ = 1 / 2 ∧ ⌊r⌋₊ % 2 = 1) then ⌊r⌋₊ + 1 else ⌊r⌋₊

theorem roundHalfEven_eq_nearestEven (num : ℕ) {den : ℕ} (hden : 0 < den) :
    roundHalfEven num den = nearestEven (num / den) := by
  have hd : (0 : ℚ) < den := by exact_mod_cast hden
  have hq : ⌊(num / den : ℚ)⌋₊ = num / den := Nat.floor_div_eq_div num den
  have hsum : (num : ℚ) = den * (num / den : ℕ) + (num % den : ℕ) := by
    exact_mod_cast (Nat.div_add_mod num den).symm
  have hr : (num / den : ℚ) - (num / den : ℕ) = (num % den : ℕ) / den := by
    rw [hsum]
    field_simp
    ring
  have hlt : 1 / 2 < ((num % den : ℕ) / den : ℚ) ↔ den < 2 * (num % den) := by
    rw [div_lt_div_iff₀ two_pos hd, one_mul, mul_comm]
    exact_mod_cast Iff.rfl
  have heq : ((num % den : ℕ) / den : ℚ) = 1 / 2 ↔ 2 * (num % den) = den := by
    rw [div_eq_div_iff hd.ne' two_ne_zero, one_mul, mul_comm]
    exact_mod_cast Iff.rfl
  simp only [nearestEven, roundHalfEven, hq, hr, hlt, heq]

theorem nearestEven_natCast (n : ℕ) : nearestEven n = n := by
  simp [nearestEven]

theorem floor_le_nearestEven (r : ℚ) : ⌊r⌋₊ ≤ nearestEven r := by
  unfold nearestEven
  split <;> omega

theorem nearestEven_le_floor_succ (r : ℚ) : nearestEven r ≤ ⌊r⌋₊ + 1 := by
  unfold nearestEven
  split <;> omega

theorem nearestEven_eq_zero {r : ℚ} (h : r < 1 / 2) : nearestEven r = 0 := by
  have hf : ⌊r⌋₊ = 0 := Nat.floor_eq_zero.mpr (by linarith)
  have hn : ¬(1 / 2 < r ∨ r = 1 / 2 ∧ 0 % 2 = 1) := by
    rintro (h' | ⟨h', _⟩) <;> linarith
  simp only [nearestEven, hf, Nat.cast_zero, sub_zero, if_neg hn]

theorem nearestEven_mono {r s : ℚ} (h : r ≤ s) : nearestEven r ≤ nearestEven s := by
  rcases (Nat.floor_mono h).eq_or_lt with he | hlt
  · -- Within one unit only the part after the point decides.
    unfold nearestEven
    rw [he]
    split_ifs with h1 h2
    · rfl
    · refine absurd ?_ h2
      rcases h1 with h1 | ⟨h1, h1'⟩
      · exact Or.inl (by linarith)
      · rcases h.eq_or_lt with rfl | hlt
        · exact Or.inr ⟨h1, h1'⟩
        · exact Or.inl (by linarith)
    · omega
    · rfl
  · exact (nearestEven_le_floor_succ r).trans (Nat.succ_le_of_lt hlt |>.trans
      (floor_le_nearestEven s))

theorem nearestEven_le {r : ℚ} {n : ℕ} (h : r ≤ n) : nearestEven r ≤ n :=
  (nearestEven_mono h).trans_eq (nearestEven_natCast n)

theorem le_nearestEven {r : ℚ} {n : ℕ} (h : (n : ℚ) ≤ r) : n ≤ nearestEven r :=
  (nearestEven_natCast n).symm.trans_le (nearestEven_mono h)

theorem powerOfTwo_div (e : ℤ) : ((powerOfTwo e).1 / (powerOfTwo e).2 : ℚ) = 2 ^ e := by
  obtain ⟨n, rfl | rfl⟩ := e.eq_nat_or_neg <;> simp [powerOfTwo]

theorem powerOfTen_div (e : ℤ) : ((powerOfTen e).1 / (powerOfTen e).2 : ℚ) = 10 ^ e := by
  obtain ⟨n, rfl | rfl⟩ := e.eq_nat_or_neg <;> simp [powerOfTen]

theorem powerOfTwo_snd_pos (e : ℤ) : 0 < (powerOfTwo e).2 := Nat.pow_pos two_pos

theorem powerOfTen_snd_pos (e : ℤ) : 0 < (powerOfTen e).2 := Nat.pow_pos (by decide)

theorem two_zpow_pos (e : ℤ) : (0 : ℚ) < 2 ^ e := zpow_pos two_pos e

theorem log2_bounds {n : ℕ} (h : 0 < n) :
    (2 : ℚ) ^ (n.log2 : ℤ) ≤ n ∧ (n : ℚ) < 2 ^ ((n.log2 : ℤ) + 1) := by
  constructor
  · rw [zpow_natCast]
    exact_mod_cast Nat.log2_self_le h.ne'
  · rw [show ((n.log2 : ℤ) + 1) = ((n.log2 + 1 : ℕ) : ℤ) by push_cast; rfl, zpow_natCast]
    exact_mod_cast Nat.lt_log2_self

/-- The estimate by bit lengths is off by one at most, and the comparison settles by how much. -/
theorem floorLog2_eq_log {num den : ℕ} (hnum : 0 < num) (hden : 0 < den) :
    floorLog2 num den = Int.log 2 (num / den : ℚ) := by
  have hn : (0 : ℚ) < num := by exact_mod_cast hnum
  have hd : (0 : ℚ) < den := by exact_mod_cast hden
  have hr : (0 : ℚ) < num / den := div_pos hn hd
  obtain ⟨n1, n2⟩ := log2_bounds hnum
  obtain ⟨d1, d2⟩ := log2_bounds hden
  set t : ℤ := (num.log2 : ℤ) - den.log2 with ht
  have hlow : t - 1 ≤ Int.log 2 (num / den : ℚ) := by
    rw [← Int.zpow_le_iff_le_log (by decide) hr, le_div_iff₀ hd, Nat.cast_ofNat]
    calc (2 : ℚ) ^ (t - 1) * den ≤ 2 ^ (t - 1) * 2 ^ ((den.log2 : ℤ) + 1) := by
          have := two_zpow_pos (t - 1)
          gcongr
      _ = 2 ^ (num.log2 : ℤ) := by
          rw [← zpow_add₀ two_ne_zero]
          congr 1
          omega
      _ ≤ num := n1
  have hhigh : Int.log 2 (num / den : ℚ) < t + 1 := by
    rw [← Int.lt_zpow_iff_log_lt (by decide) hr, div_lt_iff₀ hd, Nat.cast_ofNat]
    calc (num : ℚ) < 2 ^ ((num.log2 : ℤ) + 1) := n2
      _ = 2 ^ (t + 1) * 2 ^ (den.log2 : ℤ) := by
          rw [← zpow_add₀ two_ne_zero]
          congr 1
          omega
      _ ≤ 2 ^ (t + 1) * den := by
          have := two_zpow_pos (t + 1)
          gcongr
  have hq : (0 : ℚ) < (powerOfTwo t).2 := by exact_mod_cast powerOfTwo_snd_pos t
  -- The comparison in whole numbers asks whether the estimate is reached.
  have hcmp : den * (powerOfTwo t).1 ≤ num * (powerOfTwo t).2 ↔
      t ≤ Int.log 2 (num / den : ℚ) := by
    rw [← Int.zpow_le_iff_le_log (by decide) hr, Nat.cast_ofNat, ← powerOfTwo_div,
      div_le_div_iff₀ hq hd, mul_comm ((powerOfTwo t).1 : ℚ)]
    exact_mod_cast Iff.rfl
  simp only [floorLog2, ← ht, hcmp]
  split_ifs with h
  · omega
  · omega

namespace Binary

variable {f : Format}

def value (x : Binary f) : ℚ := x.significand * 2 ^ x.exponent

/-- The exponent of the last bit that a magnitude is rounded to. -/
def scale (f : Format) (r : ℚ) : ℤ := max f.least (Int.log 2 r - f.digits + 1)

def rounded (f : Format) (r : ℚ) : ℚ := nearestEven (r / 2 ^ scale f r) * 2 ^ scale f r

/-- `ofRatio?` by the rational number that is rounded. -/
def ofValue? (negative : Bool) (r : ℚ) : Option (Binary f) :=
  if r = 0 then zero? negative
  else if nearestEven (r / 2 ^ scale f r) = Nat.pow 2 f.digits then
    mk? negative (Nat.pow 2 (f.digits - 1)) (scale f r + 1)
  else mk? negative (nearestEven (r / 2 ^ scale f r)) (scale f r)

theorem ofRatio?_eq_ofValue? (negative : Bool) (num : ℕ) {den : ℕ} (hden : 0 < den) :
    (ofRatio? negative num den : Option (Binary f)) = ofValue? negative (num / den) := by
  have hd : (den : ℚ) ≠ 0 := by exact_mod_cast hden.ne'
  by_cases hnum : num = 0
  · simp [ofRatio?, ofValue?, hnum]
  have hn : (num : ℚ) ≠ 0 := by exact_mod_cast hnum
  have hr : (num / den : ℚ) ≠ 0 := div_ne_zero hn hd
  have hscale : max f.least (floorLog2 num den - f.digits + 1) = scale f (num / den : ℚ) := by
    rw [scale, floorLog2_eq_log (Nat.pos_of_ne_zero hnum) hden]
  set e := scale f (num / den : ℚ) with he
  have hp : 0 < (powerOfTwo e).1 := Nat.pow_pos two_pos
  have hround : roundHalfEven (num * (powerOfTwo e).2) (den * (powerOfTwo e).1) =
      nearestEven (num / den / 2 ^ e) := by
    rw [roundHalfEven_eq_nearestEven _ (Nat.mul_pos hden hp), ← powerOfTwo_div]
    congr 1
    push_cast
    field_simp
  simp only [ofRatio?, ofValue?, hscale, hround, hnum, hr, if_false, ← he]

theorem mk?_eq_some {negative : Bool} {m : ℕ} {e : ℤ} {x : Binary f}
    (h : mk? negative m e = some x) :
    x.negative = negative ∧ x.significand = m ∧ x.exponent = e := by
  unfold mk? at h
  split at h
  · cases h
    exact ⟨rfl, rfl, rfl⟩
  · cases h

theorem mk?_self (x : Binary f) : mk? x.negative x.significand x.exponent = some x := by
  rw [mk?, dif_pos x.canonical]

theorem rounded_zero : rounded f 0 = 0 := by
  have h : nearestEven 0 = 0 := by exact_mod_cast nearestEven_natCast 0
  rw [rounded, zero_div, h, Nat.cast_zero, zero_mul]

/-- What rounding gives has the sign asked for and the rounded magnitude. -/
theorem ofValue?_eq_some (hf : 0 < f.digits) {negative : Bool} {r : ℚ} {x : Binary f}
    (h : ofValue? negative r = some x) : x.negative = negative ∧ x.value = rounded f r := by
  unfold ofValue? at h
  split_ifs at h with h0 h1
  · obtain ⟨hs, hm, -⟩ := mk?_eq_some h
    exact ⟨hs, by rw [value, hm, h0, rounded_zero, Nat.cast_zero, zero_mul]⟩
  · obtain ⟨hs, hm, he⟩ := mk?_eq_some h
    refine ⟨hs, ?_⟩
    rw [value, rounded, hm, he, h1, zpow_add₀ two_ne_zero]
    obtain ⟨d, hd⟩ : ∃ d, f.digits = d + 1 := ⟨f.digits - 1, by omega⟩
    simp only [hd, Nat.add_sub_cancel, Nat.pow_eq, pow_succ]
    push_cast
    ring
  · obtain ⟨hs, hm, he⟩ := mk?_eq_some h
    exact ⟨hs, by rw [value, rounded, hm, he]⟩

theorem scale_mono {r s : ℚ} (hr : 0 < r) (h : r ≤ s) : scale f r ≤ scale f s := by
  have := Int.log_mono_right (b := 2) hr h
  unfold scale
  omega

/-- The scaled magnitude has at most `digits` bits before its point, and no fewer unless the
exponent is the least. -/
theorem scaled_bounds {r : ℚ} (hr : 0 < r) :
    r / 2 ^ scale f r < 2 ^ (f.digits : ℤ) ∧
      (f.least < scale f r → (2 : ℚ) ^ ((f.digits : ℤ) - 1) ≤ r / 2 ^ scale f r) := by
  have hp := two_zpow_pos (scale f r)
  have h1 := Int.lt_zpow_succ_log_self (b := 2) (by decide) r
  have h2 := Int.zpow_log_le_self (b := 2) (by decide) hr
  rw [Nat.cast_ofNat] at h1 h2
  constructor
  · rw [div_lt_iff₀ hp, ← zpow_add₀ two_ne_zero]
    refine h1.trans_le (zpow_le_zpow_right₀ one_le_two ?_)
    unfold scale
    omega
  · intro hl
    rw [le_div_iff₀ hp, ← zpow_add₀ two_ne_zero]
    refine (zpow_le_zpow_right₀ one_le_two ?_).trans h2
    unfold scale at hl ⊢
    omega

theorem nearestEven_scaled_le {r : ℚ} (hr : 0 < r) :
    nearestEven (r / 2 ^ scale f r) ≤ 2 ^ f.digits := by
  apply nearestEven_le
  have h := (scaled_bounds (f := f) hr).1.le
  rw [zpow_natCast] at h
  exact_mod_cast h

theorem le_nearestEven_scaled (hf : 0 < f.digits) {r : ℚ} (hr : 0 < r)
    (hl : f.least < scale f r) : 2 ^ (f.digits - 1) ≤ nearestEven (r / 2 ^ scale f r) := by
  apply le_nearestEven
  have h := (scaled_bounds (f := f) hr).2 hl
  rw [show (f.digits : ℤ) - 1 = ((f.digits - 1 : ℕ) : ℤ) by omega, zpow_natCast] at h
  exact_mod_cast h

theorem rounded_mono (hf : 0 < f.digits) {r s : ℚ} (hr : 0 ≤ r) (h : r ≤ s) :
    rounded f r ≤ rounded f s := by
  rcases hr.eq_or_lt with rfl | hr
  · rw [rounded_zero]
    exact mul_nonneg (Nat.cast_nonneg _) (two_zpow_pos _).le
  have hs : 0 < s := hr.trans_le h
  rcases (scale_mono (f := f) hr h).eq_or_lt with he | hlt
  · have hp := two_zpow_pos (scale f s)
    have hle : nearestEven (r / 2 ^ scale f s) ≤ nearestEven (s / 2 ^ scale f s) :=
      nearestEven_mono (div_le_div_of_nonneg_right h hp.le)
    rw [rounded, rounded, he]
    exact mul_le_mul_of_nonneg_right (by exact_mod_cast hle) hp.le
  · -- A higher last bit: the power of two between the two ranges separates them.
    have hl : f.least < scale f s := lt_of_le_of_lt (le_max_left _ _) hlt
    have hup : (nearestEven (r / 2 ^ scale f r) : ℚ) ≤ 2 ^ f.digits := by
      exact_mod_cast nearestEven_scaled_le hr
    have hdown : (2 : ℚ) ^ (f.digits - 1) ≤ nearestEven (s / 2 ^ scale f s) := by
      exact_mod_cast le_nearestEven_scaled hf hs hl
    calc rounded f r ≤ 2 ^ f.digits * 2 ^ scale f r :=
          mul_le_mul_of_nonneg_right hup (two_zpow_pos _).le
      _ = 2 ^ ((f.digits : ℤ) + scale f r) := by rw [zpow_add₀ two_ne_zero, zpow_natCast]
      _ ≤ 2 ^ (((f.digits - 1 : ℕ) : ℤ) + scale f s) :=
          zpow_le_zpow_right₀ one_le_two (by omega)
      _ = 2 ^ (f.digits - 1) * 2 ^ scale f s := by rw [zpow_add₀ two_ne_zero, zpow_natCast]
      _ ≤ rounded f s := mul_le_mul_of_nonneg_right hdown (two_zpow_pos _).le

theorem ofValue?_isSome (hf : 0 < f.digits) (hl : f.least < f.most) (negative : Bool) {r : ℚ}
    (h0 : 0 ≤ r) (h : r < 2 ^ (f.most + f.digits - 1)) :
    ∃ x : Binary f, ofValue? negative r = some x := by
  have hpow : 0 < Nat.pow 2 f.digits := Nat.pow_pos two_pos
  have hhalf : Nat.pow 2 (f.digits - 1) < Nat.pow 2 f.digits :=
    Nat.pow_lt_pow_right (by decide) (by omega)
  rcases h0.eq_or_lt with rfl | hr
  · rw [ofValue?, if_pos rfl, zero?, mk?, dif_pos ⟨hpow, le_rfl, hl.le, Or.inr rfl⟩]
    exact ⟨_, rfl⟩
  have hlog : Int.log 2 r < f.most + f.digits - 1 :=
    (Int.lt_zpow_iff_log_lt (by decide) hr).mp (by exact_mod_cast h)
  have hmin : f.least ≤ scale f r := le_max_left _ _
  have hmax : scale f r < f.most := by
    unfold scale
    omega
  rw [ofValue?, if_neg hr.ne']
  split_ifs with hm
  · have hcan : f.Canonical (Nat.pow 2 (f.digits - 1)) (scale f r + 1) :=
      ⟨hhalf, by omega, by omega, Or.inl le_rfl⟩
    rw [mk?, dif_pos hcan]
    exact ⟨_, rfl⟩
  · have hcan : f.Canonical (nearestEven (r / 2 ^ scale f r)) (scale f r) := by
      refine ⟨lt_of_le_of_ne (nearestEven_scaled_le hr) hm, hmin, hmax.le, ?_⟩
      rcases hmin.lt_or_eq with hlt | he
      · exact Or.inl (le_nearestEven_scaled hf hr hlt)
      · exact Or.inr he.symm
    rw [mk?, dif_pos hcan]
    exact ⟨_, rfl⟩

theorem ofValue?_eq_none (negative : Bool) {r : ℚ}
    (h : (2 : ℚ) ^ (f.most + f.digits) ≤ r) : (ofValue? negative r : Option (Binary f)) = none := by
  have hr : 0 < r := (two_zpow_pos _).trans_le h
  have hlog : f.most + f.digits ≤ Int.log 2 r :=
    (Int.zpow_le_iff_le_log (by decide) hr).mp (by exact_mod_cast h)
  have hmax : f.most < scale f r := by
    unfold scale
    omega
  rw [ofValue?, if_neg hr.ne']
  split_ifs
  · exact dif_neg fun hc => by have := hc.2.2.1; omega
  · exact dif_neg fun hc => by have := hc.2.2.1; omega

theorem ofValue?_eq_zero? (negative : Bool) {r : ℚ} (h0 : 0 ≤ r)
    (h : r < 2 ^ (f.least - 1)) : (ofValue? negative r : Option (Binary f)) = zero? negative := by
  rcases h0.eq_or_lt with rfl | hr
  · rw [ofValue?, if_pos rfl]
  have hlog : Int.log 2 r < f.least - 1 :=
    (Int.lt_zpow_iff_log_lt (by decide) hr).mp (by exact_mod_cast h)
  have hscale : scale f r = f.least := by
    unfold scale
    omega
  have hm : nearestEven (r / 2 ^ f.least) = 0 := by
    apply nearestEven_eq_zero
    rw [div_lt_iff₀ (two_zpow_pos _), one_div, ← zpow_neg_one, ← zpow_add₀ two_ne_zero]
    exact h.trans_eq (by congr 1; omega)
  have hpow : 0 ≠ Nat.pow 2 f.digits := (Nat.pow_pos two_pos).ne
  rw [ofValue?, if_neg hr.ne', hscale, hm, if_neg hpow, zero?]

theorem value_nonneg (x : Binary f) : 0 ≤ x.value :=
  mul_nonneg (Nat.cast_nonneg _) (two_zpow_pos _).le

theorem value_eq_zero_iff (x : Binary f) : x.value = 0 ↔ x.significand = 0 := by
  rw [value, mul_eq_zero, or_iff_left (two_zpow_pos _).ne']
  exact Nat.cast_eq_zero

/-- A value is rounded at the exponent that it has. -/
theorem scale_value (hf : 0 < f.digits) {x : Binary f} (hx : x.significand ≠ 0) :
    scale f x.value = x.exponent := by
  obtain ⟨hlt, hmin, -, hlong⟩ := x.canonical
  have hm : (0 : ℚ) < x.significand := by exact_mod_cast Nat.pos_of_ne_zero hx
  have hv : 0 < x.value := mul_pos hm (two_zpow_pos _)
  have hup : Int.log 2 x.value < x.exponent + f.digits := by
    rw [← Int.lt_zpow_iff_log_lt (by decide) hv, Nat.cast_ofNat, add_comm, zpow_add₀ two_ne_zero,
      zpow_natCast]
    exact mul_lt_mul_of_pos_right (by exact_mod_cast hlt) (two_zpow_pos _)
  rcases hlong with hlong | he
  · have hdown : x.exponent + f.digits - 1 ≤ Int.log 2 x.value := by
      rw [← Int.zpow_le_iff_le_log (by decide) hv, Nat.cast_ofNat,
        show x.exponent + f.digits - 1 = ((f.digits - 1 : ℕ) : ℤ) + x.exponent by omega,
        zpow_add₀ two_ne_zero, zpow_natCast]
      exact mul_le_mul_of_nonneg_right (by exact_mod_cast hlong) (two_zpow_pos _).le
    unfold scale
    omega
  · unfold scale
    omega

/-- A value is left alone by rounding. -/
theorem ofValue?_value (hf : 0 < f.digits) (x : Binary f) :
    ofValue? x.negative x.value = some x := by
  by_cases hx : x.significand = 0
  · have he : x.exponent = f.least := by
      rcases x.canonical.2.2.2 with h | h
      · rw [hx] at h
        exact absurd h (Nat.pow_pos two_pos).not_ge
      · exact h
    rw [ofValue?, if_pos ((value_eq_zero_iff x).mpr hx), zero?, ← hx, ← he, mk?_self]
  · have hq : x.value / 2 ^ x.exponent = x.significand :=
      mul_div_cancel_right₀ _ (two_zpow_pos _).ne'
    have hlt : x.significand ≠ Nat.pow 2 f.digits := x.canonical.1.ne
    rw [ofValue?, if_neg (mt (value_eq_zero_iff x).mp hx), scale_value hf hx, hq,
      nearestEven_natCast, if_neg hlt, mk?_self]

end Binary

end Screener
