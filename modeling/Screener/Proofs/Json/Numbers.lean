import Screener.Json.Reader
import Screener.Proofs.Number.Numeral

namespace Screener

/-- Digits before a point or an exponent: a zero in front stands alone. -/
structure IsLeading (w : List Char) : Prop where
  ne_nil : w ≠ []
  digits : ∀ c ∈ w, isDigit c = true
  zero : w.head? = some '0' → w = ['0']

theorem IsLeading.head {w : List Char} (hw : IsLeading w) :
    ∃ c r, w = c :: r ∧ isDigit c = true := by
  obtain ⟨c, r, rfl⟩ := List.exists_cons_of_ne_nil hw.ne_nil
  exact ⟨c, r, rfl, hw.digits c List.mem_cons_self⟩

theorem isLeading_singleton {c : Char} (hc : isDigit c = true) : IsLeading [c] where
  ne_nil := List.cons_ne_nil _ _
  digits := by simpa using hc
  zero := by
    intro h
    rw [Option.some.inj h]

theorem head?_digitsOf_ne_zero {n : ℕ} (hn : n ≠ 0) : (digitsOf n).head? ≠ some '0' := by
  induction n using Nat.strong_induction_on with
  | _ n ih =>
    rw [digitsOf, Nat.toDigits_eq_if (by decide)]
    split
    · simpa using hn
    · have hdiv : n / 10 ≠ 0 := by omega
      have hhead := ih (n / 10) (by omega) hdiv
      rw [List.head?_append_of_ne_nil _ Nat.toDigits_ne_nil]
      exact hhead

theorem isLeading_digitsOf (n : ℕ) : IsLeading (digitsOf n) where
  ne_nil := digitsOf_ne_nil n
  digits := fun _ => isDigit_of_mem_digitsOf
  zero := by
    intro h
    by_cases hn : n = 0
    · rw [hn]
      rfl
    · exact absurd h (head?_digitsOf_ne_zero hn)

theorem IsLeading.append_zeros {n : ℕ} (hn : n ≠ 0) (k : ℕ) :
    IsLeading (digitsOf n ++ List.replicate k '0') where
  ne_nil := by simp [digitsOf_ne_nil]
  digits := by
    intro c hc
    rcases List.mem_append.mp hc with hc | hc
    · exact isDigit_of_mem_digitsOf hc
    · rw [List.eq_of_mem_replicate hc]
      rfl
  zero := by
    rw [List.head?_append_of_ne_nil _ (digitsOf_ne_nil n)]
    exact fun h => absurd h (head?_digitsOf_ne_zero hn)

theorem Decimal.positional_neg (l : Layout) {d : Decimal} (he : d.exponent < 0) :
    ∃ w r, l.positional d = w ++ '.' :: r ∧ IsLeading w ∧ r ≠ [] ∧
      (∀ c ∈ r, isDigit c = true) ∧ natOfDigits (w ++ r) = d.coefficient ∧
      d.exponent = -r.length := by
  set places := (-d.exponent).toNat with hp
  set ds := digitsOf d.coefficient with hds
  set padded := List.replicate (places + 1 - ds.length) '0' ++ ds with hpad
  have hplaces : 0 < places := by omega
  have hdigits : ∀ c ∈ padded, isDigit c = true := by
    intro c hc
    rcases List.mem_append.mp hc with hc | hc
    · rw [List.eq_of_mem_replicate hc]
      rfl
    · exact isDigit_of_mem_digitsOf hc
  have hlen : places < padded.length := by
    simp only [hpad, List.length_append, List.length_replicate]
    omega
  have hzero : (padded.take (padded.length - places)).head? = some '0' →
      padded.take (padded.length - places) = ['0'] := by
    intro h
    rcases Nat.lt_or_ge places ds.length with hlong | hshort
    · -- No zero was put in front, so the first digit is that of the coefficient.
      have hself : padded = ds := by
        rw [hpad, show places + 1 - ds.length = 0 by omega]
        rfl
      rw [hself] at h hlen ⊢
      rw [List.head?_take, if_neg (by omega)] at h
      have hone : ds.length = 1 := congrArg List.length ((isLeading_digitsOf d.coefficient).zero h)
      omega
    · have hone : padded.length - places = 1 := by
        simp only [hpad, List.length_append, List.length_replicate]
        omega
      rw [hone] at h ⊢
      have hne : padded ≠ [] := List.ne_nil_of_length_pos (by omega)
      obtain ⟨c, r, hc⟩ := List.exists_cons_of_ne_nil hne
      rw [hc] at h ⊢
      simpa using h
  refine ⟨padded.take (padded.length - places), padded.drop (padded.length - places), ?_,
    ⟨?_, fun c hc => hdigits c (List.mem_of_mem_take hc), hzero⟩, ?_,
    fun c hc => hdigits c (List.mem_of_mem_drop hc), ?_, ?_⟩
  · rw [Layout.positional, if_neg (by omega)]
  · rw [← List.length_pos_iff, List.length_take]
    omega
  · rw [← List.length_pos_iff, List.length_drop]
    omega
  · rw [List.take_append_drop, hpad, natOfDigits_eq, Nat.ofDigitChars_append,
      Nat.ofDigitChars_replicate_zero, mul_zero]
    exact natOfDigits_digitsOf d.coefficient
  · rw [List.length_drop]
    omega

namespace Json

/-- What follows is no part of a number. -/
def NumberEnds (rest : List Char) : Prop :=
  ∀ c ∈ rest.head?, isDigit c = false ∧ c ≠ '.' ∧ c ≠ 'e' ∧ c ≠ 'E'

theorem NumberEnds.nil : NumberEnds [] := by simp [NumberEnds]

theorem NumberEnds.cons {c : Char} (rest : List Char)
    (hc : isDigit c = false ∧ c ≠ '.' ∧ c ≠ 'e' ∧ c ≠ 'E') : NumberEnds (c :: rest) := by
  intro a ha
  cases ha
  exact hc

theorem NumberEnds.not_digit {rest : List Char} (h : NumberEnds rest) :
    ∀ c ∈ rest.head?, isDigit c = false := fun c hc => (h c hc).1

theorem readWhole_append {w rest : List Char} (hw : IsLeading w)
    (hr : ∀ c ∈ rest.head?, isDigit c = false) : readWhole (w ++ rest) = .ok (w, rest) := by
  obtain ⟨c, r, rfl⟩ := List.exists_cons_of_ne_nil hw.ne_nil
  by_cases hc : c = '0'
  · have hone : c :: r = ['0'] := hw.zero (by rw [hc]; rfl)
    have hnone : rest.head?.any isDigit = false := by
      cases rest with
      | nil => rfl
      | cons a rest => simpa using hr a rfl
    rw [hone]
    simp [readWhole, hnone]
  · have hspan := spanDigits_append hw.digits hr
    have hd : isDigit c = true := hw.digits c List.mem_cons_self
    rw [List.cons_append] at hspan ⊢
    rw [readWhole]
    · rw [if_pos hd, hspan]
    · exact hc

theorem readFraction_append {r rest : List Char} (hne : r ≠ []) (hr : ∀ c ∈ r, isDigit c = true)
    (hrest : ∀ c ∈ rest.head?, isDigit c = false) : readFraction (r ++ rest) = .ok (r, rest) := by
  simp [readFraction, spanDigits_append hr hrest, hne]

theorem spanExponent_append {ds rest : List Char} (hd : ∀ c ∈ ds, isDigit c = true)
    (hrest : ∀ c ∈ rest.head?, isDigit c = false) {n : ℕ}
    (hn : Nat.ofDigitChars 10 ds n ≤ exponentLimit) :
    spanExponent n (ds ++ rest) = (Nat.ofDigitChars 10 ds n, true, rest) := by
  induction ds generalizing n with
  | nil =>
    cases rest with
    | nil => rfl
    | cons c rest =>
      have hc : isDigit c = false := hrest c rfl
      simp [spanExponent, hc]
  | cons c ds ih =>
    have hc : isDigit c = true := hd c List.mem_cons_self
    rw [Nat.ofDigitChars_cons] at hn ⊢
    have hle : 10 * n + (c.toNat - '0'.toNat) ≤ exponentLimit := by
      refine le_trans ?_ hn
      rw [Nat.ofDigitChars_eq_ofDigitChars_zero]
      exact le_add_right (Nat.le_mul_of_pos_left _ (Nat.pow_pos (by decide)))
    rw [List.cons_append, spanExponent, if_pos hc]
    simp only [if_neg hle.not_gt]
    exact ih (fun a ha => hd a (List.mem_cons_of_mem _ ha)) hn

def pointed (r : List Char) : List Char := if r = [] then [] else '.' :: r

/-- Digits and an exponent that stand for a decimal of `x` are read as `x`. -/
theorem roundNumber_of_readsBack {x : Double} {d : Decimal} (hd : x.ReadsBack d) {ds : List Char}
    {k : ℤ} (hv : (natOfDigits ds * 10 ^ k : ℚ) = d.value) (cs : List Char) :
    roundNumber x.negative ds k cs = .ok (float x, cs) := by
  rw [roundNumber, Binary.ofDecimal?_eq_ofValue?, hv, hd]

section

variable (negative : Bool) {w r p rest : List Char}

theorem readNumber_pointed (hw : IsLeading w) (hne : r ≠ []) (hr : ∀ c ∈ r, isDigit c = true)
    (hrest : NumberEnds rest) :
    readNumber negative (w ++ '.' :: (r ++ rest)) =
      roundNumber negative (w ++ r) (-(r.length : ℤ)) rest := by
  have hwhole : readWhole (w ++ '.' :: (r ++ rest)) = .ok (w, '.' :: (r ++ rest)) :=
    readWhole_append hw (by intro c hc; cases hc; rfl)
  have hfraction := readFraction_append hne hr hrest.not_digit
  rw [readNumber, hwhole]
  simp only [bind, Except.bind, hfraction]
  split
  · exact absurd rfl (hrest 'e' rfl).2.2.1
  · exact absurd rfl (hrest 'E' rfl).2.2.2
  · rfl

theorem readExponent_append {sign : Char} (hs : sign = '+' ∨ sign = '-') (hne : p ≠ [])
    (hp : ∀ c ∈ p, isDigit c = true) (hle : natOfDigits p ≤ exponentLimit)
    (hrest : NumberEnds rest) (ds : List Char) (k : ℤ) :
    readExponent negative ds k (sign :: (p ++ rest)) =
      roundNumber negative ds (if sign = '-' then k - natOfDigits p else k + natOfDigits p) rest := by
  have hspan : spanExponent 0 (p ++ rest) = (natOfDigits p, true, rest) :=
    spanExponent_append hp hrest.not_digit hle
  obtain ⟨c, p, rfl⟩ := List.exists_cons_of_ne_nil hne
  have hc : isDigit c = true := hp c List.mem_cons_self
  rw [List.cons_append] at hspan ⊢
  rcases hs with rfl | rfl <;> simp [readExponent, spanSign, hc, hspan]

theorem readNumber_exponent (hw : IsLeading w) (hr : ∀ c ∈ r, isDigit c = true) {sign : Char}
    (hs : sign = '+' ∨ sign = '-') (hne : p ≠ []) (hp : ∀ c ∈ p, isDigit c = true)
    (hle : natOfDigits p ≤ exponentLimit) (hrest : NumberEnds rest) :
    readNumber negative (w ++ (pointed r ++ 'e' :: sign :: (p ++ rest))) =
      roundNumber negative (w ++ r)
        (if sign = '-' then -(r.length : ℤ) - natOfDigits p else -r.length + natOfDigits p) rest := by
  have hread := readExponent_append negative hs hne hp hle hrest
  by_cases hr0 : r = []
  · have hwhole : readWhole (w ++ 'e' :: sign :: (p ++ rest)) =
        .ok (w, 'e' :: sign :: (p ++ rest)) :=
      readWhole_append hw (by intro c hc; cases hc; rfl)
    rw [pointed, if_pos hr0, List.nil_append, readNumber, hwhole, hr0, List.append_nil]
    exact hread w 0
  · have hwhole : readWhole (w ++ '.' :: (r ++ 'e' :: sign :: (p ++ rest))) =
        .ok (w, '.' :: (r ++ 'e' :: sign :: (p ++ rest))) :=
      readWhole_append hw (by intro c hc; cases hc; rfl)
    have hfraction : readFraction (r ++ 'e' :: sign :: (p ++ rest)) =
        .ok (r, 'e' :: sign :: (p ++ rest)) :=
      readFraction_append hr0 hr (by intro c hc; cases hc; rfl)
    rw [pointed, if_neg hr0, List.cons_append, readNumber, hwhole]
    simp only [bind, Except.bind, hfraction]
    exact hread (w ++ r) (-(r.length : ℤ))

end

end Json

theorem pow_decimalLength_le {n : ℕ} (hn : n ≠ 0) : 10 ^ (decimalLength n - 1) ≤ n := by
  by_contra! h
  rcases Nat.eq_zero_or_pos (decimalLength n - 1) with h0 | hpos
  · rw [h0] at h
    omega
  · have hle := (Nat.length_toDigits_le_iff (by decide) hpos).mpr h
    have hlen : decimalLength n = (Nat.toDigits 10 n).length := rfl
    omega

namespace Decimal

def top (d : Decimal) : ℤ := d.exponent + decimalLength d.coefficient - 1

theorem value_bounds {d : Decimal} (hd : d.coefficient ≠ 0) :
    (10 : ℚ) ^ d.top ≤ d.value ∧ d.value < 10 ^ (d.top + 1) := by
  have hlen : 0 < decimalLength d.coefficient := Nat.length_toDigits_pos
  have h10 : (0 : ℚ) < 10 ^ d.exponent := zpow_pos (by norm_num) _
  constructor
  · have hlow : ((10 ^ (decimalLength d.coefficient - 1) : ℕ) : ℚ) ≤ d.coefficient := by
      exact_mod_cast pow_decimalLength_le hd
    have htop : d.top = ((decimalLength d.coefficient - 1 : ℕ) : ℤ) + d.exponent := by
      unfold top
      omega
    rw [htop, zpow_add₀ (by norm_num), zpow_natCast]
    push_cast at hlow
    exact mul_le_mul_of_nonneg_right hlow h10.le
  · have hhigh : (d.coefficient : ℚ) < ((10 ^ decimalLength d.coefficient : ℕ) : ℚ) := by
      exact_mod_cast lt_pow_decimalLength d.coefficient
    have htop : d.top + 1 = (decimalLength d.coefficient : ℤ) + d.exponent := by
      unfold top
      omega
    rw [htop, zpow_add₀ (by norm_num), zpow_natCast]
    push_cast at hhigh
    exact mul_lt_mul_of_pos_right hhigh h10

end Decimal

namespace Binary

variable {x : Double} {d : Decimal}

theorem coefficient_ne_zero (hx : x.significand ≠ 0) (hd : x.ReadsBack d) : d.coefficient ≠ 0 := by
  intro h
  have hv : d.value = 0 := by simp [Decimal.value, h]
  rw [ReadsBack, hv, ofValue?, if_pos rfl] at hd
  exact hx (mk?_eq_some hd).2.1

/-- Decimals of doubles are far from the largest exponent that is taken in. -/
theorem top_bounds (hx : x.significand ≠ 0) (hd : x.ReadsBack d) : -1076 < d.top ∧ d.top < 1024 := by
  obtain ⟨hlow, hhigh⟩ := Decimal.value_bounds (coefficient_ne_zero hx hd)
  have h10 : (1 : ℚ) < 10 := by norm_num
  have hv : 0 ≤ d.value := (zpow_pos (by norm_num) _).le.trans hlow
  rw [ReadsBack] at hd
  constructor
  · -- Anything smaller is rounded to zero.
    by_contra! h
    have hsmall : d.value < 2 ^ (Format.double.least - 1) := by
      calc d.value < 10 ^ (d.top + 1) := hhigh
        _ ≤ 10 ^ (-1075 : ℤ) := zpow_le_zpow_right₀ h10.le (by omega)
        _ ≤ 2 ^ (3 * (-1075) : ℤ) := ten_zpow_le (by decide)
        _ ≤ 2 ^ (Format.double.least - 1) := zpow_le_zpow_right₀ one_le_two (by decide)
    rw [ofValue?_eq_zero? x.negative hv hsmall] at hd
    exact hx (mk?_eq_some hd).2.1
  · by_contra! h
    have hlarge : (2 : ℚ) ^ (Format.double.most + Format.double.digits) ≤ d.value := by
      calc (2 : ℚ) ^ (Format.double.most + Format.double.digits)
          ≤ 2 ^ (3 * 1024 : ℤ) := zpow_le_zpow_right₀ one_le_two (by decide)
        _ ≤ 10 ^ (1024 : ℤ) := le_ten_zpow (by decide)
        _ ≤ 10 ^ d.top := zpow_le_zpow_right₀ h10.le h
        _ ≤ d.value := hlow
    rw [ofValue?_eq_none x.negative hlarge] at hd
    cases hd

end Binary

theorem Decimal.positional_json {d : Decimal} (hd : d.coefficient = 0 → d.exponent = 0) :
    ∃ w r, Layout.json.positional d = w ++ '.' :: r ∧ IsLeading w ∧ r ≠ [] ∧
      (∀ c ∈ r, isDigit c = true) ∧
      (natOfDigits (w ++ r) * 10 ^ (-(r.length : ℤ)) : ℚ) = d.value := by
  by_cases he : d.exponent < 0
  · obtain ⟨w, r, h, hw, hne, hr, hval, hlen⟩ := d.positional_neg Layout.json he
    refine ⟨w, r, h, hw, hne, hr, ?_⟩
    rw [hval, ← hlen, Decimal.value]
  · set w := digitsOf d.coefficient ++ List.replicate d.exponent.toNat '0' with hwdef
    have hw : IsLeading w := by
      by_cases hc : d.coefficient = 0
      · rw [hwdef, hd hc]
        simpa using isLeading_digitsOf d.coefficient
      · exact .append_zeros hc _
    have hval : natOfDigits (w ++ ['0']) = 10 * (10 ^ d.exponent.toNat * d.coefficient) := by
      have hzero : ['0'] = List.replicate 1 '0' := rfl
      rw [hzero, natOfDigits_eq, Nat.ofDigitChars_append, Nat.ofDigitChars_replicate_zero, pow_one,
        hwdef, Nat.ofDigitChars_append, Nat.ofDigitChars_replicate_zero, ← natOfDigits_eq,
        natOfDigits_digitsOf]
    refine ⟨w, ['0'], ?_, hw, List.cons_ne_nil _ _, ?_, ?_⟩
    · rw [Layout.positional, if_pos (not_lt.mp he), hwdef]
      rfl
    · intro c hc
      rw [List.mem_singleton.mp hc]
      rfl
    · have hexp : (10 : ℚ) ^ d.exponent = 10 ^ d.exponent.toNat := by
        rw [← zpow_natCast, Int.toNat_of_nonneg (not_lt.mp he)]
      rw [hval, Decimal.value, hexp, List.length_singleton, Nat.cast_one, zpow_neg_one]
      push_cast
      ring

namespace Json

def signOf (n : ℤ) : Char := if n < 0 then '-' else '+'

theorem signOf_eq_or (n : ℤ) : signOf n = '+' ∨ signOf n = '-' := by
  unfold signOf
  split <;> simp

theorem scientific_json (d : Decimal) (n : ℤ) {c : Char} {r : List Char}
    (h : digitsOf d.coefficient = c :: r) :
    Layout.json.scientific d n = c :: (pointed r ++ 'e' :: signOf n :: digitsOf n.natAbs) := by
  have hpad : Layout.json.exponentWidth - (digitsOf n.natAbs).length = 0 := by
    have hpos : 0 < (digitsOf n.natAbs).length := List.length_pos_iff.mpr (digitsOf_ne_nil _)
    show 1 - (digitsOf n.natAbs).length = 0
    omega
  unfold Layout.scientific
  simp only [h, hpad, List.replicate_zero, List.nil_append]
  cases r <;> rfl

section

variable {x : Double} {d : Decimal} {rest : List Char}

theorem readNumber_positional (hx : x.ReadsBack d) (hd : d.coefficient = 0 → d.exponent = 0)
    (hrest : NumberEnds rest) :
    readNumber x.negative (Layout.json.positional d ++ rest) = .ok (float x, rest) := by
  obtain ⟨w, r, h, hw, hne, hr, hval⟩ := Decimal.positional_json hd
  rw [h, List.append_assoc, List.cons_append, readNumber_pointed _ hw hne hr hrest]
  exact roundNumber_of_readsBack hx hval rest

theorem readNumber_scientific (hx : x.ReadsBack d) (htop : d.top.natAbs ≤ exponentLimit)
    (hrest : NumberEnds rest) :
    readNumber x.negative (Layout.json.scientific d d.top ++ rest) = .ok (float x, rest) := by
  obtain ⟨c, r, hds⟩ := List.exists_cons_of_ne_nil (digitsOf_ne_nil d.coefficient)
  have hall : ∀ a ∈ c :: r, isDigit a = true := by
    rw [← hds]
    exact fun _ => isDigit_of_mem_digitsOf
  have hp : natOfDigits (digitsOf d.top.natAbs) = d.top.natAbs := natOfDigits_digitsOf _
  have hval : (natOfDigits ([c] ++ r) * 10 ^ d.exponent : ℚ) = d.value := by
    rw [List.singleton_append, ← hds, natOfDigits_digitsOf, Decimal.value]
  -- The exponent that is read is counted from the last digit.
  have hexp : (if signOf d.top = '-' then -(r.length : ℤ) - natOfDigits (digitsOf d.top.natAbs)
      else -r.length + natOfDigits (digitsOf d.top.natAbs)) = d.exponent := by
    have hlen : d.top = d.exponent + (r.length + 1 : ℕ) - 1 := by
      rw [← List.length_cons (a := c), ← hds]
      rfl
    rw [hp]
    by_cases ht : d.top < 0
    · rw [if_pos (by simp [signOf, ht])]
      omega
    · rw [if_neg (by simp [signOf, ht])]
      omega
  have hread := readNumber_exponent x.negative (isLeading_singleton (hall c List.mem_cons_self))
    (fun a ha => hall a (List.mem_cons_of_mem _ ha)) (signOf_eq_or d.top) (digitsOf_ne_nil _)
    (fun _ => isDigit_of_mem_digitsOf) (hp.trans_le htop) hrest
  rw [hexp, roundNumber_of_readsBack hx hval] at hread
  rw [scientific_json d d.top hds]
  simpa using hread

end

/-- The digits that are written for a number, its sign aside. -/
def floatDigits (x : Double) : List Char := Layout.json.render (x.shortest .toEven)

theorem writeFloat_eq (x : Double) : writeFloat x = signed x.negative (floatDigits x) := rfl

theorem significand_ne_zero {x : Double} (h : ¬ x.isZero = true) : x.significand ≠ 0 := by
  simpa [Binary.isZero] using h

theorem exponent_shortest (tie : Tie) {x : Double} (h : (x.shortest tie).coefficient = 0) :
    (x.shortest tie).exponent = 0 := by
  by_cases hx : x.isZero = true
  · rw [Binary.shortest, if_pos hx]
  · exact absurd h (Binary.coefficient_ne_zero (significand_ne_zero hx) (x.readsBack_shortest tie))

theorem top_shortest_le (tie : Tie) (x : Double) : (x.shortest tie).top.natAbs ≤ exponentLimit := by
  unfold exponentLimit
  by_cases hx : x.isZero = true
  · rw [Binary.shortest, if_pos hx]
    decide
  · have := Binary.top_bounds (significand_ne_zero hx) (x.readsBack_shortest tie)
    omega

/-- A number that is no integer is read back as it was written, whatever follows it. -/
theorem readNumber_floatDigits (x : Double) {rest : List Char} (hrest : NumberEnds rest) :
    readNumber x.negative (floatDigits x ++ rest) = .ok (float x, rest) := by
  have hback := x.readsBack_shortest .toEven
  unfold floatDigits Layout.render
  dsimp only
  split
  · exact readNumber_positional hback (exponent_shortest .toEven) hrest
  · exact readNumber_scientific hback (top_shortest_le .toEven x) hrest

theorem floatDigits_head (x : Double) : ∃ c r, floatDigits x = c :: r ∧ isDigit c = true := by
  unfold floatDigits Layout.render
  dsimp only
  split
  · obtain ⟨w, r, h, hw, -⟩ := Decimal.positional_json (d := x.shortest .toEven)
      (exponent_shortest .toEven)
    obtain ⟨c, w, rfl, hc⟩ := hw.head
    exact ⟨c, w ++ '.' :: r, h, hc⟩
  · obtain ⟨c, r, h, hc⟩ := (isLeading_digitsOf (x.shortest .toEven).coefficient).head
    exact ⟨c, _, scientific_json _ _ h, hc⟩

theorem readNumber_digitsOf {n : ℤ} (hn : IsWhole n) {rest : List Char} (hrest : NumberEnds rest) :
    readNumber (n < 0) (digitsOf n.natAbs ++ rest) = .ok (int n, rest) := by
  have hwhole := readWhole_append (isLeading_digitsOf n.natAbs) hrest.not_digit
  have hvalue : (if decide (n < 0) = true then -(n.natAbs : ℤ) else n.natAbs) = n := by
    by_cases h : n < 0
    · rw [if_pos (decide_eq_true h)]
      omega
    · rw [if_neg (by simpa using h)]
      omega
  have hkept : IsWhole n ∧ (decide (n < 0) = true → n.natAbs ≠ 0) := by
    refine ⟨hn, fun h => ?_⟩
    have := of_decide_eq_true h
    omega
  rw [readNumber, hwhole]
  simp only [bind, Except.bind]
  split
  · exact absurd rfl (hrest '.' rfl).2.1
  · exact absurd rfl (hrest 'e' rfl).2.2.1
  · exact absurd rfl (hrest 'E' rfl).2.2.2
  · rw [natOfDigits_digitsOf, hvalue, if_pos hkept]

end Json

end Screener
