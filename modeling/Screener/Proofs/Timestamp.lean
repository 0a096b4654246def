import Screener.Proofs.Number.Numeral
import Screener.Timestamp

namespace Screener.Timestamp

/-- A day of the calendar and a time of day, with a leap second only at the end of a minute. -/
structure Valid (t : Timestamp) : Prop where
  date : IsDate t.year t.month t.day
  hour : t.hour < 24
  minute : t.minute < 60
  second : t.second < 60
  nano : t.nano < nanosPerSecond ∨ t.second = 59 ∧ t.nano < 2 * nanosPerSecond

theorem isDigit_of_mem_padded {width n : ℕ} {c : Char} (h : c ∈ padded width n) :
    isDigit c = true := by
  rcases List.mem_append.mp h with h | h
  · rw [List.eq_of_mem_replicate h]
    rfl
  · exact isDigit_of_mem_digitsOf h

theorem padded_ne_nil (width n : ℕ) : padded width n ≠ [] :=
  List.append_ne_nil_of_right_ne_nil _ (digitsOf_ne_nil n)

theorem natOfDigits_padded (width n : ℕ) : natOfDigits (padded width n) = n := by
  rw [padded, natOfDigits_eq, Nat.ofDigitChars_append, Nat.ofDigitChars_replicate_zero, mul_zero]
  exact natOfDigits_digitsOf n

theorem length_padded {width n : ℕ} (hw : 0 < width) (h : n < 10 ^ width) :
    (padded width n).length = width := by
  have hle : (digitsOf n).length ≤ width := (Nat.length_toDigits_le_iff (by decide) hw).mpr h
  rw [padded, List.length_append, List.length_replicate]
  omega

/-- What follows is no digit, so a number before it ends there. -/
def Stops (rest : List Char) : Prop := ∀ c ∈ rest.head?, isDigit c = false

theorem stops_nil : Stops [] := nofun

theorem stops_cons {c : Char} (h : isDigit c = false) (rest : List Char) : Stops (c :: rest) := by
  intro d hd
  rwa [← Option.mem_some_iff.mp hd]

theorem readDigits_append {width : ℕ} {ds rest : List Char} (hne : ds ≠ [])
    (hd : ∀ c ∈ ds, isDigit c = true) (hw : ds.length ≤ width) (hr : Stops rest) :
    readDigits width (ds ++ rest) = .ok (ds, rest) := by
  have htake : ((ds ++ rest).take width).takeWhile isDigit = ds := by
    rw [List.take_append, List.take_of_length_le hw, List.takeWhile_append_of_pos hd]
    cases rest with
    | nil => simp
    | cons c rest =>
      have hc : isDigit c = false := hr c rfl
      cases hlen : width - ds.length with
      | zero => simp
      | succ k => simp [hc]
  obtain ⟨c, ds, rfl⟩ := List.exists_cons_of_ne_nil hne
  have hc : isDigit c = true := hd c List.mem_cons_self
  rw [List.cons_append] at htake ⊢
  simp only [readDigits, hc, if_true, htake]
  rw [← List.cons_append, List.drop_left]

theorem dropBlank_append {ds rest : List Char} (hne : ds ≠ [])
    (hd : ∀ c ∈ ds, isDigit c = true) : Text.dropBlank (ds ++ rest) = ds ++ rest := by
  obtain ⟨c, ds, rfl⟩ := List.exists_cons_of_ne_nil hne
  exact List.dropWhile_cons_of_neg (by simp [Text.isBlank_of_isDigit (hd c List.mem_cons_self)])

theorem readMark_cons {mark : Char} (h : Text.isBlank mark = false) (rest : List Char) :
    readMark mark (mark :: rest) = .ok rest := by
  have hdrop : Text.dropBlank (mark :: rest) = mark :: rest :=
    List.dropWhile_cons_of_neg (by simp [h])
  rw [readMark, hdrop]
  exact if_pos rfl

theorem readNumber_padded {low high n : ℕ} {rest : List Char} (hlow : low ≤ n) (hhigh : n ≤ high)
    (hn : n < 100) (hr : Stops rest) : readNumber 2 low high (padded 2 n ++ rest) = .ok (n, rest) := by
  have hdigits : ∀ c ∈ padded 2 n, isDigit c = true := fun _ => isDigit_of_mem_padded
  have hread := readDigits_append (padded_ne_nil 2 n) hdigits (length_padded (by decide) hn).le hr
  rw [readNumber, dropBlank_append (padded_ne_nil 2 n) hdigits, hread]
  show (if low ≤ natOfDigits (padded 2 n) ∧ natOfDigits (padded 2 n) ≤ high then _ else _) = _
  rw [natOfDigits_padded, if_pos ⟨hlow, hhigh⟩]

theorem padded_append_ne {width n : ℕ} {c : Char} (hc : isDigit c = false) (rest r : List Char) :
    padded width n ++ rest ≠ c :: r := by
  intro h
  obtain ⟨d, ds, hd⟩ := List.exists_cons_of_ne_nil (padded_ne_nil width n)
  rw [hd] at h
  obtain rfl : d = c := (List.cons.inj h).1
  have hdigit : isDigit d = true := isDigit_of_mem_padded (hd ▸ List.mem_cons_self)
  rw [hc] at hdigit
  cases hdigit

/-- A year of four digits. -/
theorem readYear_padded {n : ℕ} {rest : List Char} (hn : n < 10 ^ 4) (hr : Stops rest) :
    readYear (padded 4 n ++ rest) = .ok ((n : ℤ), rest) := by
  have hdigits : ∀ c ∈ padded 4 n, isDigit c = true := fun _ => isDigit_of_mem_padded
  have hread := readDigits_append (padded_ne_nil 4 n) hdigits (length_padded (by decide) hn).le hr
  have hsmall : (n : ℤ) < 2147483648 := by omega
  rw [readYear, dropBlank_append (padded_ne_nil 4 n) hdigits]
  split
  rename_i negative signed body hparts
  split at hparts
  · rename_i hsign
    exact absurd hsign (padded_append_ne (by decide) _ _)
  · rename_i hsign
    exact absurd hsign (padded_append_ne (by decide) _ _)
  · cases hparts
    simp [hread, natOfDigits_padded, hsmall, bind, Except.bind]

theorem readYear_signed {n : ℕ} {rest : List Char} (hn : n < 2147483648) (hr : Stops rest) :
    readYear ('-' :: (padded 4 n ++ rest)) = .ok (-(n : ℤ), rest) ∧
      readYear ('+' :: (padded 4 n ++ rest)) = .ok ((n : ℤ), rest) := by
  have hdigits : ∀ c ∈ padded 4 n, isDigit c = true := fun _ => isDigit_of_mem_padded
  have hlength : (padded 4 n).length ≤ (padded 4 n ++ rest).length := by simp
  have hread := readDigits_append (padded_ne_nil 4 n) hdigits hlength hr
  have hsmall : (n : ℤ) < 2147483648 := by omega
  have hminus : Text.dropBlank ('-' :: (padded 4 n ++ rest)) = '-' :: (padded 4 n ++ rest) := rfl
  have hplus : Text.dropBlank ('+' :: (padded 4 n ++ rest)) = '+' :: (padded 4 n ++ rest) := rfl
  rw [readYear, readYear, hminus, hplus]
  simp only [if_true, hread, bind, Except.bind, natOfDigits_padded, if_pos hsmall,
    Bool.false_eq_true, if_false, and_self]

theorem readYear_writeYear {y : ℤ} {rest : List Char} (hy : y.natAbs < 2147483648)
    (hr : Stops rest) : readYear (writeYear y ++ rest) = .ok (y, rest) := by
  unfold writeYear
  split
  · rename_i hfour
    rw [readYear_padded (by omega) hr, Int.toNat_of_nonneg hfour.1]
  · split
    · rename_i hneg
      rw [List.cons_append, (readYear_signed hy hr).1]
      have habs : -(y.natAbs : ℤ) = y := by omega
      rw [habs]
    · rename_i hpos
      rw [List.cons_append, (readYear_signed hy hr).2]
      have habs : (y.natAbs : ℤ) = y := by omega
      rw [habs]

theorem readFraction_padded {width n : ℕ} (hw : 0 < width) (hle : width ≤ 9) (h : n < 10 ^ width) :
    readFraction ('.' :: padded width n) = .ok (n * 10 ^ (9 - width), []) := by
  have hlength := length_padded hw h
  have hdigits : ∀ c ∈ padded width n, isDigit c = true := fun _ => isDigit_of_mem_padded
  have hread := readDigits_append (padded_ne_nil width n) hdigits (hlength.le.trans hle) stops_nil
  rw [List.append_nil] at hread
  rw [readFraction, hread]
  show Except.ok (natOfDigits (padded width n) * 10 ^ (9 - (padded width n).length), _) = _
  rw [natOfDigits_padded, hlength]
  rfl

theorem readFraction_writeFraction {nano : ℕ} (h : nano < nanosPerSecond) :
    readFraction (writeFraction nano) = .ok (nano, []) := by
  unfold nanosPerSecond at h
  unfold writeFraction nanosPerMilli nanosPerMicro
  split
  · rename_i hzero
    rw [hzero]
    rfl
  · split
    · rename_i hmilli
      rw [readFraction_padded (by decide) (by decide) (by omega)]
      have hback : nano / 1000000 * 10 ^ (9 - 3) = nano := by omega
      rw [hback]
    · split
      · rename_i hmicro
        rw [readFraction_padded (by decide) (by decide) (by omega)]
        have hback : nano / 1000 * 10 ^ (9 - 6) = nano := by omega
        rw [hback]
      · rw [readFraction_padded (by decide) (by decide) (by omega), Nat.sub_self, pow_zero, mul_one]

/-- A leap second is written as the second after the last one, and nothing else is. -/
theorem second_written {t : Timestamp} (h : t.Valid) :
    ∃ second nano, t.write =
        writeYear t.year ++ '-' :: (padded 2 t.month ++ '-' :: (padded 2 t.day ++ 'T' ::
          (padded 2 t.hour ++ ':' :: (padded 2 t.minute ++ ':' :: (padded 2 second ++
            writeFraction nano))))) ∧
      second ≤ 60 ∧ nano < nanosPerSecond ∧
      (if second = 60 then (59, nano + nanosPerSecond) else (second, nano)) = (t.second, t.nano) := by
  have hsecond := h.second
  have hnano := h.nano
  by_cases hleap : nanosPerSecond ≤ t.nano
  · refine ⟨t.second + 1, t.nano - nanosPerSecond, ?_, by omega, by omega, ?_⟩
    · simp only [write, if_pos hleap, List.append_assoc, List.cons_append]
    · rw [if_pos (by omega), Nat.sub_add_cancel hleap]
      have hlast : t.second = 59 := by omega
      rw [hlast]
  · refine ⟨t.second, t.nano, ?_, by omega, by omega, if_neg (by omega)⟩
    simp only [write, if_neg hleap, List.append_assoc, List.cons_append]

theorem stops_writeFraction (nano : ℕ) : Stops (writeFraction nano) := by
  unfold writeFraction
  split_ifs
  · exact stops_nil
  all_goals exact stops_cons (by decide) _

theorem daysInMonth_le (y : ℤ) (m : ℕ) : daysInMonth y m ≤ 31 := by
  unfold daysInMonth
  split_ifs <;> decide

/-- A time is read back from its text. -/
theorem ofChars_write {t : Timestamp} (h : t.Valid) : ofChars t.write = .ok t := by
  obtain ⟨second, nano, hwrite, hsecond, hnano, hback⟩ := second_written h
  obtain ⟨hlow, hhigh, hmonth, hmonth', hday, hday'⟩ := h.date
  have hhour := h.hour
  have hminute := h.minute
  have hdays := daysInMonth_le t.year t.month
  have hdash : ∀ rest, Stops ('-' :: rest) := stops_cons (by decide)
  have hcolon : ∀ rest, Stops (':' :: rest) := stops_cons (by decide)
  have hyear : t.year.natAbs < 2147483648 := by
    unfold yearMin at hlow
    unfold yearMax at hhigh
    omega
  -- One part after the other, each up to the mark that follows it.
  have hreadYear := fun rest => readYear_writeYear hyear (hdash rest)
  have hreadMonth := fun rest => readNumber_padded hmonth hmonth' (by omega) (hdash rest)
  have hreadDay : ∀ rest, readNumber 2 1 31 (padded 2 t.day ++ 'T' :: rest) =
      .ok (t.day, 'T' :: rest) :=
    fun rest => readNumber_padded hday (by omega) (by omega) (stops_cons (by decide) rest)
  have hreadHour : ∀ rest, readNumber 2 0 23 (padded 2 t.hour ++ ':' :: rest) =
      .ok (t.hour, ':' :: rest) :=
    fun rest => readNumber_padded (Nat.zero_le _) (by omega) (by omega) (hcolon rest)
  have hreadMinute : ∀ rest, readNumber 2 0 59 (padded 2 t.minute ++ ':' :: rest) =
      .ok (t.minute, ':' :: rest) :=
    fun rest => readNumber_padded (Nat.zero_le _) (by omega) (by omega) (hcolon rest)
  have hreadSecond := readNumber_padded (Nat.zero_le second) hsecond (by omega)
    (stops_writeFraction nano)
  have hreadDash := readMark_cons (show Text.isBlank '-' = false by decide)
  have hreadT := readMark_cons (show Text.isBlank 'T' = false by decide)
  have hreadColon := readMark_cons (show Text.isBlank ':' = false by decide)
  rw [hwrite, ofChars]
  simp only [bind, Except.bind, hreadYear, hreadMonth, hreadDay, hreadHour, hreadMinute, hreadSecond,
    hreadDash, hreadT, hreadColon, readFraction_writeFraction hnano]
  rw [if_neg (by simp), if_neg (not_not.mpr h.date)]
  split_ifs at hback ⊢
  all_goals
    obtain ⟨hbackSecond, hbackNano⟩ := Prod.mk.inj hback
    rw [hbackSecond, hbackNano]

theorem ofChars_text {t : Timestamp} (h : t.Valid) : ofChars t.text.toList = .ok t := by
  rw [text, String.toList_ofList, ofChars_write h]

end Screener.Timestamp
