import Screener.Json.Printer
import Screener.Proofs.Number.ReadBack
import Screener.Text.Blank

namespace Screener

inductive IsPlain : List Char → Prop
  | whole (w : List Char) (hne : w ≠ []) (hw : ∀ c ∈ w, isDigit c = true) : IsPlain w
  | pointed (w r : List Char) (hne : w ≠ []) (hw : ∀ c ∈ w, isDigit c = true)
      (hr : ∀ c ∈ r, isDigit c = true) : IsPlain (w ++ '.' :: r)

/-- Digits, and after a point, if there is one, more digits. -/
inductive IsNumeral : List Char → Prop
  | whole {w : List Char} (hne : w ≠ []) (hw : ∀ c ∈ w, isDigit c = true) : IsNumeral w
  | pointed {w r : List Char} (hne : w ≠ []) (hw : ∀ c ∈ w, isDigit c = true) (hne' : r ≠ [])
      (hr : ∀ c ∈ r, isDigit c = true) : IsNumeral (w ++ '.' :: r)

theorem IsNumeral.isPlain {cs : List Char} (h : IsNumeral cs) : IsPlain cs := by
  cases h with
  | whole hne hw => exact .whole _ hne hw
  | pointed hne hw _ hr => exact .pointed _ _ hne hw hr

theorem Text.isBlank_of_isDigit {c : Char} (h : isDigit c = true) : Text.isBlank c = false := by
  rw [isDigit, Bool.and_eq_true, decide_eq_true_iff, decide_eq_true_iff] at h
  obtain ⟨hlow, hhigh⟩ : 48 ≤ c.toNat ∧ c.toNat ≤ 57 := h
  simp only [Text.isBlank, Bool.or_eq_false_iff, Bool.and_eq_false_imp, decide_eq_true_eq,
    decide_eq_false_iff_not, beq_eq_false_iff_ne]
  omega

theorem natOfDigits_eq (cs : List Char) : natOfDigits cs = Nat.ofDigitChars 10 cs 0 := rfl

theorem isDigit_of_mem_digitsOf {n : ℕ} {c : Char} (h : c ∈ digitsOf n) : isDigit c = true :=
  Nat.isDigit_of_mem_toDigits (by decide) (by decide) h

theorem digitsOf_ne_nil (n : ℕ) : digitsOf n ≠ [] := Nat.toDigits_ne_nil

theorem natOfDigits_digitsOf (n : ℕ) : natOfDigits (digitsOf n) = n :=
  Nat.ofDigitChars_ten_toDigits

theorem digitsOf_injective : Function.Injective digitsOf := by
  intro m n h
  rw [← natOfDigits_digitsOf m, h, natOfDigits_digitsOf]

theorem isNumeral_digitsOf (n : ℕ) : IsNumeral (digitsOf n) :=
  .whole (digitsOf_ne_nil n) fun _ => isDigit_of_mem_digitsOf

theorem isPlain_digitsOf (n : ℕ) : IsPlain (digitsOf n) := (isNumeral_digitsOf n).isPlain

theorem spanDigits_append {ds rest : List Char} (hd : ∀ c ∈ ds, isDigit c = true)
    (hr : ∀ c ∈ rest.head?, isDigit c = false) : spanDigits (ds ++ rest) = (ds, rest) := by
  rw [spanDigits, List.span_eq_takeWhile_dropWhile, List.takeWhile_append_of_pos hd,
    List.dropWhile_append_of_pos hd]
  cases rest with
  | nil => simp
  | cons c rest =>
    have hc : isDigit c = false := hr c rfl
    simp [hc]

theorem spanDigits_self {ds : List Char} (hd : ∀ c ∈ ds, isDigit c = true) :
    spanDigits ds = (ds, []) := by
  have hr : ∀ c ∈ ([] : List Char).head?, isDigit c = false := by simp
  simpa using spanDigits_append hd hr

theorem IsPlain.head {cs : List Char} (h : IsPlain cs) : ∃ c r, cs = c :: r ∧ isDigit c = true := by
  cases h with
  | whole w hne hw =>
    obtain ⟨c, r, rfl⟩ := List.exists_cons_of_ne_nil hne
    exact ⟨c, r, rfl, hw c (by simp)⟩
  | pointed w r hne hw _ =>
    obtain ⟨c, w, rfl⟩ := List.exists_cons_of_ne_nil hne
    exact ⟨c, _, rfl, hw c (by simp)⟩

theorem spanSign_of_isPlain {cs : List Char} (h : IsPlain cs) : spanSign cs = (false, cs) := by
  obtain ⟨c, r, rfl, hc⟩ := h.head
  unfold spanSign
  split
  · rename_i he
    cases he
    exact absurd hc (by decide)
  · rename_i he
    cases he
    exact absurd hc (by decide)
  · rfl

def signed (negative : Bool) (cs : List Char) : List Char := if negative then '-' :: cs else cs

theorem spanSign_signed (negative : Bool) {cs : List Char} (h : IsPlain cs) :
    spanSign (signed negative cs) = (negative, cs) := by
  cases negative with
  | true => rfl
  | false => exact spanSign_of_isPlain h

theorem not_mem_of_digits {ds : List Char} (hd : ∀ c ∈ ds, isDigit c = true) {c : Char}
    (hc : isDigit c = false) : c ∉ ds := fun h => by simp [hd c h] at hc

namespace Numeral

theorem decimal?_whole (negative : Bool) {w : List Char} (hne : w ≠ [])
    (hw : ∀ c ∈ w, isDigit c = true) :
    decimal? (signed negative w) = some (negative, ⟨natOfDigits w, 0⟩) := by
  simp [decimal?, spanSign_signed negative (.whole w hne hw), spanDigits_self hw, spanFraction,
    hne, exponent?]

theorem decimal?_pointed (negative : Bool) {w r : List Char} (hne : w ≠ [])
    (hw : ∀ c ∈ w, isDigit c = true) (hr : ∀ c ∈ r, isDigit c = true) :
    decimal? (signed negative (w ++ '.' :: r)) =
      some (negative, ⟨natOfDigits (w ++ r), -r.length⟩) := by
  have hspan : spanDigits (w ++ '.' :: r) = (w, '.' :: r) :=
    spanDigits_append hw (by intro c hc; cases hc; decide)
  simp [decimal?, spanSign_signed negative (.pointed w r hne hw hr), hspan, spanFraction,
    spanDigits_self hr, hne, exponent?]

/-- A numeral is rounded as the decimal that it spells. -/
theorem read?_of_decimal? {cs : List Char} {negative : Bool} {d : Decimal}
    (h : decimal? cs = some (negative, d)) :
    (read? cs : Option Double) = Binary.ofValue? negative d.value := by
  rw [read?, h]
  exact Binary.ofDecimal?_eq_ofValue? negative d.coefficient d.exponent

end Numeral

def Decimal.digits (d : Decimal) : List Char := Layout.plain.positional d

/-- Taking a decimal apart: with a point just where the exponent is negative. -/
theorem Decimal.digits_cases (d : Decimal) :
    (0 ≤ d.exponent ∧ d.digits ≠ [] ∧ (∀ c ∈ d.digits, isDigit c = true) ∧
      natOfDigits d.digits = d.coefficient * 10 ^ d.exponent.toNat) ∨
    (d.exponent < 0 ∧ ∃ w r, d.digits = w ++ '.' :: r ∧ w ≠ [] ∧ (∀ c ∈ w, isDigit c = true) ∧
      (∀ c ∈ r, isDigit c = true) ∧ natOfDigits (w ++ r) = d.coefficient ∧
      d.exponent = -r.length) := by
  by_cases h : 0 ≤ d.exponent
  · have hd : d.digits = digitsOf d.coefficient ++ List.replicate d.exponent.toNat '0' := by
      simp [Decimal.digits, Layout.positional, h, Layout.plain]
    refine Or.inl ⟨h, by simp [hd, digitsOf_ne_nil], ?_, ?_⟩
    · rw [hd]
      intro c hc
      rcases List.mem_append.mp hc with hc | hc
      · exact isDigit_of_mem_digitsOf hc
      · rw [List.eq_of_mem_replicate hc]
        rfl
    · rw [hd, natOfDigits_eq, Nat.ofDigitChars_append, Nat.ofDigitChars_replicate_zero,
        ← natOfDigits_eq, natOfDigits_digitsOf, mul_comm]
  · -- Zeros are put in front so that a digit is left before the point.
    set places := (-d.exponent).toNat with hp
    set padded := List.replicate (places + 1 - (digitsOf d.coefficient).length) '0' ++
      digitsOf d.coefficient with hpad
    have hd : d.digits = padded.take (padded.length - places) ++
        '.' :: padded.drop (padded.length - places) := by
      simp only [Decimal.digits, Layout.positional, if_neg h]
      rfl
    have hlen : places < padded.length := by
      simp only [hpad, List.length_append, List.length_replicate]
      omega
    have hall : ∀ c ∈ padded, isDigit c = true := by
      intro c hc
      rcases List.mem_append.mp hc with hc | hc
      · rw [List.eq_of_mem_replicate hc]
        rfl
      · exact isDigit_of_mem_digitsOf hc
    refine Or.inr ⟨by omega, _, _, hd, ?_, fun c hc => hall c (List.mem_of_mem_take hc),
      fun c hc => hall c (List.mem_of_mem_drop hc), ?_, ?_⟩
    · rw [← List.length_pos_iff, List.length_take]
      omega
    · rw [List.take_append_drop, hpad, natOfDigits_eq, Nat.ofDigitChars_append,
        Nat.ofDigitChars_replicate_zero, mul_zero]
      exact natOfDigits_digitsOf d.coefficient
    · rw [List.length_drop]
      omega

theorem Decimal.isNumeral_digits (d : Decimal) : IsNumeral d.digits := by
  rcases d.digits_cases with ⟨-, hne, hall, -⟩ | ⟨he, w, r, hd, hne, hw, hr, -, hlen⟩
  · exact .whole hne hall
  · have hne' : r ≠ [] := by
      rintro rfl
      simp [hlen] at he
    rw [hd]
    exact .pointed hne hw hne' hr

namespace Binary

variable (x : Double)

def digits : List Char := (x.shortest .up).digits

/-- The whole number that the digits spell if there is no point among them. -/
def spelledInt : ℤ := if x.negative then -(natOfDigits x.digits : ℤ) else natOfDigits x.digits

theorem render_plain : x.render .plain = signed x.negative x.digits := rfl

theorem isNumeral_digits : IsNumeral x.digits := Decimal.isNumeral_digits _

theorem isPlain_digits : IsPlain x.digits := x.isNumeral_digits.isPlain

/-- The text of a number reads back as the number, the sign of a zero included. -/
theorem read?_render_plain : Numeral.read? (x.render .plain) = some x := by
  have hback := x.readsBack_shortest .up
  rw [render_plain, digits]
  rcases (x.shortest .up).digits_cases with ⟨he, hne, hall, hval⟩ |
    ⟨-, w, r, hd, hne, hw, hr, hval, he⟩
  · rw [Numeral.read?_of_decimal? (Numeral.decimal?_whole _ hne hall), hval]
    have hv :
        Decimal.value ⟨(x.shortest .up).coefficient * 10 ^ (x.shortest .up).exponent.toNat, 0⟩ =
          (x.shortest .up).value := by
      simp only [Decimal.value, zpow_zero, mul_one]
      push_cast
      rw [← zpow_natCast, Int.toNat_of_nonneg he]
    rw [hv]
    exact hback
  · rw [hd, Numeral.read?_of_decimal? (Numeral.decimal?_pointed _ hne hw hr), hval, ← he]
    exact hback

theorem text_injective : Function.Injective (Binary.text (f := .double)) := by
  intro x y h
  have he := congrArg (fun t : String => (Numeral.read? t.toList : Option Double)) h
  simpa only [Binary.text, String.toList_ofList, read?_render_plain, Option.some.injEq] using he

end Binary

theorem writeInt_eq (n : ℤ) : Json.writeInt n = signed (n < 0) (digitsOf n.natAbs) := by
  by_cases h : n < 0 <;> simp [Json.writeInt, signed, h]

end Screener
