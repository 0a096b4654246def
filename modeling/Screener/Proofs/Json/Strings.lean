import Mathlib.Tactic
import Screener.Json.Reader

namespace Screener.Json

theorem byteLength_append (a b : List Char) : byteLength (a ++ b) = byteLength a + byteLength b := by
  induction a with
  | nil => exact (Nat.zero_add _).symm
  | cons c a ih =>
    rw [List.cons_append, byteLength, byteLength, ih, Nat.add_assoc]

theorem fourHex_control : ∀ n < 0x20, (fourHex n).length = 4 ∧ byteLength (fourHex n) = 4 ∧
    (fourHex n).mapM hexValue? = some [0, 0, n / 16, n % 16] := by
  decide

theorem readHex_fourHex {n : ℕ} (hn : n < 0x20) (rest : List Char) :
    readHex (fourHex n ++ rest) = .ok (n, rest) := by
  obtain ⟨hlen, hbytes, hvalue⟩ := fourHex_control n hn
  have hlong : ¬ byteLength (fourHex n ++ rest) < 4 := by
    rw [byteLength_append]
    omega
  have htake : (fourHex n ++ rest).take 4 = fourHex n := List.take_left' hlen
  have hdrop : (fourHex n ++ rest).drop 4 = rest := List.drop_left' hlen
  have hsum : ((0 * 16 + 0) * 16 + n / 16) * 16 + n % 16 = n := by omega
  rw [readHex, if_neg hlong, htake, hvalue, hdrop]
  simp only [hsum]

theorem readCode_fourHex {n : ℕ} (hn : n < 0x20) (rest : List Char) :
    readCode (fourHex n ++ rest) = .ok (Char.ofNat n, rest) := by
  have hlow : ¬ (0xDC00 ≤ n ∧ n ≤ 0xDFFF) := by omega
  have hhigh : n < 0xD800 ∨ 0xDBFF < n := by omega
  rw [readCode, readHex_fourHex hn]
  simp only [bind, Except.bind, if_neg hlow, if_pos hhigh]

theorem readChars_escape (c : Char) (fuel : ℕ) {cs body rest : List Char}
    (h : readChars fuel cs = .ok (body, rest)) :
    readChars (fuel + 1) (escape c ++ cs) = .ok (c :: body, rest) := by
  unfold escape
  split
  case h_8 hquote hslash hb hf hn hr ht =>
    split
    · rename_i hc
      have hcode := readCode_fourHex hc cs
      rw [Char.ofNat_toNat] at hcode
      simp [readChars, hcode, h, bind, Except.bind]
    · rename_i hc
      rw [List.singleton_append, readChars]
      · simp [hc, h, bind, Except.bind]
      all_goals simp_all
  all_goals simp [readChars, unescape?, h, bind, Except.bind]

theorem readChars_flatMap (cs rest : List Char) {fuel : ℕ} (hf : cs.length < fuel) :
    readChars fuel (cs.flatMap escape ++ '"' :: rest) = .ok (cs, rest) := by
  induction cs generalizing fuel with
  | nil =>
    obtain ⟨fuel, rfl⟩ : ∃ n, fuel = n + 1 := ⟨fuel - 1, by rw [List.length_nil] at hf; omega⟩
    simp [readChars]
  | cons c cs ih =>
    rw [List.length_cons] at hf
    obtain ⟨fuel, rfl⟩ : ∃ n, fuel = n + 1 := ⟨fuel - 1, by omega⟩
    rw [List.flatMap_cons, List.append_assoc]
    exact readChars_escape c fuel (ih (by omega))

theorem escape_ne_nil (c : Char) : escape c ≠ [] := by
  unfold escape
  split
  case h_8 => split <;> simp
  all_goals simp

theorem length_le_flatMap_escape (cs : List Char) : cs.length ≤ (cs.flatMap escape).length := by
  induction cs with
  | nil => exact le_rfl
  | cons c cs ih =>
    have := List.length_pos_iff.mpr (escape_ne_nil c)
    rw [List.flatMap_cons, List.length_append, List.length_cons]
    omega

/-- A string is read back from behind its opening quote, whatever follows it. -/
theorem readString_escaped (s : String) (rest : List Char) :
    readString (s.toList.flatMap escape ++ '"' :: rest) = .ok (s, rest) := by
  have hfuel : s.toList.length < (s.toList.flatMap escape ++ '"' :: rest).length + 1 := by
    have := length_le_flatMap_escape s.toList
    rw [List.length_append]
    omega
  rw [readString, readChars_flatMap s.toList rest hfuel]
  simp only [bind, Except.bind, String.ofList_toList]

end Screener.Json
