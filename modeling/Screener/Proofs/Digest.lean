import Mathlib.Tactic
import Screener.Digest

namespace Screener.Digest

def lowDigits : ℕ → ℕ → List Char
  | 0, _ => []
  | count + 1, n => lowDigits count (n / 16) ++ [Nat.digitChar (n % 16)]

theorem length_lowDigits (count n : ℕ) : (lowDigits count n).length = count := by
  induction count generalizing n with
  | zero => rfl
  | succ count ih => rw [lowDigits, List.length_append, ih, List.length_singleton]

theorem digitChar_inj : ∀ d < 16, ∀ e < 16, Nat.digitChar d = Nat.digitChar e → d = e := by
  decide

theorem lowDigits_inj {count n m : ℕ} (hn : n < 16 ^ count) (hm : m < 16 ^ count)
    (h : lowDigits count n = lowDigits count m) : n = m := by
  induction count generalizing n m with
  | zero => omega
  | succ count ih =>
    rw [pow_succ] at hn hm
    obtain ⟨hhigh, hlow⟩ := List.append_inj' h rfl
    have hdiv : n / 16 = m / 16 := ih (by omega) (by omega) hhigh
    have hmod : n % 16 = m % 16 :=
      digitChar_inj _ (n.mod_lt (by decide)) _ (m.mod_lt (by decide)) (List.singleton_inj.mp hlow)
    omega

theorem replicate_toDigits {count n : ℕ} (h : n < 16 ^ (count + 1)) :
    List.replicate (count + 1 - (Nat.toDigits 16 n).length) '0' ++ Nat.toDigits 16 n =
      lowDigits (count + 1) n := by
  induction count generalizing n with
  | zero =>
    have hsmall : n < 16 := by simpa using h
    rw [Nat.toDigits_eq_if (by decide), if_pos hsmall, lowDigits, Nat.mod_eq_of_lt hsmall]
    rfl
  | succ count ih =>
    rw [lowDigits, Nat.toDigits_eq_if (by decide)]
    split
    · rename_i hsmall
      have hzero := ih (n := 0) (by positivity)
      rw [Nat.div_eq_of_lt hsmall, ← hzero, Nat.mod_eq_of_lt hsmall]
      congr 1
      simp [List.replicate_succ']
    · have hdiv := ih (n := n / 16) (by rw [pow_succ] at h; omega)
      rw [← hdiv, List.length_append, List.length_singleton, Nat.add_sub_add_right,
        List.append_assoc]

theorem hexWord_eq (w : Word) : hexWord w = lowDigits 8 w.toNat :=
  replicate_toDigits w.toNat_lt

theorem hexWord_inj {w w' : Word} (h : hexWord w = hexWord w') : w = w' := by
  rw [hexWord_eq, hexWord_eq] at h
  exact UInt32.toNat_inj.mp (lowDigits_inj w.toNat_lt w'.toNat_lt h)

theorem length_hexWord (w : Word) : (hexWord w).length = 8 := by
  rw [hexWord_eq, length_lowDigits]

theorem flatMap_hexWord_cons_ne_nil (w : Word) (ws : List Word) : (w :: ws).flatMap hexWord ≠ [] := by
  intro h
  have hlength := congrArg List.length h
  rw [List.flatMap_cons, List.length_append, length_hexWord, List.length_nil] at hlength
  omega

theorem flatMap_hexWord_inj {ws ws' : List Word} (h : ws.flatMap hexWord = ws'.flatMap hexWord) :
    ws = ws' := by
  induction ws generalizing ws' with
  | nil =>
    cases ws' with
    | nil => rfl
    | cons w' ws' => exact absurd h.symm (flatMap_hexWord_cons_ne_nil w' ws')
  | cons w ws ih =>
    cases ws' with
    | nil => exact absurd h (flatMap_hexWord_cons_ne_nil w ws)
    | cons w' ws' =>
      have hlength : (hexWord w).length = (hexWord w').length := by
        rw [length_hexWord, length_hexWord]
      obtain ⟨hfirst, hmore⟩ := List.append_inj h hlength
      rw [hexWord_inj hfirst, ih hmore]

def message (text : String) : List UInt8 := text.toUTF8.toList

theorem toList_loop (bytes : ByteArray) (i : ℕ) (read : List UInt8) :
    ByteArray.toList.loop bytes i read = read.reverse ++ bytes.data.toList.drop i := by
  fun_induction ByteArray.toList.loop bytes i read with
  | case1 i read hi ih =>
    have hlen : i < bytes.data.toList.length := hi
    have hget : bytes.get! i = bytes.data.toList[i] := getElem!_pos bytes.data i hi
    rw [ih, List.reverse_cons, List.append_assoc, List.drop_eq_getElem_cons hlen, hget,
      List.singleton_append]
  | case2 i read hi =>
    rw [List.drop_of_length_le (not_lt.mp hi), List.append_nil]

theorem message_inj {s t : String} (h : message s = message t) : s = t := by
  have hlist : ∀ bytes : ByteArray, bytes.toList = bytes.data.toList := fun bytes =>
    toList_loop bytes 0 []
  rw [message, message, hlist, hlist] at h
  exact String.toByteArray_inj.mp (ByteArray.ext (Array.toList_inj.mp h))

/-- Texts with the same digest are messages with the same hash. -/
theorem sha256_eq_of_hexOfText_eq {s t : String} (h : hexOfText s = hexOfText t) :
    sha256 (message s) = sha256 (message t) :=
  flatMap_hexWord_inj (String.ofList_injective h)

end Screener.Digest
