namespace Screener.Text

/-- The characters with the Unicode property White_Space. -/
def isBlank (c : Char) : Bool :=
  let n := c.toNat
  (0x09 ≤ n && n ≤ 0x0D) || n == 0x20 || n == 0x85 || n == 0xA0 || n == 0x1680 ||
    (0x2000 ≤ n && n ≤ 0x200A) || n == 0x2028 || n == 0x2029 || n == 0x202F || n == 0x205F ||
    n == 0x3000

def dropBlank (cs : List Char) : List Char := cs.dropWhile isBlank

def trimChars (cs : List Char) : List Char := (dropBlank (dropBlank cs).reverse).reverse

def trim (s : String) : String := String.ofList (trimChars s.toList)

def isBlankText (s : String) : Bool := s.toList.all isBlank

@[simp] theorem dropBlank_nil : dropBlank [] = [] := rfl

theorem dropBlank_eq_nil_iff {cs : List Char} : dropBlank cs = [] ↔ cs.all isBlank := by
  induction cs with
  | nil => simp
  | cons c cs ih => by_cases h : isBlank c <;> simp_all [dropBlank]

theorem trimChars_eq_nil_iff {cs : List Char} : trimChars cs = [] ↔ cs.all isBlank := by
  rw [trimChars, List.reverse_eq_nil_iff, dropBlank_eq_nil_iff]
  constructor
  · intro h
    induction cs with
    | nil => rfl
    | cons c cs ih =>
      by_cases hc : isBlank c
      · simp_all [dropBlank]
      · have : isBlank c = true := by
          have hm : c ∈ (dropBlank (c :: cs)).reverse := by simp [dropBlank, hc]
          exact List.all_eq_true.1 h c hm
        exact absurd this hc
  · intro h
    rw [dropBlank_eq_nil_iff.2 h]
    rfl

theorem trim_eq_empty_iff (s : String) : trim s = "" ↔ isBlankText s = true := by
  rw [trim, isBlankText, ← trimChars_eq_nil_iff]
  exact ⟨fun h => String.ofList_injective h, fun h => congrArg String.ofList h⟩

end Screener.Text
