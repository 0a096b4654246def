import Screener.Condition
import Screener.Proofs.Number.Rounding

namespace Screener

/-- How an operator and its operand become a predicate beside a field of some kind. -/
inductive Compiles (kind : FieldKind) : Operator → Json → Predicate → Prop
  | compare (c : Comparison) {v : Json} {l : Literal} (hv : Literal.ofJson? v = some l) :
      Compiles kind (.compare c) v (.compare c (l.coerce kind))
  | between {v w : Json} {low high : Literal} (hv : Literal.ofJson? v = some low)
      (hw : Literal.ofJson? w = some high) :
      Compiles kind .between (.array [v, w]) (.between (low.coerce kind) (high.coerce kind))
  | like {v : Json} {l : Literal} {needle : String} (hv : Literal.ofJson? v = some l)
      (hl : l.searchText? = some needle) :
      Compiles kind .like v (.contains (containsPattern needle))
  | member {items : List Json} {ls : List Literal} (hi : items.mapM Literal.ofJson? = some ls) :
      Compiles kind .member (.array items) (.member (ls.map (Literal.coerce kind)))

theorem mapM_coerce (kind : FieldKind) (items : List Json) :
    (items.mapM fun v => (Literal.ofJson? v).map (Literal.coerce kind)) =
      (items.mapM Literal.ofJson?).map (·.map (Literal.coerce kind)) := by
  induction items with
  | nil => rfl
  | cons v items ih =>
    simp only [List.mapM_cons, ih]
    cases Literal.ofJson? v with
    | none => rfl
    | some l => cases items.mapM Literal.ofJson? <;> rfl

theorem ofOperand?_eq_some_iff {kind : FieldKind} {o : Operator} {v : Json} {p : Predicate} :
    Predicate.ofOperand? kind o v = some p ↔ Compiles kind o v p := by
  constructor
  · intro h
    cases o with
    | compare c =>
      simp only [Predicate.ofOperand?, Option.map_map, Option.map_eq_some_iff] at h
      obtain ⟨l, hv, rfl⟩ := h
      exact .compare c hv
    | between =>
      cases v with
      | array items =>
        obtain _ | ⟨v, _ | ⟨w, _ | _⟩⟩ := items
        case cons.cons.nil =>
          simp only [Predicate.ofOperand?, Option.bind_eq_bind, Option.bind_eq_some_iff,
            Option.map_eq_some_iff, Option.some.injEq] at h
          obtain ⟨_, ⟨low, hv, rfl⟩, _, ⟨high, hw, rfl⟩, rfl⟩ := h
          exact .between hv hw
        all_goals cases h
      | _ => cases h
    | like =>
      simp only [Predicate.ofOperand?, Option.bind_eq_bind, Option.bind_eq_some_iff,
        Option.some.injEq] at h
      obtain ⟨l, hv, needle, hl, rfl⟩ := h
      exact .like hv hl
    | member =>
      cases v with
      | array items =>
        simp only [Predicate.ofOperand?, mapM_coerce, Option.map_map,
          Option.map_eq_some_iff] at h
        obtain ⟨ls, hi, rfl⟩ := h
        exact .member hi
      | _ => cases h
  · rintro (⟨c, hv⟩ | ⟨hv, hw⟩ | ⟨hv, hl⟩ | hi)
    · simp [Predicate.ofOperand?, hv]
    · simp [Predicate.ofOperand?, hv, hw]
    · simp [Predicate.ofOperand?, hv, hl]
    · simp [Predicate.ofOperand?, mapM_coerce, hi]

theorem exists_clause_of_mem {q : Query} {c : Condition} (hc : c ∈ (Plan.ofQuery q).conditions) :
    ∃ o v, Compiles c.field.kind o v c.predicate := by
  obtain ⟨clause, -, h⟩ := List.mem_filterMap.mp hc
  simp only [Condition.ofClause?, Option.bind_eq_bind, Option.bind_eq_some_iff,
    Option.some.injEq] at h
  obtain ⟨f, -, o, -, p, hp, rfl⟩ := h
  exact ⟨o, clause.value, ofOperand?_eq_some_iff.mp hp⟩

def Literal.Fits (kind : FieldKind) : Literal → Prop
  | null => True
  | bool _ => False
  | int _ => kind ≠ .text
  | float x => kind ≠ .text ∧ x.value < 2 ^ 1024
  | text _ => kind = .text

/-- Texts in which every character stands for itself: a wildcard and the escape only behind an
escape, any other as it is. -/
inductive Escaped : List Char → Prop
  | nil : Escaped []
  | plain {c : Char} {cs : List Char} (hc : c ≠ '%' ∧ c ≠ '_' ∧ c ≠ '\\') (h : Escaped cs) :
      Escaped (c :: cs)
  | escape {c : Char} {cs : List Char} (hc : c = '%' ∨ c = '_' ∨ c = '\\') (h : Escaped cs) :
      Escaped ('\\' :: c :: cs)

/-- Operands of the family of the field, or an escaped text between two wildcards. -/
def Condition.WellTyped (c : Condition) : Prop :=
  match c.predicate with
  | .compare _ l => l.Fits c.field.kind
  | .between low high => low.Fits c.field.kind ∧ high.Fits c.field.kind
  | .contains pattern => ∃ body, pattern.toList = '%' :: body ++ ['%'] ∧ Escaped body
  | .member ls => ∀ l ∈ ls, l.Fits c.field.kind

theorem Binary.value_lt {f : Format} (x : Binary f) : x.value < 2 ^ (f.most + f.digits) := by
  obtain ⟨hlt, -, hmost, -⟩ := x.canonical
  have hm : (x.significand : ℚ) < 2 ^ f.digits := by exact_mod_cast hlt
  calc x.value < 2 ^ f.digits * 2 ^ x.exponent :=
        mul_lt_mul_of_pos_right hm (two_zpow_pos x.exponent)
    _ ≤ 2 ^ f.digits * 2 ^ f.most :=
        mul_le_mul_of_nonneg_left (zpow_le_zpow_right₀ one_le_two hmost) (by positivity)
    _ = 2 ^ (f.most + f.digits) := by
        rw [add_comm, zpow_add₀ two_ne_zero, zpow_natCast]

theorem Double.value_lt (x : Double) : x.value < 2 ^ 1024 := by
  have htop : Format.double.most + Format.double.digits = (1024 : ℕ) := rfl
  have h := Binary.value_lt x
  rwa [htop, zpow_natCast] at h

theorem coerce_fits (kind : FieldKind) (l : Literal) : (l.coerce kind).Fits kind := by
  have hnumeral : ∀ s, kind ≠ .text → (Literal.ofNumeral s).Fits kind := by
    intro s hkind
    unfold Literal.ofNumeral
    split
    · rename_i x _
      exact ⟨hkind, x.value_lt⟩
    · trivial
  cases kind with
  | text => cases l <;> first | rfl | trivial
  | number | integer =>
    cases l with
    | null => trivial
    | bool b => exact FieldKind.noConfusion
    | int n => exact FieldKind.noConfusion
    | float x => exact ⟨FieldKind.noConfusion, x.value_lt⟩
    | text s => exact hnumeral s FieldKind.noConfusion

example : ["inf", "nan", "1e400", "cheap"].map (fun s => (Literal.text s).coerce .number) =
    List.replicate 4 .null := by
  decide

theorem escaped_escapePattern (cs : List Char) : Escaped (escapePattern cs) := by
  induction cs with
  | nil => exact .nil
  | cons c cs ih =>
    by_cases hc : c = '%' ∨ c = '_' ∨ c = likeEscape
    · have he : escapePattern (c :: cs) = likeEscape :: c :: escapePattern cs := by
        simp [escapePattern, hc]
      rw [he]
      exact .escape hc ih
    · have he : escapePattern (c :: cs) = c :: escapePattern cs := by simp [escapePattern, hc]
      rw [he]
      simp only [not_or] at hc
      exact .plain hc ih

theorem Compiles.wellTyped {f : Field} {o : Operator} {v : Json} {p : Predicate}
    (h : Compiles f.kind o v p) : (⟨f, p⟩ : Condition).WellTyped := by
  cases h with
  | compare c hv => exact coerce_fits f.kind _
  | between hv hw => exact ⟨coerce_fits f.kind _, coerce_fits f.kind _⟩
  | @like _ _ needle hv hl =>
    exact ⟨escapePattern needle.toList, String.toList_ofList, escaped_escapePattern _⟩
  | member hi =>
    intro l hl
    obtain ⟨a, -, rfl⟩ := List.mem_map.mp hl
    exact coerce_fits f.kind a

theorem wellTyped_of_mem {q : Query} {c : Condition} (hc : c ∈ (Plan.ofQuery q).conditions) :
    c.WellTyped := by
  obtain ⟨o, v, h⟩ := exists_clause_of_mem hc
  exact h.wellTyped

end Screener
