import Screener.Proofs.Sql.Placeholders

namespace Screener.Sql

/-- The question mark with `k` others before it stands behind the first `p` characters. -/
def MarkAt (cs : List Char) (k p : ℕ) : Prop := cs[p]? = some '?' ∧ (cs.take p).count '?' = k

theorem exists_markAt {cs : List Char} {k : ℕ} (h : k < cs.count '?') : ∃ p, MarkAt cs k p := by
  induction cs generalizing k with
  | nil => exact absurd h (Nat.not_lt_zero k)
  | cons c cs ih =>
    by_cases hc : c = '?'
    · subst hc
      rw [List.count_cons_self] at h
      cases k with
      | zero => exact ⟨0, rfl, rfl⟩
      | succ k =>
        obtain ⟨p, hmark, hcount⟩ := ih (Nat.lt_of_succ_lt_succ h)
        refine ⟨p + 1, hmark, ?_⟩
        rw [List.take_succ_cons, List.count_cons_self, hcount]
    · rw [List.count_cons_of_ne hc] at h
      obtain ⟨p, hmark, hcount⟩ := ih h
      refine ⟨p + 1, hmark, ?_⟩
      rw [List.take_succ_cons, List.count_cons_of_ne hc, hcount]

theorem MarkAt.append {cs : List Char} {k p : ℕ} (h : MarkAt cs k p) (before after : List Char) :
    MarkAt (before ++ (cs ++ after)) (before.count '?' + k) (before.length + p) := by
  obtain ⟨hmark, hcount⟩ := h
  have hp : p < cs.length := (List.getElem?_eq_some_iff.mp hmark).1
  constructor
  · rw [List.getElem?_append_right (Nat.le_add_right _ _), Nat.add_sub_cancel_left,
      List.getElem?_append_left hp, hmark]
  · rw [List.take_length_add_append, List.count_append, List.take_append_of_le_length hp.le, hcount]

theorem exists_part_of_lt {α β : Type} {g : α → List β} {as : List α} {k : ℕ}
    (h : k < (as.flatMap g).length) :
    ∃ before a after i, as = before ++ a :: after ∧ i < (g a).length ∧
      k = (before.flatMap g).length + i := by
  induction as generalizing k with
  | nil => exact absurd h (Nat.not_lt_zero k)
  | cons a as ih =>
    rw [List.flatMap_cons, List.length_append] at h
    by_cases hk : k < (g a).length
    · exact ⟨[], a, as, k, rfl, hk, (Nat.zero_add k).symm⟩
    · obtain ⟨before, b, after, i, rfl, hi, hrest⟩ := ih (k := k - (g a).length) (by omega)
      refine ⟨a :: before, b, after, i, rfl, hi, ?_⟩
      rw [List.flatMap_cons, List.length_append]
      omega

/-- The values go to the question marks of `cs` in their order and leave none over, which gives
`out`. -/
def FillsAs (cs : List Char) (vs : List Value) (out : List Char) : Prop :=
  ∀ rest more, fill (cs ++ rest) (vs ++ more) = (fill rest more).map (out ++ ·)

namespace FillsAs

variable {cs cs' out out' : List Char} {vs vs' : List Value}

theorem unmarked (h : '?' ∉ cs) : FillsAs cs [] cs := fun rest more => fill_append h rest more

theorem mark (v : Value) : FillsAs ['?'] [v] (literal v.toLiteral).toList :=
  fun rest more => fill_mark rest v more

theorem append (h : FillsAs cs vs out) (h' : FillsAs cs' vs' out') :
    FillsAs (cs ++ cs') (vs ++ vs') (out ++ out') := by
  intro rest more
  rw [List.append_assoc, List.append_assoc, h, h', Option.map_map]
  congr 1
  funext tail
  exact (List.append_assoc _ _ _).symm

theorem flatMap {α : Type} {as : List α} {f : α → List Char} {g : α → List Value}
    {out : α → List Char} (h : ∀ a ∈ as, FillsAs (f a) (g a) (out a)) :
    FillsAs (as.flatMap f) (as.flatMap g) (as.flatMap out) := by
  induction as with
  | nil => exact unmarked List.not_mem_nil
  | cons a as ih =>
    obtain ⟨ha, has⟩ := List.forall_mem_cons.mp h
    rw [List.flatMap_cons, List.flatMap_cons, List.flatMap_cons]
    exact ha.append (ih has)

theorem fill_eq (h : FillsAs cs vs out) : fill cs vs = some out := by
  have hfill := h [] []
  rw [List.append_nil, List.append_nil] at hfill
  rw [hfill]
  simp [fill]

theorem count (h : FillsAs cs vs out) : cs.count '?' = vs.length := count_of_fill h.fill_eq

theorem intercalate {α : Type} {sep : String} (hsep : '?' ∉ sep.toList) {as : List α}
    {f : α → String} {g : α → List Value} {out : α → String}
    (h : ∀ a ∈ as, FillsAs (f a).toList (g a) (out a).toList) :
    FillsAs (sep.intercalate (as.map f)).toList (as.flatMap g)
      (sep.intercalate (as.map out)).toList := by
  cases as with
  | nil => exact unmarked List.not_mem_nil
  | cons a as =>
    obtain ⟨ha, has⟩ := List.forall_mem_cons.mp h
    have htail : FillsAs (as.flatMap fun a => sep.toList ++ (f a).toList) (as.flatMap g)
        (as.flatMap fun a => sep.toList ++ (out a).toList) :=
      flatMap fun a hm => (unmarked hsep).append (has a hm)
    have hall := ha.append htail
    simpa only [String.toList_intercalate, List.map_cons, List.map_map, intercalate_cons,
      List.flatMap_map, List.flatMap_cons, Function.comp_apply] using hall

/-- One mark between two texts without any. -/
theorem between {a b : List Char} (ha : '?' ∉ a) (v : Value) (hb : '?' ∉ b) :
    FillsAs (a ++ '?' :: b) [v] (a ++ (literal v.toLiteral).toList ++ b) := by
  have h := ((unmarked ha).append (mark v)).append (unmarked hb)
  simpa only [List.append_assoc, List.nil_append, List.append_nil, List.singleton_append] using h

end FillsAs

theorem intercalate_append_cons {α : Type} (sep : List α) (before after : List (List α))
    (a : List α) :
    sep.intercalate (before ++ a :: after) =
      before.flatMap (· ++ sep) ++ (a ++ after.flatMap (sep ++ ·)) := by
  induction before with
  | nil => exact intercalate_cons sep a after
  | cons b before ih =>
    -- Something follows `b`, so a separator stands behind it.
    have hnext : sep.intercalate (b :: (before ++ a :: after)) =
        b ++ sep ++ sep.intercalate (before ++ a :: after) := by
      cases before <;> exact List.intercalate_cons_cons
    rw [List.cons_append, hnext, ih, List.flatMap_cons]
    simp only [List.append_assoc]

theorem notMem_intercalate {c : Char} {sep : String} (hsep : c ∉ sep.toList) {parts : List String}
    (h : ∀ s ∈ parts, c ∉ s.toList) : c ∉ (sep.intercalate parts).toList := by
  cases parts with
  | nil => exact List.not_mem_nil
  | cons s parts =>
    rw [String.toList_intercalate, List.map_cons, intercalate_cons, List.flatMap_map]
    obtain ⟨hs, hparts⟩ := List.forall_mem_cons.mp h
    apply List.not_mem_append hs
    intro hm
    obtain ⟨t, ht, hc⟩ := List.mem_flatMap.mp hm
    exact List.not_mem_append hsep (hparts t ht) hc

namespace Filter

def column : Filter → String
  | compare column _ _ | between column _ _ | ilike column _ | member column _ => column

def spelled : Filter → String
  | compare column c v => column ++ " " ++ c.sql ++ " " ++ literal v.toLiteral
  | between column low high =>
    column ++ " BETWEEN " ++ literal low.toLiteral ++ " AND " ++ literal high.toLiteral
  | ilike column pattern =>
    column ++ " ILIKE " ++ quote pattern ++ " ESCAPE '" ++ String.singleton likeEscape ++ "'"
  | member _ [] => "FALSE"
  | member column values =>
    column ++ " IN (" ++ ", ".intercalate (values.map fun v => literal v.toLiteral) ++ ")"

/-- The values of a test go to its own question marks. -/
theorem fillsAs {f : Filter} (h : '?' ∉ f.column.toList) :
    FillsAs f.text.toList f.params f.spelled.toList := by
  cases f with
  | compare column c v =>
    have hstart : '?' ∉ column.toList ++ (" " ++ c.sql ++ " ").toList := by
      apply List.not_mem_append h
      cases c <;> decide
    have hfill := FillsAs.between hstart v List.not_mem_nil
    simpa [text, params, spelled] using hfill
  | between column low high =>
    have hstart : '?' ∉ column.toList ++ " BETWEEN ".toList := List.not_mem_append h (by decide)
    have hand : '?' ∉ " AND ".toList := by decide
    have hfill := (FillsAs.between hstart low hand).append (FillsAs.mark high)
    simpa [text, params, spelled] using hfill
  | ilike column pattern =>
    have hstart : '?' ∉ column.toList ++ " ILIKE ".toList := List.not_mem_append h (by decide)
    have hend : '?' ∉ (" ESCAPE '" ++ String.singleton likeEscape ++ "'").toList := by decide
    have hfill := FillsAs.between hstart (.text pattern) hend
    simpa [text, params, spelled, Value.toLiteral, literal] using hfill
  | member column values =>
    cases values with
    | nil =>
      have hfalse : '?' ∉ "FALSE".toList := by decide
      exact FillsAs.unmarked hfalse
    | cons v vs =>
      have hstart : '?' ∉ column.toList ++ " IN (".toList := List.not_mem_append h (by decide)
      have hlist : FillsAs (", ".intercalate ((v :: vs).map fun _ => "?")).toList
          ((v :: vs).flatMap fun v => [v])
          (", ".intercalate ((v :: vs).map fun v => literal v.toLiteral)).toList :=
        FillsAs.intercalate (by decide) fun v _ => FillsAs.mark v
      have hend : '?' ∉ [')'] := by decide
      have hfill := ((FillsAs.unmarked hstart).append hlist).append (FillsAs.unmarked hend)
      simpa [text, params, spelled] using hfill

end Filter

end Screener.Sql
