import Screener.Proofs.Answer
import Screener.Proofs.Json.Documents
import Screener.Proofs.Number.Whole

namespace Screener

inductive Json.Scalar : Json → Prop
  | null : Scalar .null
  | bool (b : Bool) : Scalar (.bool b)
  | int {n : ℤ} (h : IsWhole n) : Scalar (.int n)
  | float (x : Double) : Scalar (.float x)
  | string (s : String) : Scalar (.string s)

def Clause.on (f : Field) (o : Operator) (operand : Json) : Clause := ⟨f.name, o.name, operand⟩

/-- Clauses select a record if a query of them finds it where it is the only one. -/
def Selects (clauses : List Clause) (r : Record) : Prop :=
  Catalog.query ⟨clauses, none, 1⟩ ⟨some [r]⟩ = .ok [r]

/-- Whether an operand is null in the family of a field. -/
def IsNullOperand (f : Field) (v : Json) : Prop :=
  (Literal.ofJson? v).map (Literal.coerce f.kind) = some .null

instance (f : Field) (v : Json) : Decidable (IsNullOperand f v) := by
  unfold IsNullOperand
  infer_instance

theorem Json.Scalar.exists_literal {v : Json} (h : v.Scalar) : ∃ l, Literal.ofJson? v = some l := by
  cases h with
  | null => exact ⟨_, rfl⟩
  | bool b => exact ⟨_, rfl⟩
  | @int n h =>
    obtain ⟨hlow, hhigh⟩ := h
    rw [Literal.ofJson?, Literal.ofInt?]
    split
    · exact ⟨_, rfl⟩
    · -- Beyond 64 bits with a sign an integer is taken as its nearest double, and has one.
      have hle : n.natAbs ≤ 2 ^ 64 := by
        unfold int64Bound at hlow
        unfold uint64Bound at hhigh
        omega
      obtain ⟨x, hx⟩ := Binary.ofInt?_isSome_of_natAbs_le hle
      exact ⟨.float x, by rw [hx]; rfl⟩
  | float x => exact ⟨_, rfl⟩
  | string s => exact ⟨_, rfl⟩

theorem mapM_ofJson?_of_scalar {vs : List Json} (h : ∀ v ∈ vs, v.Scalar) :
    ∃ ls, vs.mapM Literal.ofJson? = some ls ∧
      List.Forall₂ (fun v l => Literal.ofJson? v = some l) vs ls := by
  induction vs with
  | nil => exact ⟨[], rfl, .nil⟩
  | cons v vs ih =>
    obtain ⟨hv, hvs⟩ := List.forall_mem_cons.mp h
    obtain ⟨l, hl⟩ := hv.exists_literal
    obtain ⟨ls, hls, hall⟩ := ih hvs
    exact ⟨l :: ls, by simp [List.mapM_cons, hl, hls], .cons hl hall⟩

/-- Where a query admits the same of the rows, it gives the same answer. -/
theorem query_congr_rows {clauses clauses' : List Clause} {rows : List Record}
    (order : Option SortKey) (limit : UInt32)
    (h : ∀ r ∈ rows, (clauses.all fun c => c.admits r) = clauses'.all fun c => c.admits r) :
    Catalog.query ⟨clauses, order, limit⟩ ⟨some rows⟩ =
      Catalog.query ⟨clauses', order, limit⟩ ⟨some rows⟩ := by
  have hkept : rows.filter (Query.admits ⟨clauses, order, limit⟩) =
      rows.filter (Query.admits ⟨clauses', order, limit⟩) := List.filter_congr h
  rw [Sql.query_eq_select, Sql.query_eq_select, Sql.select_ofPlan, Sql.select_ofPlan,
    Query.answer, Query.answer, hkept]
  rfl

theorem query_congr {clauses clauses' : List Clause} (order : Option SortKey) (limit : UInt32)
    (h : ∀ r, (clauses.all fun c => c.admits r) = clauses'.all fun c => c.admits r) (c : Catalog) :
    c.query ⟨clauses, order, limit⟩ = c.query ⟨clauses', order, limit⟩ := by
  obtain ⟨_ | rows⟩ := c
  · have hnative := fun q => Sql.ofBound?_native (Sql.limit_lt_size q)
    rw [Catalog.query, Catalog.query, Sql.runBound_of_ofBound? (hnative _),
      Sql.runBound_of_ofBound? (hnative _)]
    rfl
  · exact query_congr_rows order limit fun r _ => h r

theorem selects_iff {clauses : List Clause} {r : Record} :
    Selects clauses r ↔ ∀ c ∈ clauses, c.admits r = true := by
  rw [Selects, Sql.query_eq_select, Sql.select_ofPlan, ← List.all_eq_true]
  show Except.ok (Query.answer ⟨clauses, none, 1⟩ [r]) = _ ↔
    Query.admits ⟨clauses, none, 1⟩ r = true
  cases h : Query.admits ⟨clauses, none, 1⟩ r <;> simp [Query.answer, h]

theorem admits_on (f : Field) (o : Operator) (operand : Json) (r : Record) :
    (Clause.on f o operand).admits r = o.admits f.kind (r.value f) operand :=
  Clause.admits_names f o operand r

/-- A value of a field and an operand that was brought into its family compare, unless one is
null. -/
theorem Literal.exists_order {kind : FieldKind} {a b : Literal} (ha : a.OfKind kind)
    (hb : b.Fits kind) (hna : a ≠ null) (hnb : b ≠ null) : ∃ o, a.order? b = some o := by
  cases a with
  | null => exact absurd rfl hna
  | bool x => exact ha.elim
  | int m =>
    obtain rfl : kind = .integer := ha
    cases b with
    | null => exact absurd rfl hnb
    | bool x => exact hb.elim
    | int n => exact ⟨_, rfl⟩
    | float y =>
      obtain ⟨x, hx⟩ := Binary.ofInt?_isSome m
      exact ⟨x.compareValue y, by rw [order?, hx]; rfl⟩
    | text t => cases hb
  | float x =>
    obtain rfl : kind = .number := ha
    cases b with
    | null => exact absurd rfl hnb
    | bool x => exact hb.elim
    | int n =>
      obtain ⟨y, hy⟩ := Binary.ofInt?_isSome n
      exact ⟨x.compareValue y, by rw [order?, hy]; rfl⟩
    | float y => exact ⟨_, rfl⟩
    | text t => cases hb
  | text s =>
    obtain rfl : kind = .text := ha
    cases b with
    | null => exact absurd rfl hnb
    | bool x => exact hb.elim
    | int n => exact absurd rfl hb
    | float y => exact absurd rfl hb.1
    | text t => exact ⟨_, rfl⟩

theorem Literal.order?_eq_none {a b : Literal} (h : a = null ∨ b = null) : a.order? b = none := by
  rcases h with rfl | rfl
  · rfl
  · cases a <;> rfl

theorem Comparison.existsUnique_admits (o : Ordering) :
    ∃! c : Comparison, c ∈ [lt, eq, gt] ∧ c.admits o = true := by
  cases o with
  | lt => exact ⟨lt, by decide, by rintro (_ | _ | _ | _ | _) <;> decide⟩
  | eq => exact ⟨eq, by decide, by rintro (_ | _ | _ | _ | _) <;> decide⟩
  | gt => exact ⟨gt, by decide, by rintro (_ | _ | _ | _ | _) <;> decide⟩

section

variable {f : Field} {r : Record} {v : Json} {l : Literal}

theorem isNullOperand_iff (hv : Literal.ofJson? v = some l) :
    IsNullOperand f v ↔ l.coerce f.kind = .null := by
  rw [IsNullOperand, hv, Option.map_some, Option.some.injEq]

theorem selects_compare (hv : Literal.ofJson? v = some l) (c : Comparison) :
    Selects [.on f (.compare c) v] r ↔ (r.value f).satisfies c (l.coerce f.kind) = true := by
  rw [selects_iff, List.forall_mem_singleton, admits_on, Operator.admits, hv, Option.all_some]

theorem admits_between {a b : Json} {low high : Literal} (ha : Literal.ofJson? a = some low)
    (hb : Literal.ofJson? b = some high) (r : Record) :
    (Clause.on f .between (.array [a, b])).admits r =
      ((Clause.on f (.compare .gte) a).admits r && (Clause.on f (.compare .lte) b).admits r) := by
  simp only [admits_on, Operator.admits, ha, hb, Option.all_some]

theorem admits_member {vs : List Json} (hvs : ∀ v ∈ vs, v.Scalar) (r : Record) :
    (Clause.on f .member (.array vs)).admits r =
      vs.any fun v => (Clause.on f (.compare .eq) v).admits r := by
  obtain ⟨ls, hls, hall⟩ := mapM_ofJson?_of_scalar hvs
  simp only [admits_on, Operator.admits, hls, Option.all_some]
  clear hls hvs
  induction hall with
  | nil => rfl
  | cons hv _ ih => rw [List.any_cons, List.any_cons, ih, hv, Option.all_some]

theorem not_null_of_admits (hv : v.Scalar) (h : (Clause.on f (.compare .eq) v).admits r = true) :
    ¬IsNullOperand f v := by
  obtain ⟨l, hl⟩ := hv.exists_literal
  rw [admits_on, Operator.admits, hl, Option.all_some] at h
  rw [isNullOperand_iff hl]
  intro hnull
  rw [hnull, Literal.satisfies, Literal.order?_eq_none (.inr rfl)] at h
  cases h

/-- The laws of the comparisons with one operand. -/
structure Ordered (f : Field) (r : Record) (v : Json) : Prop where
  null : r.value f = .null ∨ IsNullOperand f v → ∀ c, ¬Selects [.on f (.compare c) v] r
  trichotomy : r.value f ≠ .null → ¬IsNullOperand f v →
    ∃! c, c ∈ [Comparison.lt, .eq, .gt] ∧ Selects [.on f (.compare c) v] r
  gte : Selects [.on f (.compare .gte) v] r ↔
    Selects [.on f (.compare .gt) v] r ∨ Selects [.on f (.compare .eq) v] r
  lte : Selects [.on f (.compare .lte) v] r ↔
    Selects [.on f (.compare .lt) v] r ∨ Selects [.on f (.compare .eq) v] r

theorem ordered_of_literal (hv : Literal.ofJson? v = some l) : Ordered f r v where
  null := by
    intro h c
    rw [isNullOperand_iff hv] at h
    rw [selects_compare hv, Literal.satisfies, Literal.order?_eq_none h]
    exact Bool.false_ne_true
  trichotomy := by
    intro hvalue hoperand
    rw [isNullOperand_iff hv] at hoperand
    obtain ⟨o, ho⟩ :=
      Literal.exists_order (r.value_ofKind f) (coerce_fits f.kind l) hvalue hoperand
    simp only [selects_compare hv, Literal.satisfies, ho, Option.any_some]
    exact Comparison.existsUnique_admits o
  gte := by
    simp only [selects_compare hv, Literal.satisfies]
    rcases (r.value f).order? (l.coerce f.kind) with _ | _ | _ | _ <;> decide
  lte := by
    simp only [selects_compare hv, Literal.satisfies]
    rcases (r.value f).order? (l.coerce f.kind) with _ | _ | _ | _ <;> decide

end

/-- The operators keep the laws of an order. A null on either side selects nothing; otherwise
exactly one of below, level and above does, and the two operators in between are what they say. A
query between two bounds is one from the first up and to the second down, and membership is to be
level with some member, so members that become null change nothing and none at all selects
nothing. -/
theorem operators_ordered (f : Field) :
    (∀ v, v.Scalar → ∀ r, Ordered f r v) ∧
    (∀ a b, a.Scalar → b.Scalar → ∀ more order limit c,
      Catalog.query ⟨.on f .between (.array [a, b]) :: more, order, limit⟩ c =
        Catalog.query
          ⟨.on f (.compare .gte) a :: .on f (.compare .lte) b :: more, order, limit⟩ c) ∧
    (∀ vs, (∀ v ∈ vs, v.Scalar) → ∀ more r,
      (Selects (.on f .member (.array vs) :: more) r ↔
        ∃ v ∈ vs, Selects (.on f (.compare .eq) v :: more) r)) ∧
    ∀ vs, (∀ v ∈ vs, v.Scalar) → ∀ more order limit c,
      Catalog.query ⟨.on f .member (.array vs) :: more, order, limit⟩ c =
        Catalog.query
          ⟨.on f .member (.array (vs.filter (¬IsNullOperand f ·))) :: more, order, limit⟩ c := by
  refine ⟨fun v hv r => ?_, fun a b ha hb more order limit c => ?_, fun vs hvs more r => ?_,
    fun vs hvs more order limit c => ?_⟩
  · obtain ⟨l, hl⟩ := hv.exists_literal
    exact ordered_of_literal hl
  · obtain ⟨low, hlow⟩ := ha.exists_literal
    obtain ⟨high, hhigh⟩ := hb.exists_literal
    refine query_congr order limit (fun r => ?_) c
    rw [List.all_cons, List.all_cons, List.all_cons, admits_between hlow hhigh, Bool.and_assoc]
  · simp only [selects_iff, List.forall_mem_cons, admits_member hvs, List.any_eq_true]
    exact ⟨fun ⟨⟨v, hv, h⟩, hmore⟩ => ⟨v, hv, h, hmore⟩,
      fun ⟨v, hv, h, hmore⟩ => ⟨⟨v, hv, h⟩, hmore⟩⟩
  · refine query_congr order limit (fun r => ?_) c
    have hkept : ∀ v ∈ vs.filter (¬IsNullOperand f ·), v.Scalar :=
      fun v hv => hvs v (List.mem_of_mem_filter hv)
    rw [List.all_cons, List.all_cons, admits_member hvs, admits_member hkept, List.any_filter]
    congr 1
    rw [Bool.eq_iff_iff, List.any_eq_true, List.any_eq_true]
    refine exists_congr fun v => and_congr_right fun hv => ?_
    rw [Bool.and_eq_true, decide_eq_true_iff, and_iff_right_of_imp (not_null_of_admits (hvs v hv))]

def busyRecord : Record := (Record.new "B" "Busy" Double.zero).withVolume 9007199254740993

theorem operators_ordered_busyRecord :
    ((Json.string " 9007199254740992.0 ").Scalar ∧ Json.null.Scalar ∧
      ∀ v ∈ [Json.null, .bool true, .int 18446744073709551615], v.Scalar) ∧
    Ordered .volume busyRecord (.string " 9007199254740992.0 ") ∧
    Selects [.on .volume (.compare .eq) (.string " 9007199254740992.0 ")] busyRecord ∧
    (∀ more order limit c,
      Catalog.query ⟨.on .volume .between (.array [.string " 9007199254740992.0 ", .null]) :: more,
        order, limit⟩ c =
      Catalog.query ⟨.on .volume (.compare .gte) (.string " 9007199254740992.0 ") ::
        .on .volume (.compare .lte) .null :: more, order, limit⟩ c) ∧
    ¬Selects [.on .volume .member (.array [.null, .bool true, .int 18446744073709551615])]
      busyRecord := by
  have htext : (Json.string " 9007199254740992.0 ").Scalar := .string _
  have hmembers : ∀ v ∈ [Json.null, .bool true, .int 18446744073709551615], v.Scalar := by
    simp only [List.forall_mem_cons, List.not_mem_nil, false_implies, implies_true, and_true]
    exact ⟨.null, .bool true, .int (by decide)⟩
  have hlevel : Selects [.on .volume (.compare .eq) (.string " 9007199254740992.0 ")]
      busyRecord := by
    rw [selects_iff]
    decide +kernel
  have hother : ¬∃ v ∈ [Json.null, .bool true, .int 18446744073709551615],
      Selects [.on .volume (.compare .eq) v] busyRecord := by
    simp only [selects_iff, List.forall_mem_singleton]
    decide +kernel
  obtain ⟨hordered, hbetween, hmember, -⟩ := operators_ordered .volume
  exact ⟨⟨htext, .null, hmembers⟩, hordered _ htext busyRecord, hlevel,
    hbetween _ _ htext .null, fun h => hother ((hmember _ hmembers [] busyRecord).mp h)⟩

end Screener
