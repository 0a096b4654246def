import Screener.Proofs.Operators

namespace Screener

def Json.isScalar : Json → Bool
  | .array _ | .object _ => false
  | .null | .bool _ | .int _ | .float _ | .string _ => true

/-- The operands that an operator takes, whatever the field. -/
def Operator.takes : Operator → Json → Bool
  | .compare _, v => v.isScalar
  | .between, .array [low, high] => low.isScalar && high.isScalar
  | .between, _ => false
  | .like, .string _ | .like, .int _ | .like, .float _ => true
  | .like, _ => false
  | .member, .array items => items.all Json.isScalar
  | .member, _ => false

def Clause.fits (c : Clause) : Bool :=
  Field.all.any (·.name = c.field) &&
    Operator.all.any fun o => o.name = c.operator && o.takes c.value

/-- The condition of a clause: on its field, with the predicate of its operator, and the operands in
the family of the field. -/
structure Clause.Gives (c : Clause) (condition : Condition) : Prop where
  field : c.field = condition.field.name
  predicate : ∃ o : Operator, c.operator = o.name ∧
    Compiles condition.field.kind o c.value condition.predicate

def SortKey.fits (k : SortKey) : Bool := Field.all.any (·.name = k.field)

theorem ofClause?_eq_some_iff {c : Clause} {condition : Condition} :
    Condition.ofClause? c = some condition ↔ c.Gives condition := by
  obtain ⟨f, p⟩ := condition
  simp only [Condition.ofClause?, Option.bind_eq_bind, Option.bind_eq_some_iff, Option.some.injEq,
    Condition.mk.injEq, Field.ofName?_eq_some_iff, Operator.ofName?_eq_some_iff,
    ofOperand?_eq_some_iff]
  constructor
  · rintro ⟨_, hf, o, ho, _, hp, rfl, rfl⟩
    exact ⟨hf, o, ho, hp⟩
  · rintro ⟨hf, o, ho, hp⟩
    exact ⟨f, hf, o, ho, p, hp, rfl, rfl⟩

theorem Literal.isScalar_of_ofJson? {v : Json} {l : Literal} (h : ofJson? v = some l) :
    v.isScalar = true := by
  cases v <;> first | rfl | cases h

theorem Json.WellFormed.scalar {v : Json} (hv : v.WellFormed) (h : v.isScalar = true) :
    v.Scalar := by
  cases hv with
  | null => exact .null
  | bool b => exact .bool b
  | int hn => exact .int hn
  | float x => exact .float x
  | string s => exact .string s
  | array | object => cases h

theorem Option.exists_of_mapM {α β : Type} {f : α → Option β} {as : List α} {bs : List β}
    (h : as.mapM f = some bs) {a : α} (ha : a ∈ as) : ∃ b, f a = some b := by
  induction as generalizing bs with
  | nil => cases ha
  | cons a' as ih =>
    simp only [List.mapM_cons, Option.bind_eq_bind, Option.bind_eq_some_iff] at h
    obtain ⟨b, hb, bs', hbs, -⟩ := h
    rcases List.mem_cons.mp ha with rfl | ha
    · exact ⟨b, hb⟩
    · exact ih hbs ha

theorem Compiles.takes {kind : FieldKind} {o : Operator} {v : Json} {p : Predicate}
    (h : Compiles kind o v p) : o.takes v = true := by
  cases h with
  | compare c hv => exact Literal.isScalar_of_ofJson? hv
  | between hv hw =>
    rw [Operator.takes, Literal.isScalar_of_ofJson? hv, Literal.isScalar_of_ofJson? hw]
    rfl
  | @like v l _ hv hl =>
    cases v with
    | string | int | float => rfl
    | null | bool =>
      obtain rfl := Option.some.inj hv
      cases hl
    | array | object => cases hv
  | member hi =>
    rw [Operator.takes, List.all_eq_true]
    intro v hv
    obtain ⟨l, hl⟩ := Option.exists_of_mapM hi hv
    exact Literal.isScalar_of_ofJson? hl

theorem Literal.exists_searchText {n : ℤ} {l : Literal} (h : ofJson? (.int n) = some l) :
    ∃ needle, l.searchText? = some needle := by
  rw [ofJson?, ofInt?] at h
  split at h
  · cases h
    exact ⟨_, rfl⟩
  · obtain ⟨x, -, rfl⟩ := Option.map_eq_some_iff.mp h
    exact ⟨_, rfl⟩

/-- An operand that a document can hold compiles if the operator takes it. -/
theorem exists_compiles (kind : FieldKind) {o : Operator} {v : Json} (hv : v.WellFormed)
    (h : o.takes v = true) : ∃ p, Compiles kind o v p := by
  cases o with
  | compare c =>
    obtain ⟨l, hl⟩ := (hv.scalar h).exists_literal
    exact ⟨_, .compare c hl⟩
  | between =>
    obtain ⟨low, high, rfl⟩ : ∃ low high, v = .array [low, high] := by
      rcases v with _ | _ | _ | _ | _ | (_ | ⟨low, _ | ⟨high, _ | _⟩⟩) | _ <;> first
        | exact ⟨low, high, rfl⟩
        | cases h
    have hitems : ∀ v ∈ [low, high], v.WellFormed := by
      cases hv with
      | array hitems => exact hitems
    rw [Operator.takes, Bool.and_eq_true] at h
    obtain ⟨l, hl⟩ := ((hitems low (by simp)).scalar h.1).exists_literal
    obtain ⟨l', hl'⟩ := ((hitems high (by simp)).scalar h.2).exists_literal
    exact ⟨_, .between hl hl'⟩
  | like =>
    cases v with
    | string s => exact ⟨_, .like rfl rfl⟩
    | int n =>
      obtain ⟨l, hl⟩ := (hv.scalar rfl).exists_literal
      obtain ⟨needle, hneedle⟩ := Literal.exists_searchText hl
      exact ⟨_, .like hl hneedle⟩
    | float x => exact ⟨_, .like rfl rfl⟩
    | null | bool | array | object => cases h
  | member =>
    cases v with
    | array items =>
      cases hv with
      | array hitems =>
        have hscalar : ∀ v ∈ items, v.Scalar := fun v hv =>
          (hitems v hv).scalar (List.all_eq_true.mp h v hv)
        obtain ⟨ls, hls, -⟩ := mapM_ofJson?_of_scalar hscalar
        exact ⟨_, .member hls⟩
    | null | bool | int | float | string | object => cases h

theorem Clause.fits_iff {c : Clause} : c.fits = true ↔
    ∃ (f : Field) (o : Operator), c.field = f.name ∧ c.operator = o.name ∧
      o.takes c.value = true := by
  simp only [fits, Bool.and_eq_true, List.any_eq_true, decide_eq_true_eq]
  constructor
  · rintro ⟨⟨f, -, hf⟩, o, -, ho, ht⟩
    exact ⟨f, o, hf.symm, ho.symm, ht⟩
  · rintro ⟨f, o, hf, ho, ht⟩
    exact ⟨⟨f, f.mem_all, hf.symm⟩, o, o.mem_all, ho.symm, ht⟩

theorem isSome_ofClause?_iff {c : Clause} (hc : c.value.WellFormed) :
    (Condition.ofClause? c).isSome = true ↔ c.fits = true := by
  rw [Option.isSome_iff_exists, Clause.fits_iff]
  simp only [ofClause?_eq_some_iff]
  constructor
  · rintro ⟨condition, hf, o, ho, hp⟩
    exact ⟨condition.field, o, hf, ho, hp.takes⟩
  · rintro ⟨f, o, hf, ho, ht⟩
    obtain ⟨p, hp⟩ := exists_compiles f.kind hc ht
    exact ⟨⟨f, p⟩, hf, o, ho, hp⟩

section

variable {cs : List Clause} (hcs : ∀ c ∈ cs, c.value.WellFormed)
include hcs

theorem forall₂_ofClauses :
    List.Forall₂ Clause.Gives (cs.filter Clause.fits) (Condition.ofClauses cs) := by
  induction cs with
  | nil => exact .nil
  | cons c cs ih =>
    obtain ⟨hc, hcs⟩ := List.forall_mem_cons.mp hcs
    have hfits := isSome_ofClause?_iff hc
    rw [Condition.ofClauses, List.filterMap_cons, List.filter_cons]
    cases hcond : Condition.ofClause? c with
    | none =>
      rw [hcond, Option.isSome_none] at hfits
      rw [if_neg (mt hfits.mpr Bool.false_ne_true)]
      exact ih hcs
    | some condition =>
      rw [if_pos (hfits.mp (by rw [hcond, Option.isSome_some]))]
      exact .cons (ofClause?_eq_some_iff.mp hcond) (ih hcs)

theorem ofClauses_filter :
    Condition.ofClauses (cs.filter Clause.fits) = Condition.ofClauses cs := by
  rw [Condition.ofClauses, List.filterMap_filter]
  refine List.filterMap_congr fun c hc => ?_
  split
  · rfl
  · rename_i hfits
    rw [← isSome_ofClause?_iff (hcs c hc), Option.not_isSome_iff_eq_none] at hfits
    exact hfits.symm

end

theorem resolve?_filter (order : Option SortKey) :
    (order.filter SortKey.fits).bind SortKey.resolve? = order.bind SortKey.resolve? := by
  cases order with
  | none => rfl
  | some k =>
    by_cases hk : k.fits = true
    · rw [Option.filter_some, if_pos hk]
    · have hnone : k.resolve? = none := by
        rw [SortKey.resolve?, Option.map_eq_none_iff, Field.ofName?, List.find?_eq_none]
        simpa [SortKey.fits] using hk
      rw [Option.filter_some, if_neg hk, Option.bind_none, Option.bind_some, hnone]

/-- A query without what does not count. -/
def Query.fitting (q : Query) : Query :=
  ⟨q.clauses.filter Clause.fits, q.order.filter SortKey.fits, q.limit⟩

theorem ofQuery_fitting {q : Query} (hq : ∀ c ∈ q.clauses, c.value.WellFormed) :
    Plan.ofQuery q.fitting = Plan.ofQuery q := by
  rw [Plan.ofQuery, Plan.ofQuery, Query.fitting, ofClauses_filter hq, resolve?_filter]
  rfl

/-- Just the clauses that fit become conditions, each on its field, with the predicate of its
operator and the operands in the family of the field; there is one for each of them, in their order.
Queries that differ only in clauses that do not fit, wherever they stand, and in sorts that are
none, have one statement as it is shown and as it is run, with one list of parameters, and one
answer. -/
theorem compiles_fitting :
    (∀ c : Clause, c.value.WellFormed →
      ((Condition.ofClause? c).isSome = true ↔ c.fits = true) ∧
      ∀ condition, Condition.ofClause? c = some condition ↔ c.Gives condition) ∧
    (∀ cs : List Clause, (∀ c ∈ cs, c.value.WellFormed) →
      List.Forall₂ Clause.Gives (cs.filter Clause.fits) (Condition.ofClauses cs)) ∧
    ∀ q q' : Query, (∀ c ∈ q.clauses ++ q'.clauses, c.value.WellFormed) →
      q.fitting = q'.fitting →
      q.sql = q'.sql ∧ Sql.native (.ofQuery q) = Sql.native (.ofQuery q') ∧
      ∀ c : Catalog, c.query q = c.query q' := by
  refine ⟨fun c hc => ⟨isSome_ofClause?_iff hc, fun _ => ofClause?_eq_some_iff⟩,
    fun cs hcs => forall₂_ofClauses hcs, fun q q' hq hfitting => ?_⟩
  obtain ⟨hq, hq'⟩ := List.forall_mem_append.mp hq
  have hplan : Plan.ofQuery q = Plan.ofQuery q' := by
    rw [← ofQuery_fitting hq, ← ofQuery_fitting hq', hfitting]
  exact ⟨congrArg Sql.audit hplan, congrArg Sql.native hplan, fun c =>
    congrArg (fun p => Sql.runBound (Sql.native p) c.table) hplan⟩

def noisyQuery : Query where
  clauses := [⟨"ebitda", "gt", .int 1⟩, ⟨"volume", "gt", .int 1000⟩, ⟨"price", "ne", .int 1⟩,
    ⟨"price", "between", .array [.int 1]⟩, ⟨"symbol", "in", .array []⟩, ⟨"Volume", "eq", .int 1⟩,
    ⟨"sector", "like", .null⟩, ⟨"sector", "in", .array [.string "Energy", .array []]⟩]
  order := some ⟨"popularity", .descending⟩
  limit := 5

def quietQuery : Query :=
  ⟨[⟨"volume", "gt", .int 1000⟩, ⟨"symbol", "in", .array []⟩], none, 5⟩

theorem compiles_fitting_noisyQuery :
    ((∀ c ∈ noisyQuery.clauses ++ quietQuery.clauses, c.value.WellFormed) ∧
      noisyQuery.fitting = quietQuery.fitting) ∧
    List.Forall₂ Clause.Gives quietQuery.clauses (Condition.ofClauses noisyQuery.clauses) ∧
    noisyQuery.sql = "SELECT * FROM stocks WHERE volume > 1000 AND FALSE LIMIT 5" ∧
    ∀ c : Catalog, c.query noisyQuery = c.query quietQuery := by
  have hone : (Json.int 1).WellFormed ∧ (Json.int 1000).WellFormed :=
    ⟨.int (by decide), .int (by decide)⟩
  have hsingle : (Json.array [.int 1]).WellFormed := .array (by simpa using hone.1)
  have hnone : (Json.array []).WellFormed := .array (by simp)
  have hnested : (Json.array [.string "Energy", .array []]).WellFormed :=
    .array (by simpa using ⟨Json.WellFormed.string _, hnone⟩)
  have hwell : ∀ c ∈ noisyQuery.clauses ++ quietQuery.clauses, c.value.WellFormed := by
    simp [noisyQuery, quietQuery, hone, hsingle, hnone, hnested, Json.WellFormed.null]
  have hfitting : noisyQuery.fitting = quietQuery.fitting := rfl
  obtain ⟨-, hconditions, hsame⟩ := compiles_fitting
  obtain ⟨hsql, -, hquery⟩ := hsame noisyQuery quietQuery hwell hfitting
  have hquiet : quietQuery.sql = "SELECT * FROM stocks WHERE volume > 1000 AND FALSE LIMIT 5" := by
    decide +kernel
  exact ⟨⟨hwell, hfitting⟩, hconditions _ fun c hc => hwell c (List.mem_append_left _ hc),
    hsql.trans hquiet, hquery⟩

end Screener
