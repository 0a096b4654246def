import Screener.Proofs.Answer
import Screener.Proofs.Number.Exact

namespace Screener.Sql

/-- A comparison of `m` with `k` that comes out otherwise than between level numbers. -/
def OffLevel (m k : ℤ) : Comparison → Prop
  | .eq => m ≠ k
  | .gt | .lte => k < m
  | .gte | .lt => m < k

instance (m k : ℤ) (c : Comparison) : Decidable (OffLevel m k c) := by
  unfold OffLevel
  cases c <;> infer_instance

theorem offLevel_iff (m k : ℤ) (c : Comparison) :
    OffLevel m k c ↔ holds c (compare m k) ≠ holds c .eq := by
  rcases lt_trichotomy m k with h | h | h
  · rw [compare_lt_iff_lt.mpr h]
    cases c <;> simp only [OffLevel, ne_eq, h, h.ne, h.not_gt] <;> decide
  · rw [compare_eq_iff_eq.mpr h]
    cases c <;> simp [OffLevel, h]
  · rw [compare_gt_iff_gt.mpr h]
    cases c <;> simp only [OffLevel, ne_eq, h, h.ne', h.not_gt] <;> decide

/-- The whole number `n` is rounded to the operand `x`, but lies off the whole number that the text
of `x` spells, on a side that matters to the comparison. -/
def Strays (c : Comparison) (n : Int64) (x : Double) : Prop :=
  '.' ∉ x.digits ∧ (Binary.ofInt? n.toInt : Option Double).map Binary.steps = some x.steps ∧
    OffLevel n.toInt x.spelledInt c

instance (c : Comparison) (n : Int64) (x : Double) : Decidable (Strays c n x) := by
  unfold Strays
  infer_instance

theorem compareTruth_integer_iff (c : Comparison) (n : Int64) (x : Double) :
    compareTruth c (.integer n.toInt) (.ofDouble x) =
      compareTruth c (.integer n.toInt) (.double x) ↔ ¬Strays c n x := by
  by_cases hpoint : '.' ∈ x.digits
  · simp [Datum.ofDouble, Strays, hpoint]
  obtain ⟨y, hy⟩ := Binary.ofInt?_isSome n
  obtain ⟨z, hz, hzx⟩ := Binary.ofInt?_spelledInt hpoint
  have htext : compareTruth c (.integer n.toInt) (.ofDouble x) =
      some (holds c (compare n.toInt x.spelledInt)) := by
    rw [Datum.ofDouble, if_neg hpoint]
    rfl
  have hrun : compareTruth c (.integer n.toInt) (.double x) =
      some (holds c (y.compareValue z)) := by
    rw [compareTruth, Datum.order?, hy, Binary.compareValue, hzx]
    rfl
  rw [htext, hrun, Option.some.injEq, Strays, hy, Option.map_some, Option.some.injEq, ← hzx,
    ← Binary.merges_iff hy hz, offLevel_iff, Binary.compareValue_ofInt? hy hz]
  -- Rounding keeps the order, so numbers that it does not merge compare as before it.
  by_cases hmerges : Binary.Merges n.toInt x.spelledInt
  · simp [hpoint, hmerges]
  · simp [hmerges]

/-- As `Strays`, for any value and operand: only whole numbers beside doubles can stray. -/
def LiteralStrays (c : Comparison) : Literal → Literal → Prop
  | .int n, .float x => Strays c n x
  | _, _ => False

instance (c : Comparison) (v l : Literal) : Decidable (LiteralStrays c v l) := by
  unfold LiteralStrays
  split <;> infer_instance

theorem compareTruth_double (c : Comparison) (y x : Double) :
    compareTruth c (.double y) (.ofDouble x) = compareTruth c (.double y) (.double x) := by
  by_cases hpoint : '.' ∈ x.digits
  · rw [Datum.ofDouble, if_pos hpoint]
  · obtain ⟨z, hz, hzx⟩ := Binary.ofInt?_spelledInt hpoint
    have horder : (Datum.double y).order? (.integer x.spelledInt) = some (y.compareValue x) := by
      rw [Datum.order?, hz, Binary.compareValue, ← hzx]
      rfl
    rw [Datum.ofDouble, if_neg hpoint, compareTruth, horder]
    rfl

theorem compareTruth_ofText_iff (c : Comparison) (v l : Literal) :
    compareTruth c (.ofLiteral v) (.ofText l) = compareTruth c (.ofLiteral v) (.ofLiteral l) ↔
      ¬LiteralStrays c v l := by
  cases l with
  | float x =>
    have hnone : ∀ d : Datum, (∀ k, d.order? (.integer k) = none) →
        (∀ y, d.order? (.double y) = none) →
          compareTruth c d (.ofDouble x) = compareTruth c d (.double x) := by
      intro d hi hd
      rw [Datum.ofDouble]
      split <;> simp [compareTruth, hi, hd]
    cases v with
    | int n => exact compareTruth_integer_iff c n x
    | float y => exact iff_of_true (compareTruth_double c y x) not_false
    | null => exact iff_of_true (hnone .null (fun _ => rfl) fun _ => rfl) not_false
    | bool b => exact iff_of_true (hnone (.boolean b) (fun _ => rfl) fun _ => rfl) not_false
    | text s => exact iff_of_true (hnone (.text s) (fun _ => rfl) fun _ => rfl) not_false
  | _ => exact iff_of_true rfl (by cases v <;> exact not_false)

/-- A comparison of a condition strays on a record. -/
def ConditionStrays (c : Condition) (r : Record) : Prop :=
  match c.predicate with
  | .compare o l => LiteralStrays o (r.value c.field) l
  | .between low high =>
    LiteralStrays .gte (r.value c.field) low ∨ LiteralStrays .lte (r.value c.field) high
  | .contains _ => False
  | .member ls => ∃ l ∈ ls, LiteralStrays .eq (r.value c.field) l

instance (c : Condition) (r : Record) : Decidable (ConditionStrays c r) := by
  unfold ConditionStrays
  split <;> infer_instance

theorem truth_ofText {c : Condition} {r : Record} (h : ¬ConditionStrays c r) :
    (Test.ofCondition .ofText c).truth (cell? r) = (Test.ofCondition .ofLiteral c).truth (cell? r) := by
  obtain ⟨f, o | _ | pattern | ls⟩ := c
  -- Both tests look at one column, so only what the operands are read as can make a difference.
  case compare l =>
    show compareTruth o ((Target.column f.column).datum (cell? r)) (.ofText l) =
      compareTruth o ((Target.column f.column).datum (cell? r)) (.ofLiteral l)
    rw [datum_column]
    exact (compareTruth_ofText_iff o _ l).mpr h
  case between low high =>
    obtain ⟨hlow, hhigh⟩ := not_or.mp h
    show (compareTruth .gte ((Target.column f.column).datum (cell? r)) (.ofText low)).and
        (compareTruth .lte ((Target.column f.column).datum (cell? r)) (.ofText high)) =
      (compareTruth .gte ((Target.column f.column).datum (cell? r)) (.ofLiteral low)).and
        (compareTruth .lte ((Target.column f.column).datum (cell? r)) (.ofLiteral high))
    rw [datum_column, (compareTruth_ofText_iff .gte _ low).mpr hlow,
      (compareTruth_ofText_iff .lte _ high).mpr hhigh]
  case contains => rfl
  case member =>
    cases ls with
    | nil => rfl
    | cons l ls =>
      have hall : ∀ k ∈ l :: ls, compareTruth .eq (.ofLiteral (r.value f)) (.ofText k) =
          compareTruth .eq (.ofLiteral (r.value f)) (.ofLiteral k) := fun k hk =>
        (compareTruth_ofText_iff .eq _ k).mpr fun hs => h ⟨k, hk, hs⟩
      show ((l :: ls).map Datum.ofText).foldr
          (fun d t => (compareTruth .eq ((Target.column f.column).datum (cell? r)) d).or t) (some false) =
        ((l :: ls).map Datum.ofLiteral).foldr
          (fun d t => (compareTruth .eq ((Target.column f.column).datum (cell? r)) d).or t) (some false)
      rw [datum_column, List.foldr_map, List.foldr_map]
      refine List.foldr_ext _ _ _ fun k hk t => ?_
      rw [hall k hk]

theorem keeps_eq_all (datum : Literal → Datum) (columns : Option (List String)) (p : Plan)
    (r : Record) : (Statement.ofPlan datum columns p).keeps (cell? r) =
      (p.conditions.map fun c => (Test.ofCondition datum c).truth (cell? r)).all (· == some true) := by
  simp [Statement.keeps, Statement.ofPlan, List.all_map, Function.comp_def]

/-- The text that is shown runs as the statement of the plan with its operands read from text. -/
theorem runBound_sql (q : Query) (rows : List Record) :
    runBound ⟨q.sql, []⟩ (some rows) =
      .ok ((Statement.ofPlan .ofText none (.ofQuery q)).select rows) := by
  have hnames : ∀ n ∈ (none : Option (List String)).getD [], n ∈ Record.columns := by simp
  rw [Query.sql, runBound_of_ofBound? (ofBound?_audit _), run_ofPlan fits_ofText hnames
    fun c => wellTyped_of_mem]

/-- Neither text of a query asks for a conversion that can fail, whatever the operands were. -/
theorem runBound_ne_conversion (q : Query) (table : Option (List Record)) :
    runBound (native (.ofQuery q)) table ≠ .error .conversion ∧
      runBound ⟨q.sql, []⟩ table ≠ .error .conversion := by
  cases table with
  | none =>
    rw [runBound_of_ofBound? (ofBound?_native (limit_lt_size q)), Query.sql,
      runBound_of_ofBound? (ofBound?_audit _)]
    constructor <;> intro h <;> cases h
  | some rows =>
    have hnative := query_eq_select q rows
    rw [Catalog.query] at hnative
    rw [hnative, runBound_sql]
    constructor <;> intro h <;> cases h

example : Statement.run ⟨none, stocksTable, [.compare (.column "price") .gt (.text "high")], none,
    some 100⟩ (some []) = .error .conversion := by
  decide

theorem select_congr (q : Query) {rows : List Record}
    (h : ∀ r ∈ rows, ∀ c ∈ (Plan.ofQuery q).conditions, ¬ConditionStrays c r) :
    (Statement.ofPlan .ofText none (.ofQuery q)).select rows =
      (Statement.ofPlan .ofLiteral (some Record.columns) (.ofQuery q)).select rows := by
  -- Sort and limit are the same, so it is enough that the same rows are kept.
  have hkeeps :
      (rows.filter fun r => (Statement.ofPlan .ofText none (.ofQuery q)).keeps (cell? r)) =
        rows.filter fun r =>
          (Statement.ofPlan .ofLiteral (some Record.columns) (.ofQuery q)).keeps (cell? r) := by
    refine List.filter_congr fun r hr => ?_
    have htruth : ((Plan.ofQuery q).conditions.map fun c => (Test.ofCondition .ofText c).truth (cell? r)) =
        (Plan.ofQuery q).conditions.map fun c => (Test.ofCondition .ofLiteral c).truth (cell? r) :=
      List.map_congr_left fun c hc => truth_ofText (h r hr c hc)
    rw [keeps_eq_all, keeps_eq_all, htruth]
  rw [Statement.select, Statement.selectBy, hkeeps]
  rfl

theorem select_singleton (datum : Literal → Datum) (columns : Option (List String)) (q : Query)
    (r : Record) : (Statement.ofPlan datum columns (.ofQuery q)).select [r] =
      if (Statement.ofPlan datum columns (.ofQuery q)).keeps (cell? r) then [r] else [] := by
  obtain ⟨n, hn⟩ : ∃ n, q.effectiveLimit = n + 1 :=
    ⟨q.effectiveLimit - 1, by unfold Query.effectiveLimit; omega⟩
  have hlimit : (Statement.ofPlan datum columns (.ofQuery q)).limit = some (n + 1) :=
    congrArg some hn
  rw [Statement.select, Statement.selectBy, hlimit]
  cases hk : (Statement.ofPlan datum columns (.ofQuery q)).keeps (cell? r) <;> simp [hk]

theorem truth_ne_none (c : Comparison) (n : Int64) (x : Double) :
    compareTruth c (.integer n.toInt) (.ofDouble x) ≠ none ∧
      compareTruth c (.integer n.toInt) (.double x) ≠ none := by
  obtain ⟨y, hy⟩ := Binary.ofInt?_isSome n
  have hrun : compareTruth c (.integer n.toInt) (.double x) ≠ none := by
    simp [compareTruth, Datum.order?, hy]
  refine ⟨?_, hrun⟩
  rw [Datum.ofDouble]
  split
  · exact hrun
  · simp [compareTruth, Datum.order?]

theorem keeps_ne_of_strays {q : Query} {f : Field} {c : Comparison} {l : Literal} {r : Record}
    (hq : (Plan.ofQuery q).conditions = [⟨f, .compare c l⟩])
    (h : LiteralStrays c (r.value f) l) :
    (Statement.ofPlan .ofText none (.ofQuery q)).keeps (cell? r) ≠
      (Statement.ofPlan .ofLiteral (some Record.columns) (.ofQuery q)).keeps (cell? r) := by
  have hne := mt (compareTruth_ofText_iff c (r.value f) l).mp (not_not.mpr h)
  have hkeeps : ∀ (datum : Literal → Datum) (columns : Option (List String)),
      (Statement.ofPlan datum columns (.ofQuery q)).keeps (cell? r) =
        (compareTruth c (.ofLiteral (r.value f)) (datum l) == some true) := by
    intro datum columns
    rw [keeps_eq_all, hq, ← datum_column]
    simp [Test.ofCondition, Test.truth, Condition.column]
  rw [hkeeps, hkeeps]
  cases hv : r.value f with
  | int n =>
    cases l with
    | float x =>
      rw [hv] at hne
      -- Neither comparison is unknown, so if they differ, one of them is true.
      obtain ⟨ht, hr⟩ := truth_ne_none c n x
      obtain ⟨a, ha⟩ := Option.ne_none_iff_exists'.mp ht
      obtain ⟨b, hb⟩ := Option.ne_none_iff_exists'.mp hr
      have ha' : compareTruth c (.ofLiteral (.int n)) (.ofText (.float x)) = some a := ha
      have hb' : compareTruth c (.ofLiteral (.int n)) (.ofLiteral (.float x)) = some b := hb
      rw [ha', hb'] at hne ⊢
      simpa using hne
    | _ => rw [hv] at h; exact h.elim
  | _ => rw [hv] at h; exact h.elim

/-- The text that is shown, run as a statement, gives what the query gives, unless a comparison
strays on a record; a query of one comparison that strays on any record tells them apart. -/
theorem runBound_sql_eq_query (q : Query) :
    (∀ rows : List Record,
      (∀ r ∈ rows, ∀ c ∈ (Plan.ofQuery q).conditions, ¬ConditionStrays c r) →
        runBound ⟨q.sql, []⟩ (some rows) = Catalog.query q ⟨some rows⟩) ∧
    ∀ (f : Field) (c : Comparison) (l : Literal),
      (Plan.ofQuery q).conditions = [⟨f, .compare c l⟩] →
        ((∀ rows : List Record, runBound ⟨q.sql, []⟩ (some rows) = Catalog.query q ⟨some rows⟩) ↔
          ∀ r : Record, ¬LiteralStrays c (r.value f) l) := by
  have hagree : ∀ rows : List Record,
      (∀ r ∈ rows, ∀ c ∈ (Plan.ofQuery q).conditions, ¬ConditionStrays c r) →
        runBound ⟨q.sql, []⟩ (some rows) = Catalog.query q ⟨some rows⟩ := by
    intro rows h
    rw [runBound_sql, query_eq_select, select_congr q h]
  refine ⟨hagree, fun f c l hq => ⟨fun h r hs => ?_, fun h rows => hagree rows ?_⟩⟩
  · have hr := h [r]
    rw [runBound_sql, query_eq_select, select_singleton, select_singleton] at hr
    have hne := keeps_ne_of_strays hq hs
    revert hr
    cases ht : (Statement.ofPlan .ofText none (.ofQuery q)).keeps (cell? r) <;>
      cases hn : (Statement.ofPlan .ofLiteral (some Record.columns) (.ofQuery q)).keeps (cell? r) <;>
        simp_all
  · intro r _ d hd
    rw [hq, List.mem_singleton] at hd
    rw [hd]
    exact h r

def twoTo53 : Double := ⟨false, 4503599627370496, 1, by decide⟩

def roundedQuery : Query := Query.empty.withClause "volume" "eq" (.float twoTo53)

def exactRecord : Record := (Record.new "A" "A" Double.zero).withVolume 9007199254740992

def roundedRecord : Record := (Record.new "A" "A" Double.zero).withVolume 9007199254740993

theorem sql_agrees_on_exact :
    (∀ r ∈ [exactRecord], ∀ c ∈ (Plan.ofQuery roundedQuery).conditions, ¬ConditionStrays c r) ∧
    runBound ⟨roundedQuery.sql, []⟩ (some [exactRecord]) =
      Catalog.query roundedQuery ⟨some [exactRecord]⟩ ∧
    (Plan.ofQuery roundedQuery).conditions = [⟨.volume, .compare .eq (.float twoTo53)⟩] ∧
    ((∀ rows : List Record,
        runBound ⟨roundedQuery.sql, []⟩ (some rows) = Catalog.query roundedQuery ⟨some rows⟩) ↔
      ∀ r : Record, ¬LiteralStrays .eq (r.value .volume) (.float twoTo53)) := by
  have hstrays : ∀ r ∈ [exactRecord], ∀ c ∈ (Plan.ofQuery roundedQuery).conditions,
      ¬ConditionStrays c r := by
    decide +kernel
  have hconditions : (Plan.ofQuery roundedQuery).conditions =
      [⟨.volume, .compare .eq (.float twoTo53)⟩] := by
    decide +kernel
  exact ⟨hstrays, (runBound_sql_eq_query roundedQuery).1 _ hstrays, hconditions,
    (runBound_sql_eq_query roundedQuery).2 _ _ _ hconditions⟩

theorem sql_misses_rounded :
    runBound ⟨roundedQuery.sql, []⟩ (some [roundedRecord]) = .ok [] ∧
      Catalog.query roundedQuery ⟨some [roundedRecord]⟩ = .ok [roundedRecord] := by
  rw [runBound_sql, query_eq_select, select_singleton, select_singleton]
  have ht : (Statement.ofPlan .ofText none (.ofQuery roundedQuery)).keeps
      (cell? roundedRecord) = false := by
    decide +kernel
  have hr : (Statement.ofPlan .ofLiteral (some Record.columns) (.ofQuery roundedQuery)).keeps
      (cell? roundedRecord) = true := by
    decide +kernel
  rw [ht, hr]
  exact ⟨rfl, rfl⟩

end Screener.Sql
