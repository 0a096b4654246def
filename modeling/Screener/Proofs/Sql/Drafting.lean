import Screener.Proofs.Sql.Marks
import Screener.Sql.Draft

namespace Screener.Sql

namespace Select.Step

/-- The test that a step adds, if it adds one. -/
def tests : Step → List Filter
  | filter f => [f]
  | _ => []

def names : Step → List String
  | columns names => names
  | _ => []

def sorts : Step → List (String × Direction)
  | order column direction => [(column, direction)]
  | _ => []

def limits : Step → List UInt32
  | limit n => [n]
  | _ => []

def mentions : Step → List String
  | columns names => names
  | filter f => [f.column]
  | order column _ => [column]
  | limit _ => []

def isTest : Step → Bool
  | filter _ => true
  | _ => false

theorem tests_of_not_isTest {s : Step} (h : s.isTest = false) : s.tests = [] := by
  cases s with
  | filter f => cases h
  | columns _ | order _ _ | limit _ => rfl

theorem of_isTest {s : Step} (h : (!s.isTest) = false) :
    s.names = [] ∧ s.sorts = [] ∧ s.limits = [] := by
  cases s with
  | filter f => exact ⟨rfl, rfl, rfl⟩
  | columns _ | order _ _ | limit _ => cases h

end Select.Step

theorem flatMap_filter_of_forall {α β : Type} {g : α → List β} {kept : α → Bool}
    (h : ∀ a, kept a = false → g a = []) (as : List α) :
    (as.filter kept).flatMap g = as.flatMap g := by
  induction as with
  | nil => rfl
  | cons a as ih =>
    cases hk : kept a with
    | true => rw [List.filter_cons_of_pos hk, List.flatMap_cons, List.flatMap_cons, ih]
    | false =>
      rw [List.filter_cons_of_neg (by simp [hk]), ih, List.flatMap_cons, h a hk, List.nil_append]

theorem flatMap_congr_of_filter {α β : Type} {g : α → List β} {kept : α → Bool} {as as' : List α}
    (h : ∀ a, kept a = false → g a = []) (hk : as'.filter kept = as.filter kept) :
    as'.flatMap g = as.flatMap g := by
  rw [← flatMap_filter_of_forall h as', hk, flatMap_filter_of_forall h]

namespace Draft

open Select (Step)

/-- A draft after some steps: names, tests and values are added behind what is there, and of sorts
and limits the last one counts. -/
theorem addAll_eq (d : Draft) (steps : List Step) :
    d.addAll steps =
      { table := d.table
        columns := d.columns ++ steps.flatMap Step.names
        tests := d.tests ++ (steps.flatMap Step.tests).map Filter.text
        params := d.params ++ (steps.flatMap Step.tests).flatMap Filter.params
        order := (steps.flatMap Step.sorts).getLast?.or d.order
        limit := (steps.flatMap Step.limits).getLast?.or d.limit } := by
  induction steps generalizing d with
  | nil => simp [addAll]
  | cons s steps ih =>
    rw [addAll, List.foldl_cons, ← addAll, ih]
    cases s <;> simp [add, Step.names, Step.tests, Step.sorts, Step.limits, List.getLast?_cons,
      Option.or_some]

/-- A selection with its tests and its values apart. -/
def ofSelect (s : Select) : Draft :=
  ⟨s.table, s.columns, s.filters.map Filter.text, s.params, s.order, s.limit⟩

theorem ofSelect_apply (s : Select) (step : Step) :
    ofSelect (s.apply step) = (ofSelect s).add step := by
  cases step <;> simp [ofSelect, Select.apply, add, Select.params]

theorem ofSelect_applyAll (s : Select) (steps : List Step) :
    ofSelect (s.applyAll steps) = (ofSelect s).addAll steps := by
  induction steps generalizing s with
  | nil => rfl
  | cons step steps ih =>
    rw [Select.applyAll, List.foldl_cons, ← Select.applyAll, ih, ofSelect_apply]
    rfl

theorem build_ofSelect (s : Select) : (ofSelect s).build = s.build := by
  obtain ⟨table, columns, filters, order, limit⟩ := s
  have hsql : (ofSelect ⟨table, columns, filters, order, limit⟩).build.sql =
      Select.sql ⟨table, columns, filters, order, limit⟩ := by
    simp only [ofSelect, build, Select.sql, projection, List.isEmpty_map]
    cases order <;> cases limit <;> rfl
  rw [Select.build, ← hsql]
  rfl

theorem build_addAll_eq_select (table : String) (steps : List Step) :
    ((start table).addAll steps).build = ((Select.new table).applyAll steps).build := by
  rw [← build_ofSelect, ofSelect_applyAll]
  rfl

def steps : List Call → List Step
  | [] => []
  | .step s :: calls => s :: steps calls
  | .build :: calls => steps calls

/-- For each build among some calls, the steps before it. -/
def pauses : List Call → List (List Step)
  | [] => []
  | .step s :: calls => (pauses calls).map (s :: ·)
  | .build :: calls => [] :: pauses calls

theorem mem_steps_of_mem_pauses {calls : List Call} {before : List Step} (h : before ∈ pauses calls)
    {s : Step} (hs : s ∈ before) : s ∈ steps calls := by
  induction calls generalizing before with
  | nil => cases h
  | cons call calls ih =>
    cases call with
    | step t =>
      obtain ⟨rest, hrest, rfl⟩ := List.mem_map.mp h
      rcases List.mem_cons.mp hs with rfl | hm
      · exact List.mem_cons_self
      · exact List.mem_cons_of_mem t (ih hrest hm)
    | build =>
      rcases List.mem_cons.mp h with rfl | hrest
      · cases hs
      · exact ih hrest hs

theorem run_eq (calls : List Call) (d : Draft) :
    run calls d = ((pauses calls).map fun before => (d.addAll before).build,
      d.addAll (steps calls)) := by
  induction calls generalizing d with
  | nil => rfl
  | cons call calls ih =>
    cases call with
    | step s =>
      rw [run, ih, pauses, List.map_map]
      rfl
    | build =>
      rw [run, ih]
      rfl

def headText (table : String) (steps : List Step) : String :=
  "SELECT " ++ projection (steps.flatMap Step.names) ++ " FROM " ++ table

/-- What stands behind the tests. Of several sorts the last one counts, and of several limits. -/
def tailText (steps : List Step) : String :=
  orderText (steps.flatMap Step.sorts).getLast? ++ limitText (steps.flatMap Step.limits).getLast?

/-- The statement that some steps make, if a test is spelled by `spell`. -/
def stepsText (spell : Filter → String) (table : String) (steps : List Step) : String :=
  headText table steps ++ whereText ((steps.flatMap Step.tests).map spell) ++ tailText steps

/-- What stands before a test that comes behind the tests `before`. -/
def openingText (table : String) (steps : List Step) (before : List Filter) : List Char :=
  (headText table steps).toList ++
    (" WHERE ".toList ++ before.flatMap fun f => f.text.toList ++ " AND ".toList)

/-- The value with number `k` is the operand `v` of one call, and the question mark with that number
stands in the test of this call, at the place of this operand. -/
def Brings (table : String) (steps : List Step) (sql : List Char) (k : ℕ) (v : Value) : Prop :=
  ∃ before f after i p rest, steps = before ++ Step.filter f :: after ∧
    k = ((start table).addAll before).params.length + i ∧ f.params[i]? = some v ∧
    MarkAt f.text.toList i p ∧
    sql = openingText table steps (before.flatMap Step.tests) ++ (f.text.toList ++ rest) ∧
    MarkAt sql k ((openingText table steps (before.flatMap Step.tests)).length + p)

/-- A statement that is laid out as the steps ask. -/
structure Laid (table : String) (steps : List Step) (b : Bound) : Prop where
  text : b.sql = stepsText Filter.text table steps
  params : b.params = (steps.flatMap Step.tests).flatMap Filter.params
  count : b.sql.toList.count '?' = b.params.length
  brings : ∀ k v, b.params[k]? = some v → Brings table steps b.sql.toList k v
  fill : fill b.sql.toList b.params = some (stepsText Filter.spelled table steps).toList

theorem build_addAll_eq (table : String) (steps : List Step) :
    ((start table).addAll steps).build =
      ⟨stepsText Filter.text table steps, (steps.flatMap Step.tests).flatMap Filter.params⟩ := by
  rw [addAll_eq]
  simp only [start, build, List.nil_append, Option.or_none, stepsText, headText, tailText, whereText,
    String.append_assoc]
  rfl

theorem stepsText_split (table : String) {steps : List Step} {before after : List Filter} {f : Filter}
    (h : steps.flatMap Step.tests = before ++ f :: after) :
    ∃ rest, (stepsText Filter.text table steps).toList =
      openingText table steps before ++ (f.text.toList ++ rest) := by
  have hwhere : (whereText ((before ++ f :: after).map Filter.text)).toList =
      " WHERE ".toList ++ (before.flatMap fun f => f.text.toList ++ " AND ".toList) ++
        (f.text.toList ++ after.flatMap fun f => " AND ".toList ++ f.text.toList) := by
    have hne : ((before ++ f :: after).map Filter.text).isEmpty = false := by simp
    rw [whereText, hne, if_neg Bool.false_ne_true, String.toList_append, String.toList_intercalate,
      List.map_append, List.map_cons, List.map_append, List.map_cons, intercalate_append_cons]
    simp only [List.map_map, List.flatMap_map, List.append_assoc, Function.comp_apply]
  refine ⟨(after.flatMap fun f => " AND ".toList ++ f.text.toList) ++ (tailText steps).toList, ?_⟩
  rw [stepsText, h, String.toList_append, String.toList_append, hwhere, openingText]
  simp only [List.append_assoc]

section

variable {table : String} {steps : List Step} (ht : '?' ∉ table.toList)
  (hn : ∀ s ∈ steps, ∀ name ∈ s.mentions, '?' ∉ name.toList)

include hn

theorem notMem_column {f : Filter} (hf : f ∈ steps.flatMap Step.tests) : '?' ∉ f.column.toList := by
  obtain ⟨s, hs, hm⟩ := List.mem_flatMap.mp hf
  cases s with
  | filter g =>
    obtain rfl := List.mem_singleton.mp hm
    exact hn _ hs _ (List.mem_singleton_self _)
  | columns _ | order _ _ | limit _ => cases hm

theorem notMem_tailText : '?' ∉ (tailText steps).toList := by
  have horder : '?' ∉ (orderText (steps.flatMap Step.sorts).getLast?).toList := by
    cases hlast : (steps.flatMap Step.sorts).getLast? with
    | none => exact List.not_mem_nil
    | some sort =>
      obtain ⟨s, hs, hm⟩ := List.mem_flatMap.mp (List.mem_of_getLast? hlast)
      cases s with
      | order column direction =>
        obtain rfl := List.mem_singleton.mp hm
        have hcolumn : '?' ∉ column.toList := hn _ hs _ (List.mem_singleton_self _)
        cases direction <;> simp [orderText, Direction.sql, hcolumn]
      | columns _ | filter _ | limit _ => cases hm
  have hlimit : '?' ∉ (limitText (steps.flatMap Step.limits).getLast?).toList := by
    cases (steps.flatMap Step.limits).getLast? with
    | none => exact List.not_mem_nil
    | some n =>
      have hdigits : '?' ∉ digitsOf n.toNat :=
        not_mem_of_digits (fun d hd => isDigit_of_mem_digitsOf hd) rfl
      simpa [limitText, digitsOf] using hdigits
  rw [tailText, String.toList_append]
  exact List.not_mem_append horder hlimit

include ht

theorem notMem_headText : '?' ∉ (headText table steps).toList := by
  have hnames : ∀ name ∈ steps.flatMap Step.names, '?' ∉ name.toList := by
    intro name hname
    obtain ⟨s, hs, hm⟩ := List.mem_flatMap.mp hname
    cases s with
    | columns names => exact hn _ hs name hm
    | filter _ | order _ _ | limit _ => cases hm
  have hprojection : '?' ∉ (projection (steps.flatMap Step.names)).toList := by
    unfold projection
    split
    · decide
    · exact notMem_intercalate (by decide) hnames
  simp [headText, hprojection, ht]

/-- The values of all tests go to the question marks of the statement. -/
theorem fillsAs_stepsText :
    FillsAs (stepsText Filter.text table steps).toList
      ((steps.flatMap Step.tests).flatMap Filter.params)
      (stepsText Filter.spelled table steps).toList := by
  have hwhere : FillsAs (whereText ((steps.flatMap Step.tests).map Filter.text)).toList
      ((steps.flatMap Step.tests).flatMap Filter.params)
      (whereText ((steps.flatMap Step.tests).map Filter.spelled)).toList := by
    have hword : '?' ∉ " WHERE ".toList := by decide
    have htests := FillsAs.intercalate (show '?' ∉ " AND ".toList by decide) fun f hf =>
      Filter.fillsAs (notMem_column hn hf)
    unfold whereText
    simp only [List.isEmpty_map]
    cases hempty : (steps.flatMap Step.tests).isEmpty with
    | true =>
      rw [List.isEmpty_iff.mp hempty]
      exact FillsAs.unmarked List.not_mem_nil
    | false =>
      have hfill := (FillsAs.unmarked hword).append htests
      simpa only [Bool.false_eq_true, if_false, String.toList_append, List.nil_append] using hfill
  have hfill := ((FillsAs.unmarked (notMem_headText ht hn)).append hwhere).append
    (FillsAs.unmarked (notMem_tailText hn))
  simpa only [stepsText, String.toList_append, List.nil_append, List.append_nil] using hfill

theorem count_openingText {before : List Filter} (hb : ∀ f ∈ before, '?' ∉ f.column.toList) :
    (openingText table steps before).count '?' = (before.flatMap Filter.params).length := by
  have hword : '?' ∉ " WHERE ".toList := by decide
  have hand : '?' ∉ " AND ".toList := by decide
  have htests : FillsAs (before.flatMap fun f => f.text.toList ++ " AND ".toList)
      (before.flatMap fun f => f.params ++ [])
      (before.flatMap fun f => f.spelled.toList ++ " AND ".toList) :=
    FillsAs.flatMap fun f hf => (Filter.fillsAs (hb f hf)).append (FillsAs.unmarked hand)
  have hcount := ((FillsAs.unmarked (notMem_headText ht hn)).append
    ((FillsAs.unmarked hword).append htests)).count
  simpa only [openingText, List.nil_append, List.append_nil] using hcount

/-- The test of a step stands behind the opening that the earlier steps make. -/
theorem brings_of_getElem? {k : ℕ} {v : Value}
    (hv : ((steps.flatMap Step.tests).flatMap Filter.params)[k]? = some v) :
    Brings table steps (stepsText Filter.text table steps).toList k v := by
  have hk : k < (steps.flatMap fun s => s.tests.flatMap Filter.params).length := by
    rw [← List.flatMap_assoc]
    exact (List.getElem?_eq_some_iff.mp hv).1
  obtain ⟨before, s, after, i, rfl, hi, hplace⟩ := exists_part_of_lt hk
  cases s with
  | columns _ | order _ _ | limit _ => exact absurd hi (Nat.not_lt_zero i)
  | filter f =>
    have htests : (before ++ Step.filter f :: after).flatMap Step.tests =
        before.flatMap Step.tests ++ f :: after.flatMap Step.tests := by
      rw [List.flatMap_append, List.flatMap_cons]
      rfl
    have hcolumns : ∀ g ∈ before.flatMap Step.tests ++ f :: after.flatMap Step.tests,
        '?' ∉ g.column.toList := fun g hg => notMem_column hn (htests ▸ hg)
    have hone : (Step.filter f).tests.flatMap Filter.params = f.params := List.append_nil _
    rw [hone] at hi
    rw [← List.flatMap_assoc] at hplace
    have hvalue : f.params[i]? = some v := by
      rwa [htests, List.flatMap_append, List.flatMap_cons, hplace,
        List.getElem?_append_right (Nat.le_add_right _ _), Nat.add_sub_cancel_left,
        List.getElem?_append_left hi] at hv
    have hcount : f.text.toList.count '?' = f.params.length :=
      (Filter.fillsAs (hcolumns f (by simp))).count
    obtain ⟨p, hp⟩ := exists_markAt (hcount.symm ▸ hi)
    obtain ⟨rest, hrest⟩ := stepsText_split table htests
    refine ⟨before, f, after, i, p, rest, rfl, ?_, hvalue, hp, hrest, ?_⟩
    · rw [hplace, addAll_eq]
      rfl
    · have hopening := count_openingText ht hn fun g hg => hcolumns g (List.mem_append_left _ hg)
      have hmark := hp.append (openingText table (before ++ Step.filter f :: after)
        (before.flatMap Step.tests)) rest
      rwa [← hrest, hopening, ← hplace] at hmark

theorem laid_build : Laid table steps ((start table).addAll steps).build := by
  rw [build_addAll_eq]
  have hfill := fillsAs_stepsText ht hn
  exact ⟨rfl, rfl, hfill.count, fun k v hv => brings_of_getElem? ht hn hv, hfill.fill_eq⟩

end

/-- What a draft builds depends on the tests in their order, and on the other steps in theirs. -/
theorem build_addAll_congr (table : String) {steps steps' : List Step}
    (htests : steps'.filter Step.isTest = steps.filter Step.isTest)
    (hothers : steps'.filter (!Step.isTest ·) = steps.filter (!Step.isTest ·)) :
    ((start table).addAll steps').build = ((start table).addAll steps).build := by
  have ht := flatMap_congr_of_filter (fun _ => Step.tests_of_not_isTest) htests
  have hc := flatMap_congr_of_filter (fun _ hs => (Step.of_isTest hs).1) hothers
  have ho := flatMap_congr_of_filter (fun _ hs => (Step.of_isTest hs).2.1) hothers
  have hl := flatMap_congr_of_filter (fun _ hs => (Step.of_isTest hs).2.2) hothers
  simp only [build_addAll_eq, stepsText, headText, tailText, ht, hc, ho, hl]

/-- Builds among any calls. Each gives a statement that is laid out as the steps before it ask, and
the draft goes on as if nothing had been built. Steps other than tests may come before or behind
any test. -/
theorem run_laid (table : String) (calls : List Call) (ht : '?' ∉ table.toList)
    (hn : ∀ s ∈ steps calls, ∀ name ∈ s.mentions, '?' ∉ name.toList) :
    let ran := run calls (start table)
    List.Forall₂ (Laid table) (pauses calls) ran.1 ∧ Laid table (steps calls) ran.2.build ∧
    ran.1 = (pauses calls).map (fun before => ((Select.new table).applyAll before).build) ∧
    ran.2.build = ((Select.new table).applyAll (steps calls)).build ∧
    ∀ calls', (steps calls').filter Step.isTest = (steps calls).filter Step.isTest →
      (steps calls').filter (!Step.isTest ·) = (steps calls).filter (!Step.isTest ·) →
      (run calls' (start table)).2.build = ran.2.build := by
  intro ran
  have hran : ran = ((pauses calls).map fun before => ((start table).addAll before).build,
      (start table).addAll (steps calls)) := run_eq calls (start table)
  rw [hran]
  refine ⟨?_, laid_build ht hn, ?_, build_addAll_eq_select table (steps calls), ?_⟩
  · apply List.forall₂_map_right_iff.mpr
    apply List.forall₂_same.mpr
    intro before hbefore
    exact laid_build ht fun s hs => hn s (mem_steps_of_mem_pauses hbefore hs)
  · exact List.map_congr_left fun before _ => build_addAll_eq_select table before
  · intro calls' htests hothers
    rw [run_eq]
    exact build_addAll_congr table htests hothers

def strayCalls : List Call :=
  [.step (.limit 5), .step (.filter (.between "price" (.bigint 1) (.bigint 9))), .build,
    .step (.columns ["symbol"]), .step (.filter (.member "sector" [])),
    .step (.order "price" .ascending), .step (.filter (.ilike "sector" "%bank%")), .build,
    .step (.order "symbol" .descending), .step (.columns ["price"]), .step (.limit 3),
    .step (.filter (.member "symbol" [.text "A", .text "B"]))]

def tidyCalls : List Call :=
  ((steps strayCalls).filter (!Step.isTest ·) ++ (steps strayCalls).filter Step.isTest).map .step

theorem run_laid_strayCalls :
    List.Forall₂ (Laid "stocks") (pauses strayCalls) (run strayCalls (start "stocks")).1 ∧
    (pauses strayCalls).length = 2 ∧
    (run strayCalls (start "stocks")).2.build =
      ⟨"SELECT symbol, price FROM stocks WHERE price BETWEEN ? AND ? AND FALSE" ++
          " AND sector ILIKE ? ESCAPE '\\' AND symbol IN (?, ?) ORDER BY symbol DESC LIMIT 3",
        [.bigint 1, .bigint 9, .text "%bank%", .text "A", .text "B"]⟩ ∧
    (run tidyCalls (start "stocks")).2.build = (run strayCalls (start "stocks")).2.build := by
  have h := run_laid "stocks" strayCalls (by decide) (by decide)
  exact ⟨h.1, by decide, by decide +kernel, h.2.2.2.2 tidyCalls (by decide) (by decide)⟩

end Draft

end Screener.Sql
