import Screener.Proofs.Operators

namespace Screener

section

variable {α : Type} {le : α → α → Bool}
  (trans : ∀ a b c, le a b = true → le b c = true → le a c = true)
  (total : ∀ a b, (le a b || le b a) = true)

theorem filter_parts {p : α → Bool} {xs ys : List α} (hxs : ∀ a ∈ xs, p a = false)
    (hys : ∀ a ∈ ys, p a = true) :
    (xs ++ ys).filter (fun a => !p a) = xs ∧ (xs ++ ys).filter p = ys := by
  rw [List.filter_append, List.filter_append]
  constructor
  · rw [List.filter_eq_self.mpr (by simpa using hxs),
      List.filter_eq_nil_iff.mpr (by simpa using hys), List.append_nil]
  · rw [List.filter_eq_nil_iff.mpr (by simpa using hxs), List.filter_eq_self.mpr hys,
      List.nil_append]

include trans total

/-- Where an element comes to stand among the sorted others: behind those that it is not before, in
front of those that it is. -/
theorem mergeSort_cons_parts (a : α) (xs : List α) : ∃ front back : List α,
    (a :: xs).mergeSort le = front ++ a :: back ∧ xs.mergeSort le = front ++ back ∧
      (∀ b ∈ front, le a b = false) ∧ ∀ b ∈ back, le a b = true := by
  obtain ⟨front, back, hcons, hrest, hfront⟩ := List.mergeSort_cons trans total a xs
  have hsorted := List.pairwise_mergeSort trans total (a :: xs)
  rw [hcons, List.pairwise_append, List.pairwise_cons] at hsorted
  refine ⟨front, back, hcons, hrest, ?_, hsorted.2.1.1⟩
  intro b hb
  simpa using hfront b hb

/-- What is left of a list keeps its order when both are sorted. -/
theorem mergeSort_sublist {xs ys : List α} (h : List.Sublist xs ys) :
    List.Sublist (xs.mergeSort le) (ys.mergeSort le) := by
  induction h with
  | slnil => exact List.Sublist.refl _
  | @cons xs ys a _ ih =>
    obtain ⟨front, back, hcons, hrest, -, -⟩ := mergeSort_cons_parts trans total a ys
    rw [hrest] at ih
    rw [hcons]
    exact ih.trans ((List.sublist_cons_self a back).append_left front)
  | @cons_cons xs ys a _ ih =>
    obtain ⟨front, back, hcons, hrest, hfront, hback⟩ := mergeSort_cons_parts trans total a xs
    obtain ⟨front', back', hcons', hrest', hfront', hback'⟩ :=
      mergeSort_cons_parts trans total a ys
    obtain ⟨hf, hb⟩ := filter_parts hfront hback
    obtain ⟨hf', hb'⟩ := filter_parts hfront' hback'
    rw [hrest, hrest'] at ih
    -- The element parts both lists by one test, so what stood within the other still does.
    have hfronts := ih.filter (fun b => !le a b)
    have hbacks := ih.filter (le a)
    rw [hf, hf'] at hfronts
    rw [hb, hb'] at hbacks
    rw [hcons, hcons']
    exact hfronts.append (hbacks.cons_cons a)

end

namespace Query

/-- What a query matches, in its order, before the limit cuts the end off. -/
def matching (q : Query) (rows : List Record) : List Record :=
  (rows.filter q.admits).mergeSort q.before

variable (q : Query)

theorem query_eq_take (rows : List Record) : Catalog.query q ⟨some rows⟩ =
    .ok ((q.matching rows).take (max 1 (min q.limit.toNat 1000))) := by
  rw [Sql.query_eq_select, Sql.select_ofPlan]
  rfl

theorem length_matching (rows : List Record) :
    (q.matching rows).length = rows.countP q.admits := by
  rw [matching, List.length_mergeSort, List.countP_eq_length_filter]

theorem admits_withClause (field operator : String) (value : Json) (r : Record) :
    (q.withClause field operator value).admits r =
      (q.admits r && Clause.admits ⟨field, operator, value⟩ r) := by
  simp only [admits, withClause, List.all_append, List.all_cons, List.all_nil, Bool.and_true]

theorem matching_withClause (field operator : String) (value : Json) (rows : List Record) :
    List.Sublist ((q.withClause field operator value).matching rows) (q.matching rows) := by
  have hadmits : (q.withClause field operator value).admits =
      fun r => q.admits r && Clause.admits ⟨field, operator, value⟩ r := by
    funext r
    exact q.admits_withClause field operator value r
  have hkept : List.Sublist (rows.filter (q.withClause field operator value).admits)
      (rows.filter q.admits) := by
    rw [hadmits, ← List.filter_filter]
    exact List.filter_sublist.filter q.admits
  have htrans : ∀ a b c, q.before a b = true → q.before b c = true → q.before a c = true :=
    fun _ _ _ => q.before_trans
  exact mergeSort_sublist htrans q.before_total hkept

/-- The clauses of a query are a conjunction. The answer depends on nothing but which clauses there
are: a query matches what each of its clauses selects. One clause more brings no record in, and what
it leaves stays in its order. Of two limits the smaller one gives the beginning of what the larger
one gives, as much as it says or all that there is. -/
theorem clauses_conjoin :
    (∀ clauses : List Clause, (∀ c, c ∈ clauses ↔ c ∈ q.clauses) →
      ∀ c : Catalog, c.query ⟨clauses, q.order, q.limit⟩ = c.query q) ∧
    (∀ r, q.admits r = true ↔ ∀ c ∈ q.clauses, Selects [c] r) ∧
    (∀ rows, Catalog.query q ⟨some rows⟩ =
      .ok ((q.matching rows).take (max 1 (min q.limit.toNat 1000)))) ∧
    (∀ field operator value rows, ∃ found : List Record,
      Catalog.query (q.withClause field operator value) ⟨some rows⟩ = .ok found ∧
        List.Sublist found (q.matching rows)) ∧
    ∀ rows (limit limit' : UInt32), limit ≤ limit' → ∃ found found' : List Record,
      Catalog.query (q.withLimit limit) ⟨some rows⟩ = .ok found ∧
        Catalog.query (q.withLimit limit') ⟨some rows⟩ = .ok found' ∧ found <+: found' ∧
          found.length = min (max 1 (min limit.toNat 1000)) (rows.countP q.admits) := by
  refine ⟨?_, ?_, q.query_eq_take, ?_, ?_⟩
  · intro clauses hclauses c
    refine query_congr q.order q.limit ?_ c
    intro r
    rw [Bool.eq_iff_iff, List.all_eq_true, List.all_eq_true]
    exact forall_congr' fun clause => imp_congr_left (hclauses clause)
  · intro r
    simp only [admits, List.all_eq_true, selects_iff, List.forall_mem_singleton]
  · intro field operator value rows
    refine ⟨_, query_eq_take _ rows, ?_⟩
    exact (List.take_sublist _ _).trans (q.matching_withClause field operator value rows)
  · intro rows limit limit' hle
    have hbounds : max 1 (min limit.toNat 1000) ≤ max 1 (min limit'.toNat 1000) :=
      max_le_max_left 1 (min_le_min_right 1000 hle)
    refine ⟨_, _, query_eq_take _ rows, query_eq_take _ rows, ?_, ?_⟩
    · exact List.take_prefix_take_left hbounds
    · rw [List.length_take, length_matching]
      rfl

def cheapTechnology : Query where
  clauses := [⟨"sector", "eq", .string "Technology"⟩, ⟨"price", "lt", .int 100⟩]
  order := none
  limit := 1

def turnedClauses : List Clause :=
  [⟨"price", "lt", .int 100⟩, ⟨"sector", "eq", .string "Technology"⟩, ⟨"price", "lt", .int 100⟩]

def twoStocks : List Record :=
  [(Record.new "ZB" "Zebra" Double.zero).withSector "Technology",
    (Record.new "AAPL" "Apple" Double.zero).withSector "Technology"]

theorem clauses_conjoin_turned :
    ((∀ c, c ∈ turnedClauses ↔ c ∈ cheapTechnology.clauses) ∧ (0 : UInt32) ≤ 5000) ∧
    (∀ c : Catalog, c.query ⟨turnedClauses, none, 1⟩ = c.query cheapTechnology) ∧
    ∃ found found' : List Record,
      Catalog.query (cheapTechnology.withLimit 0) ⟨some twoStocks⟩ = .ok found ∧
        Catalog.query (cheapTechnology.withLimit 5000) ⟨some twoStocks⟩ = .ok found' ∧
        found <+: found' ∧ found.length = 1 := by
  have hsame : ∀ c, c ∈ turnedClauses ↔ c ∈ cheapTechnology.clauses := by
    intro c
    simp only [turnedClauses, cheapTechnology, List.mem_cons, List.not_mem_nil, or_false]
    tauto
  have hle : (0 : UInt32) ≤ 5000 := by decide
  have hcount : twoStocks.countP cheapTechnology.admits = 2 := by decide +kernel
  obtain ⟨hclauses, -, -, -, hlimits⟩ := clauses_conjoin cheapTechnology
  obtain ⟨found, found', hfound, hfound', hprefix, hlength⟩ := hlimits twoStocks 0 5000 hle
  rw [hcount] at hlength
  exact ⟨⟨hsame, hle⟩, hclauses _ hsame, found, found', hfound, hfound', hprefix, hlength⟩

end Query

end Screener
