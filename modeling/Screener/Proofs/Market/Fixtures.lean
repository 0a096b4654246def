import Mathlib.Data.List.Basic
import Mathlib.Data.List.Induction
import Screener.Market.Fixture

namespace Screener.Market

/-- What is had for some names, one after the other. A name that nothing is had for is left out. -/
inductive Collects {α β : Type} (has : α → β → Prop) : List α → List β → Prop
  | nil : Collects has [] []
  | found {a : α} {b : β} {names : List α} {batch : List β} (h : has a b)
      (rest : Collects has names batch) : Collects has (a :: names) (b :: batch)
  | skipped {a : α} {names : List α} {batch : List β} (h : ∀ b, ¬has a b)
      (rest : Collects has names batch) : Collects has (a :: names) batch

theorem filterMap_eq_iff {α β : Type} {f : α → Option β} {has : α → β → Prop}
    (hf : ∀ a b, f a = some b ↔ has a b) (names : List α) (batch : List β) :
    names.filterMap f = batch ↔ Collects has names batch := by
  constructor
  · rintro rfl
    induction names with
    | nil => exact .nil
    | cons a names ih =>
      cases ha : f a with
      | none =>
        rw [List.filterMap_cons_none ha]
        exact .skipped (fun b hb => by simp [(hf a b).mpr hb] at ha) ih
      | some b =>
        rw [List.filterMap_cons_some ha]
        exact .found ((hf a b).mp ha) ih
  · intro h
    induction h with
    | nil => rfl
    | found h rest ih => rw [List.filterMap_cons_some ((hf _ _).mpr h), ih]
    | @skipped a names batch h rest ih =>
      have ha : f a = none := Option.eq_none_iff_forall_ne_some.mpr fun b hb => h b ((hf a b).mp hb)
      rw [List.filterMap_cons_none ha, ih]

def LastOf (records : List Record) (symbol : String) (r : Record) : Prop :=
  ∃ before after, records = before ++ r :: after ∧ r.symbol = symbol ∧
    ∀ b ∈ after, b.symbol ≠ symbol

theorem lastOf_append {records : List Record} {r b : Record} {symbol : String} :
    LastOf (records ++ [r]) symbol b ↔
      if r.symbol = symbol then b = r else LastOf records symbol b := by
  by_cases h : r.symbol = symbol
  · rw [if_pos h]
    constructor
    · rintro ⟨before, after, hsplit, -, hafter⟩
      rcases List.eq_nil_or_concat' after with rfl | ⟨init, last, rfl⟩
      · exact (List.cons.inj (List.append_inj' hsplit rfl).2).1.symm
      · rw [← List.cons_append, ← List.append_assoc] at hsplit
        obtain rfl := (List.cons.inj (List.append_inj' hsplit rfl).2).1
        exact absurd h (hafter r (by simp))
    · rintro rfl
      exact ⟨records, [], rfl, h, by simp⟩
  · rw [if_neg h]
    constructor
    · rintro ⟨before, after, hsplit, hb, hafter⟩
      rcases List.eq_nil_or_concat' after with rfl | ⟨init, last, rfl⟩
      · obtain rfl := (List.cons.inj (List.append_inj' hsplit rfl).2).1
        exact absurd hb h
      · rw [← List.cons_append, ← List.append_assoc] at hsplit
        exact ⟨before, init, (List.append_inj' hsplit rfl).1, hb, fun x hx => hafter x (by simp [hx])⟩
    · rintro ⟨before, after, rfl, hb, hafter⟩
      refine ⟨before, after ++ [r], by simp, hb, fun x hx => ?_⟩
      rcases List.mem_append.mp hx with hx | hx
      · exact hafter x hx
      · rwa [List.mem_singleton.mp hx]

namespace Fixture

theorem lookup?_append (records : List Record) (r : Record) (symbol : String) :
    lookup? ⟨records ++ [r]⟩ symbol =
      if r.symbol = symbol then some r else lookup? ⟨records⟩ symbol := by
  rw [lookup?, List.reverse_append, List.reverse_singleton, List.singleton_append, List.find?_cons]
  by_cases h : r.symbol = symbol
  · rw [decide_eq_true h, if_pos h]
  · rw [decide_eq_false h, if_neg h]
    rfl

theorem lookup?_eq_some_iff (records : List Record) (symbol : String) (r : Record) :
    lookup? ⟨records⟩ symbol = some r ↔ LastOf records symbol r := by
  -- The map and the last record both change with a record that is put behind the others.
  induction records using List.reverseRecOn with
  | nil => simp [lookup?, LastOf]
  | append_singleton records x ih =>
    rw [lookup?_append, lastOf_append]
    split
    · rw [Option.some_inj, eq_comm]
    · exact ih

theorem symbol_of_lookup? {f : Fixture} {symbol : String} {r : Record}
    (h : f.lookup? symbol = some r) : r.symbol = symbol := by
  obtain ⟨_, _, -, hr, -⟩ := (lookup?_eq_some_iff f.records symbol r).mp h
  exact hr

theorem isSome_lookup?_iff (f : Fixture) (symbol : String) :
    (f.lookup? symbol).isSome ↔ symbol ∈ f.records.map Record.symbol := by
  simp [lookup?, List.find?_isSome]

/-- What is fetched has the names that the fixture holds, each as often as it was asked for. -/
theorem symbols_fetch (f : Fixture) (names : List String) :
    (f.fetch names).map Record.symbol =
      names.filter fun name => decide (name ∈ f.records.map Record.symbol) := by
  induction names with
  | nil => rfl
  | cons name names ih =>
    rw [fetch] at ih ⊢
    cases h : f.lookup? name with
    | none =>
      have hname : name ∉ f.records.map Record.symbol := by
        rw [← isSome_lookup?_iff, h]
        exact Bool.false_ne_true
      rw [List.filterMap_cons_none h, ih, List.filter_cons_of_neg (by simpa using hname)]
    | some r =>
      have hname : name ∈ f.records.map Record.symbol := by
        rw [← isSome_lookup?_iff, h]
        rfl
      rw [List.filterMap_cons_some h, List.map_cons, ih, symbol_of_lookup? h,
        List.filter_cons_of_pos (by simpa using hname)]

theorem fetch_eq_iff (f : Fixture) (names : List String) (batch : List Record) :
    f.fetch names = batch ↔ Collects (LastOf f.records) names batch :=
  filterMap_eq_iff (lookup?_eq_some_iff f.records) names batch

end Fixture

end Screener.Market
