import Screener.Proofs.Answer
import Screener.Proofs.Catalog.Runs
import Screener.Proofs.Catalog.Stored

namespace Screener

def Query.bySymbol (symbol : String) (order : Option SortKey) (limit : UInt32) : Query :=
  ⟨[⟨"symbol", "eq", .string symbol⟩], order, limit⟩

namespace Catalog

/-- What a call has to add, each record with the time at which it is added. -/
def Call.offered : Call → List (Timestamp × Record)
  | insert now batch => batch.map fun r => (now, r)
  | seed now source names =>
    match source names with
    | .ok batch => batch.map fun r => (now, r)
    | .error _ => []
  | init | count | query _ => []

def Call.reported (call : Call) (c : Catalog) : Nat :=
  match call with
  | insert now batch => (c.insert now batch).1.toOption.getD 0
  | seed now source names => (c.seed now source names).1.toOption.getD 0
  | init | count | query _ => 0

/-- The records that were added in the course of some events, by what the calls have said. -/
def ledger : List Event → Catalog → List (Timestamp × Record)
  | [], _ => []
  | .done call :: events, c =>
    call.offered.take (call.reported c) ++ ledger events (call.next c)
  | e :: events, c => ledger events (e.next c)

def kept (entries : List (Timestamp × Record)) : List Record :=
  entries.map fun (now, r) => stamp now r

theorem kept_append (a b : List (Timestamp × Record)) : kept (a ++ b) = kept a ++ kept b :=
  List.map_append

theorem kept_map (now : Timestamp) (batch : List Record) :
    kept (batch.map fun r => (now, r)) = batch.map (stamp now) := by
  rw [kept, List.map_map]
  rfl

theorem rows_insert (now : Timestamp) (batch : List Record) {c : Catalog}
    (hc : (symbols c.rows).Nodup) :
    (c.insert now batch).2.rows = c.rows ++
      kept ((batch.map fun r => (now, r)).take ((c.insert now batch).1.toOption.getD 0)) := by
  rcases insert_cases now batch hc with ⟨e, he⟩ | ⟨rows, rfl, -, he⟩
  · rw [he]
    simp [Except.toOption, kept]
  · have htake : (batch.map fun r => (now, r)).take batch.length = batch.map fun r => (now, r) :=
      List.take_of_length_le (by simp)
    rw [he]
    show rows ++ batch.map (stamp now) = rows ++ kept (List.take batch.length _)
    rw [htake, kept_map]

theorem rows_next (call : Call) {c : Catalog} (hc : (symbols c.rows).Nodup) :
    (call.next c).rows = c.rows ++ kept (call.offered.take (call.reported c)) := by
  have hnone : c.rows = c.rows ++ kept [] := (List.append_nil _).symm
  cases call with
  | init => exact hnone
  | insert now batch => exact rows_insert now batch hc
  | seed now source names =>
    show (c.seed now source names).2.rows = c.rows ++ kept ((Call.seed now source names).offered.take
      ((c.seed now source names).1.toOption.getD 0))
    rcases seed_cases now source names c with ⟨e, he⟩ | ⟨-, he⟩ | ⟨batch, -, hsource, he⟩
    · rw [he]
      simpa [Except.toOption] using hnone
    · rw [he]
      simpa [Except.toOption] using hnone
    · -- A seed that adds is an insert of what the source had.
      rw [he, Call.offered, hsource]
      exact rows_insert now batch hc
  | count => exact hnone
  | query q => exact hnone

/-- The rows are what calls have said they added, behind what was there. -/
theorem rows_after (events : List Event) {c : Catalog} (hc : c.Sound) :
    (after events c).rows = c.rows ++ kept (ledger events c) := by
  -- The rows and the ledger grow by the same records; sound rows are needed for a batch to fit.
  induction events generalizing c with
  | nil => exact (List.append_nil _).symm
  | cons e events ih =>
    have hnext := ih ((step_next e hc.distinct).sound hc)
    show (after events (e.next c)).rows = _
    rw [hnext]
    cases e with
    | done call =>
      show (call.next c).rows ++ _ = _
      rw [rows_next call hc.distinct, ledger, kept_append, List.append_assoc]
      rfl
    | broken call => rfl
    | halfMade => rfl

theorem filter_symbol_eq_nil {rows : List Record} {s : String} (h : s ∉ symbols rows) :
    (rows.filter fun r => decide (r.symbol = s)) = [] := by
  rw [List.filter_eq_nil_iff]
  intro r hr he
  apply h
  rw [← of_decide_eq_true he]
  exact List.mem_map_of_mem hr

theorem filter_symbol_eq {rows : List Record} (h : (symbols rows).Nodup) {r : Record}
    (hr : r ∈ rows) : (rows.filter fun x => decide (x.symbol = r.symbol)) = [r] := by
  induction rows with
  | nil => cases hr
  | cons x rows ih =>
    obtain ⟨hx, hrows⟩ := List.nodup_cons.mp h
    rcases List.mem_cons.mp hr with rfl | hr
    · rw [List.filter_cons_of_pos (by simp), filter_symbol_eq_nil hx]
    · have hne : x.symbol ≠ r.symbol := by
        intro he
        apply hx
        rw [he]
        exact List.mem_map_of_mem hr
      rw [List.filter_cons_of_neg (by simpa using hne), ih hrows hr]

theorem admits_bySymbol (s : String) (order : Option SortKey) (limit : UInt32) (r : Record) :
    (Query.bySymbol s order limit).admits r = decide (r.symbol = s) := by
  have hfield : Field.ofName? "symbol" = some .symbol := Field.ofName?_name .symbol
  have hoperator : Operator.ofName? "eq" = some (.compare .eq) := Operator.ofName?_name (.compare .eq)
  have hclause : (⟨"symbol", "eq", .string s⟩ : Clause).admits r = (compare r.symbol s).isEq := by
    simp only [Clause.admits, hfield, hoperator]
    rfl
  rw [Query.admits, Query.bySymbol, List.all_cons, List.all_nil, Bool.and_true, hclause,
    Bool.eq_iff_iff, Ordering.isEq_iff_eq_eq, Std.compare_eq_iff_eq, decide_eq_true_iff]

theorem answer_bySymbol {rows found : List Record} {s : String} (order : Option SortKey)
    (limit : UInt32) (hf : (rows.filter fun r => decide (r.symbol = s)) = found)
    (hl : found.length ≤ 1) : (Query.bySymbol s order limit).answer rows = found := by
  have hadmits : (Query.bySymbol s order limit).admits = fun r => decide (r.symbol = s) :=
    funext (admits_bySymbol s order limit)
  have hsorted : found.mergeSort (Query.bySymbol s order limit).before = found := by
    obtain _ | ⟨r, _ | ⟨r', found⟩⟩ := found
    · exact List.mergeSort_nil
    · exact List.mergeSort_singleton r
    · simp at hl
  rw [Query.answer, hadmits, hf, hsorted, List.take_of_length_le]
  omega

theorem query_bySymbol {rows found : List Record} {s : String} (order : Option SortKey)
    (limit : UInt32) (hf : (rows.filter fun r => decide (r.symbol = s)) = found)
    (hl : found.length ≤ 1) : query (.bySymbol s order limit) ⟨some rows⟩ = .ok found := by
  rw [Sql.query_eq_select, Sql.select_ofPlan, answer_bySymbol order limit hf hl]

theorem query_no_table (q : Query) :
    query q ⟨none⟩ = .error (.unknownTable Sql.stocksTable) := by
  rw [query, Sql.runBound_of_ofBound? (Sql.ofBound?_native (Sql.limit_lt_size q))]
  rfl

section

variable {c : Catalog} (order : Option SortKey) (limit : UInt32)

theorem query_symbol_of_mem (hc : (symbols c.rows).Nodup) {r : Record} (hr : r ∈ c.rows) :
    c.query (.bySymbol r.symbol order limit) = .ok [r] := by
  obtain ⟨_ | rows⟩ := c
  · exact absurd hr List.not_mem_nil
  · exact query_bySymbol order limit (filter_symbol_eq hc hr) le_rfl

theorem query_symbol_of_not_mem {s : String} (hs : s ∉ symbols c.rows) :
    c.query (.bySymbol s order limit) =
      if c.table.isSome then .ok [] else .error (.unknownTable Sql.stocksTable) := by
  obtain ⟨_ | rows⟩ := c
  · exact query_no_table _
  · exact query_bySymbol order limit (filter_symbol_eq_nil hs) (Nat.zero_le 1)

end

/-- In the course of any events, whatever a call has said it added is found by its symbol, with any
sort and any limit: it alone, with every field as it was given and a time, its own or else that of
the call, to the microsecond. Any other text finds nothing, and nothing else is stored. -/
theorem query_bySymbol_after (events : List Event) (order : Option SortKey) (limit : UInt32) :
    let c := after events empty
    c.rows = kept (ledger events empty) ∧
    (∀ now r, (now, r) ∈ ledger events empty →
      c.query (.bySymbol r.symbol order limit) =
        .ok [{ r with createdAt := some (r.createdAt.getD now).truncated }] ∧
      ((Sql.Row.ofRecord now r).cells?
        (Sql.Select.ofPlan (.ofQuery (.bySymbol r.symbol order limit))).columns).bind
          Sql.recordOfCells? =
        some { r with createdAt := some (r.createdAt.getD now).truncated }) ∧
    ∀ s, s ∉ symbols c.rows → c.query (.bySymbol s order limit) =
      if c.table.isSome then .ok [] else .error (.unknownTable Sql.stocksTable) := by
  intro c
  have hc : Sound c := sound_after events sound_empty
  have hrows : c.rows = kept (ledger events empty) := rows_after events sound_empty
  refine ⟨hrows, fun now r hr => ⟨?_, Sql.record_ofRecord now r⟩, fun s hs => ?_⟩
  · have hmem : stamp now r ∈ c.rows := by
      rw [hrows]
      exact List.mem_map.mpr ⟨(now, r), hr, rfl⟩
    exact query_symbol_of_mem order limit hc.distinct hmem
  · exact query_symbol_of_not_mem order limit hs

def noon : Timestamp := ⟨2024, 1, 2, 12, 0, 0, 123456789⟩

def apple : Record := (Record.new "AAPL" "Apple" Double.zero).withSector "Technology"

def zebra : Record := (Record.new "O'ZB" "Zebra" Double.zero).withVolume 7

/-- A batch goes in; a batch of a known symbol, a blank one and one that is broken off do not. -/
def tradingDay : List Event :=
  [.broken .init, .done (.insert noon [apple]), .halfMade, .done .init,
    .done (.insert noon [apple]), .done (.insert noon [zebra, apple]),
    .done (.insert noon [Record.new " " "Blank" Double.zero]), .broken (.insert noon [zebra]),
    .done (.seed noon (fun _ => .ok [zebra]) [])]

theorem query_bySymbol_tradingDay :
    ((noon, apple) ∈ ledger tradingDay empty ∧
      "O'ZB" ∉ symbols (after tradingDay empty).rows) ∧
    (after tradingDay empty).query (.bySymbol "AAPL" (some ⟨"price", .descending⟩) 0) =
      .ok [{ apple with createdAt := some ⟨2024, 1, 2, 12, 0, 0, 123456000⟩ }] ∧
    (after tradingDay empty).query (.bySymbol "O'ZB" none 5000) = .ok [] := by
  have hledger : (noon, apple) ∈ ledger tradingDay empty := by decide
  have hzebra : "O'ZB" ∉ symbols (after tradingDay empty).rows := by decide
  have hfound := query_bySymbol_after tradingDay (some ⟨"price", .descending⟩) 0
  have hmissing := query_bySymbol_after tradingDay none 5000
  exact ⟨⟨hledger, hzebra⟩, (hfound.2.1 noon apple hledger).1, hmissing.2.2 "O'ZB" hzebra⟩

end Catalog

end Screener
