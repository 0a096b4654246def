import Mathlib.Data.List.Forall2
import Screener.Proofs.Catalog.Lookup
import Screener.Sql.Transaction

namespace Screener

namespace Sql

def Row.record? (row : Row) : Option Record := (row.cells? Record.columns).bind recordOfCells?

/-- The rows of a table are read as some records, in their order. -/
def Holds (rows : List Row) (records : List Record) : Prop :=
  List.Forall₂ (fun row r => row.record? = some r) rows records

theorem varchar_of_recordOfCells? {cell : Cell} {cells : List Cell} {r : Record}
    (h : recordOfCells? (cell :: cells) = some r) : cell = .varchar r.symbol := by
  unfold recordOfCells? at h
  split at h
  · rename_i hcells
    obtain ⟨rfl, -⟩ := List.cons.inj hcells
    simp only [Option.bind_eq_bind, Option.bind_eq_some_iff] at h
    obtain ⟨s, hs, h⟩ := h
    obtain ⟨_, -, _, -, _, -, _, -, _, -, _, -, _, -, _, -, _, -, h⟩ := h
    cases cell <;> cases hs
    rw [← Option.some.inj h]
  · cases h

theorem key_of_record {row : Row} {r : Record} (h : row.record? = some r) :
    row.lookup keyColumn = some (.varchar r.symbol) := by
  rw [Row.record?, Option.bind_eq_some_iff] at h
  obtain ⟨cells, hcells, hr⟩ := h
  simp only [Row.cells?, Record.columns, List.mapM_cons, Option.bind_eq_bind,
    Option.bind_eq_some_iff] at hcells
  obtain ⟨cell, hcell, rest, -, hcells⟩ := hcells
  rw [← Option.some.inj hcells] at hr
  rw [keyColumn, hcell, varchar_of_recordOfCells? hr]

theorem any_key_iff {rows : List Row} {records : List Record} (h : Holds rows records)
    (s : String) :
    (rows.any fun row => row.lookup keyColumn = some (.varchar s)) = true ↔
      s ∈ Catalog.symbols records := by
  induction h with
  | nil => simp [Catalog.symbols]
  | @cons row r rows records hrow _ ih =>
    have hsymbols : Catalog.symbols (r :: records) = r.symbol :: Catalog.symbols records := rfl
    rw [List.any_cons, Bool.or_eq_true, ih, key_of_record hrow, hsymbols, List.mem_cons]
    simp [eq_comm]

theorem writeRow_ofRecord {rows : List Row} {records : List Record} (h : Holds rows records)
    (now : Timestamp) {r : Record} (hr : r.symbol ≠ "") :
    writeRow rows (.ofRecord now r) =
      if r.symbol ∈ Catalog.symbols records then .error .duplicateKey
      else .ok (rows ++ [.ofRecord now r]) := by
  have hkey : (Row.ofRecord now r).lookup keyColumn = some (.varchar r.symbol) := rfl
  have hrequired : requiredColumns.find? (fun column =>
      ((Row.ofRecord now r).lookup column).getD .null = .null) = none := by
    rw [List.find?_eq_none]
    simp [requiredColumns, Row.ofRecord, insertColumns, insertCells, List.lookup_cons, Cell.kept]
  simp [writeRow, hrequired, hkey, hr, any_key_iff h]

theorem Holds.append {rows : List Row} {records : List Record} (h : Holds rows records)
    (now : Timestamp) (batch : List Record) :
    Holds (rows ++ batch.map (.ofRecord now)) (records ++ batch.map (Catalog.stamp now)) := by
  refine List.rel_append h ?_
  rw [List.forall₂_map_left_iff, List.forall₂_map_right_iff, List.forall₂_same]
  exact fun r _ => record_ofRecord now r

namespace Transaction

/-- A batch of new stocks is written whole; any other up to a record whose symbol is there by
then. -/
theorem write_batch (now : Timestamp) {batch : List Record} (hnamed : ∀ r ∈ batch, r.symbol ≠ "")
    {tx : Transaction} {records : List Record} (h : Holds tx.working records) :
    (Catalog.Fresh records batch ∧ tx.write (batch.map (.ofRecord now)) =
      (.ok (), ⟨tx.stored, tx.working ++ batch.map (.ofRecord now)⟩)) ∨
    ¬Catalog.Fresh records batch ∧ ∃ before r after, batch = before ++ r :: after ∧
      tx.write (batch.map (.ofRecord now)) =
        (.error .duplicateKey, ⟨tx.stored, tx.working ++ before.map (.ofRecord now)⟩) := by
  -- On the batch; the rows that are written by then hold the records with those of the batch behind
  -- them, as they are kept.
  rw [← Catalog.fresh_stamp now]
  induction batch generalizing tx records with
  | nil => exact .inl ⟨⟨List.nodup_nil, by simp⟩, by simp [write]⟩
  | cons r batch ih =>
    obtain ⟨hr, hnamed⟩ := List.forall_mem_cons.mp hnamed
    have hrow := writeRow_ofRecord h now hr
    rw [List.map_cons, List.map_cons, Catalog.fresh_cons, write, hrow]
    by_cases hknown : r.symbol ∈ Catalog.symbols records
    · refine .inr ⟨fun hfresh => hfresh.1 hknown, [], r, batch, rfl, ?_⟩
      simp [hknown]
    · simp only [if_neg hknown]
      let grown : Transaction := ⟨tx.stored, tx.working ++ [.ofRecord now r]⟩
      have hgrown : Holds grown.working (records ++ [Catalog.stamp now r]) := h.append now [r]
      rcases ih hnamed hgrown with
        ⟨hfresh, hwrite⟩ | ⟨hfresh, before, r', after, hbatch, hwrite⟩
      · refine .inl ⟨⟨hknown, hfresh⟩, ?_⟩
        rw [hwrite, List.append_assoc]
        rfl
      · refine .inr ⟨fun hall => hfresh hall.2, r :: before, r', after,
          congrArg (r :: ·) hbatch, ?_⟩
        rw [hwrite, List.append_assoc]
        rfl

end Transaction

/-- Writing the rows of a batch in a transaction stores all of them or leaves the table as it
was. -/
theorem store_batch (now : Timestamp) {batch : List Record} (hnamed : ∀ r ∈ batch, r.symbol ≠ "")
    {rows : List Row} {records : List Record} (h : Holds rows records) :
    (Catalog.Fresh records batch ∧ store (batch.map (.ofRecord now)) (some rows) =
      (.ok batch.length, some (rows ++ batch.map (.ofRecord now)))) ∨
    ¬Catalog.Fresh records batch ∧
      store (batch.map (.ofRecord now)) (some rows) = (.error .duplicateKey, some rows) := by
  have hstart : Holds (Transaction.start rows).working records := h
  rcases Transaction.write_batch now hnamed hstart with
    ⟨hfresh, hwrite⟩ | ⟨hfresh, before, r, after, -, hwrite⟩
  · refine .inl ⟨hfresh, ?_⟩
    rw [store, hwrite, List.length_map]
    rfl
  · refine .inr ⟨hfresh, ?_⟩
    rw [store, hwrite]
    rfl

end Sql

namespace Catalog

def FirstBlank (batch : List Record) (r : Record) : Prop :=
  ∃ before after, batch = before ++ r :: after ∧ (∀ b ∈ before, Text.trim b.symbol ≠ "") ∧
    Text.trim r.symbol = ""

theorem not_blank_iff {s : String} : Text.isBlankText s = false ↔ Text.trim s ≠ "" := by
  rw [← Bool.not_eq_true, ← Text.trim_eq_empty_iff]

theorem FirstBlank.blank?_eq {batch : List Record} {r : Record} (h : FirstBlank batch r) :
    blank? batch = some r := by
  obtain ⟨before, after, rfl, hbefore, hr⟩ := h
  have hnone : before.find? (Text.isBlankText ·.symbol) = none := by
    rw [List.find?_eq_none]
    exact fun b hb => mt (Text.trim_eq_empty_iff b.symbol).mpr (hbefore b hb)
  have hblank : Text.isBlankText r.symbol = true := (Text.trim_eq_empty_iff r.symbol).mp hr
  rw [blank?, List.find?_append, hnone, Option.none_or, List.find?_cons, hblank]

theorem exists_duplicate {rows batch : List Record} {e : Error}
    (h : insertRows rows batch = .error e) : ∃ s, e = .duplicateSymbol s := by
  induction batch generalizing rows with
  | nil => cases h
  | cons r batch ih =>
    have hstep : insertRows rows (r :: batch) =
        (insertRow rows r).bind fun rows => insertRows rows batch := rfl
    rw [hstep, insertRow_eq] at h
    split at h
    · cases h
      exact ⟨_, rfl⟩
    · exact ih h

section

variable (now : Timestamp) {batch : List Record}

theorem insert_of_firstBlank {r : Record} (h : FirstBlank batch r) (c : Catalog) :
    insert now batch c =
      (.error (.invalidRecord ("empty symbol for company '" ++ r.companyName ++ "'")), c) := by
  simp only [insert, h.blank?_eq]

variable (hnamed : ∀ r ∈ batch, Text.trim r.symbol ≠ "")
include hnamed

theorem not_blank_of_mem : ∀ r ∈ batch, Text.isBlankText r.symbol = false :=
  fun r hr => not_blank_iff.mpr (hnamed r hr)

theorem insert_ne_invalidRecord (c : Catalog) (detail : String) :
    (insert now batch c).1 ≠ .error (.invalidRecord detail) := by
  have hblank : blank? batch = none :=
    blank?_eq_none_iff.mpr (not_blank_of_mem hnamed)
  obtain ⟨_ | rows⟩ := c
  · simp [insert, hblank]
  · cases hinsert : insertRows rows (batch.map (stamp now)) with
    | ok out => simp [insert, hblank, hinsert]
    | error e =>
      obtain ⟨s, rfl⟩ := exists_duplicate hinsert
      simp [insert, hblank, hinsert]

theorem insert_ok_iff (c : Catalog) :
    (∃ n, (insert now batch c).1 = .ok n) ↔ c.table.isSome = true ∧ Fresh c.rows batch := by
  constructor
  · rintro ⟨n, hn⟩
    by_contra hnot
    obtain ⟨e, he⟩ : ∃ e, insert now batch c = (.error e, c) :=
      insert_of_not_fresh now fun h => hnot ⟨h.1, h.2.2⟩
    rw [he] at hn
    cases hn
  · obtain ⟨_ | rows⟩ := c
    · rintro ⟨h, -⟩
      cases h
    · rintro ⟨-, hfresh⟩
      exact ⟨_, congrArg Prod.fst (insert_of_fresh now (not_blank_of_mem hnamed) hfresh)⟩

/-- Writing the rows in a transaction comes to the same. -/
theorem store_insert {table : Option (List Sql.Row)} {c : Catalog}
    (h : Option.Rel Sql.Holds table c.table) :
    (Sql.store (batch.map (.ofRecord now)) table).1.toOption = (insert now batch c).1.toOption ∧
    Option.Rel Sql.Holds (Sql.store (batch.map (.ofRecord now)) table).2
      (insert now batch c).2.table ∧
    ((insert now batch c).1.toOption = none →
      (Sql.store (batch.map (.ofRecord now)) table).2 = table) := by
  have hsymbols : ∀ r ∈ batch, r.symbol ≠ "" := by
    intro r hr he
    apply hnamed r hr
    rw [he]
    rfl
  obtain ⟨records⟩ := c
  cases h with
  | none =>
    obtain ⟨e, he⟩ : ∃ e, insert now batch ⟨none⟩ = (.error e, ⟨none⟩) :=
      insert_of_not_fresh now fun h => Bool.false_ne_true h.1
    rw [he]
    exact ⟨rfl, .none, fun _ => rfl⟩
  | @some rows records h =>
    rcases Sql.store_batch now hsymbols h with ⟨hfresh, hstore⟩ | ⟨hfresh, hstore⟩
    · rw [hstore, insert_of_fresh now (not_blank_of_mem hnamed) hfresh]
      exact ⟨rfl, .some (h.append now batch), nofun⟩
    · obtain ⟨e, he⟩ : ∃ e, insert now batch ⟨some records⟩ = (.error e, ⟨some records⟩) :=
        insert_of_not_fresh now fun h => hfresh h.2.2
      rw [hstore, he]
      exact ⟨rfl, .some h, fun _ => rfl⟩

end

/-- A batch is added whole or not at all. If some record names no stock, the first of them is
refused by its company, whatever else is wrong. If none does, the batch is added just when there is
a table and no symbol comes twice, in the batch or the rows; then as many records are reported, and
they stand behind the rows with all that was given, the times to the microsecond, and one time for
all that had none. A failed batch leaves the catalog as it was. Writing the rows one by one in a
transaction comes to the same. -/
theorem insert_all_or_nothing (now : Timestamp) (batch : List Record) (c : Catalog) :
    (∀ r, FirstBlank batch r → (insert now batch c).1 =
      .error (.invalidRecord ("empty symbol for company '" ++ r.companyName ++ "'"))) ∧
    ((∀ r ∈ batch, Text.trim r.symbol ≠ "") →
      ((∃ n, (insert now batch c).1 = .ok n) ↔ c.table.isSome = true ∧ Fresh c.rows batch) ∧
      (∀ detail, (insert now batch c).1 ≠ .error (.invalidRecord detail)) ∧
      ∀ table, Option.Rel Sql.Holds table c.table →
        let stored := Sql.store (batch.map (.ofRecord now)) table
        stored.1.toOption = (insert now batch c).1.toOption ∧
        Option.Rel Sql.Holds stored.2 (insert now batch c).2.table ∧
        ((insert now batch c).1.toOption = none → stored.2 = table)) ∧
    (∀ n, (insert now batch c).1 = .ok n → n = batch.length ∧
      (insert now batch c).2.table = some (c.rows ++ batch.map fun r =>
        { r with createdAt := some (r.createdAt.getD now).truncated })) ∧
    ∀ e, (insert now batch c).1 = .error e → (insert now batch c).2 = c := by
  refine ⟨fun r hr => by rw [insert_of_firstBlank now hr c], fun hnamed =>
    ⟨insert_ok_iff now hnamed c, insert_ne_invalidRecord now hnamed c,
      fun table htable => store_insert now hnamed htable⟩, fun n hn => ?_, fun e he => ?_⟩
  · rcases insert_eq now batch c with ⟨e, he⟩ | ⟨rows, rfl, hrows⟩
    · rw [he] at hn
      cases hn
    · rw [hrows] at hn ⊢
      exact ⟨(Except.ok.inj hn).symm, rfl⟩
  · rcases insert_eq now batch c with ⟨e, he⟩ | ⟨rows, rfl, hrows⟩
    · rw [he]
    · rw [hrows] at he
      cases he

def oneStock : Catalog := ⟨some [stamp noon apple]⟩

/-- Its symbol is nothing but blanks. -/
def nobody : Record := Record.new " \t" "Nobody" Double.zero

theorem insert_all_or_nothing_oneStock :
    (FirstBlank [zebra, nobody, zebra] nobody ∧ (∀ r ∈ [zebra, apple], Text.trim r.symbol ≠ "") ∧
      Option.Rel Sql.Holds (some [.ofRecord noon apple]) oneStock.table ∧
      (insert noon [zebra] oneStock).1 = .ok 1) ∧
    (insert noon [zebra, nobody, zebra] empty).1 =
      .error (.invalidRecord "empty symbol for company 'Nobody'") ∧
    (insert noon [zebra, apple] oneStock).2 = oneStock ∧
    (Sql.store [.ofRecord noon zebra, .ofRecord noon apple] (some [.ofRecord noon apple])).2 =
      some [.ofRecord noon apple] ∧
    (insert noon [zebra] oneStock).2.table = some [stamp noon apple,
      { zebra with createdAt := some ⟨2024, 1, 2, 12, 0, 0, 123456000⟩ }] := by
  have hblank : FirstBlank [zebra, nobody, zebra] nobody :=
    ⟨[zebra], [zebra], rfl, by decide, by decide⟩
  have hnamed : ∀ r ∈ [zebra, apple], Text.trim r.symbol ≠ "" := by decide
  have htable : Option.Rel Sql.Holds (some [.ofRecord noon apple]) oneStock.table :=
    .some (.cons (Sql.record_ofRecord noon apple) .nil)
  have hok : (insert noon [zebra] oneStock).1 = .ok 1 := by rfl
  have herror : (insert noon [zebra, apple] oneStock).1 = .error (.duplicateSymbol "AAPL") := by rfl
  have h := insert_all_or_nothing noon [zebra, apple] oneStock
  have hstored := ((h.2.1 hnamed).2.2 _ htable).2.2 (by rw [herror]; rfl)
  exact ⟨⟨hblank, hnamed, htable, hok⟩,
    (insert_all_or_nothing noon [zebra, nobody, zebra] empty).1 nobody hblank,
    h.2.2.2 _ herror, hstored,
    ((insert_all_or_nothing noon [zebra] oneStock).2.2.1 1 hok).2⟩

end Catalog

end Screener
