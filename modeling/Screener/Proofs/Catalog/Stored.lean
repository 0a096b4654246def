import Screener.Proofs.Answer
import Screener.Sql.Row

namespace Screener.Sql

theorem optional_ofOption {α : Type} (cell : α → Cell) (read : Cell → Option α)
    (h : ∀ a, (cell a).optional read = some (some a)) (o : Option α) :
    (Cell.ofOption cell o).optional read = some o := by
  cases o with
  | none => rfl
  | some a => exact h a

theorem kept_ofOption {α : Type} (cell : α → Cell) (h : ∀ a, (cell a).kept = cell a)
    (o : Option α) : (Cell.ofOption cell o).kept = Cell.ofOption cell o := by
  cases o with
  | none => rfl
  | some a => exact h a

theorem kept_insertCells (now : Timestamp) (r : Record) :
    (insertCells now r).map Cell.kept = insertCells now (Catalog.stamp now r) := by
  have hvarchar := kept_ofOption Cell.varchar fun _ => rfl
  have hdouble := kept_ofOption Cell.double fun _ => rfl
  have hbigint := kept_ofOption Cell.bigint fun _ => rfl
  simp only [insertCells, List.map_cons, List.map_nil, hvarchar, hdouble, hbigint]
  rfl

theorem recordOfCells?_insertCells (now : Timestamp) (r : Record) :
    recordOfCells? (insertCells now r) = some { r with createdAt := r.createdAt.getD now } := by
  have hvarchar := optional_ofOption .varchar Cell.varchar? fun _ => rfl
  have hdouble := optional_ofOption .double Cell.double? fun _ => rfl
  have hbigint := optional_ofOption .bigint Cell.bigint? fun _ => rfl
  simp only [recordOfCells?, insertCells, hvarchar, hdouble, hbigint]
  rfl

/-- A row has its cells in the order in which a select asks for them. -/
theorem cells?_ofRecord (now : Timestamp) (r : Record) :
    (Row.ofRecord now r).cells? Record.columns = some ((insertCells now r).map Cell.kept) := by
  rfl

/-- What is read from the row of a record is the record, with a time that counts to the
microsecond. -/
theorem record_ofRecord (now : Timestamp) (r : Record) :
    ((Row.ofRecord now r).cells? Record.columns).bind recordOfCells? =
      some (Catalog.stamp now r) := by
  rw [cells?_ofRecord, Option.bind_some, kept_insertCells, recordOfCells?_insertCells]
  rfl

theorem datum_ofOption {α : Type} (cell : α → Cell) (datum : α → Datum)
    (h : ∀ a, (cell a).datum = datum a) (o : Option α) :
    (Cell.ofOption cell o).datum = (o.map datum).getD .null := by
  cases o with
  | none => rfl
  | some a => exact h a

/-- A test looks at the cells of the row. -/
theorem cell?_stamp (now : Timestamp) (r : Record) (column : String) :
    cell? (Catalog.stamp now r) column = ((Row.ofRecord now r).lookup column).map Cell.datum := by
  have hvarchar := datum_ofOption .varchar .text fun _ => rfl
  have hdouble := datum_ofOption .double .double fun _ => rfl
  have hbigint := datum_ofOption .bigint (fun n => .integer n.toInt) fun _ => rfl
  have hrow : Row.ofRecord now r = insertColumns.zip (insertCells now (Catalog.stamp now r)) := by
    rw [Row.ofRecord, kept_insertCells]
  rw [hrow]
  unfold cell?
  split
  case h_11 =>
    have hne : ∀ name ∈ insertColumns, column ≠ name := by
      simp only [insertColumns, List.forall_mem_cons]
      and_intros <;> first | assumption | exact nofun
    symm
    rw [Option.map_eq_none_iff, List.lookup_eq_none_iff]
    intro p hp
    exact bne_iff_ne.mpr (hne p.1 (List.of_mem_zip hp).1)
  all_goals simp [insertColumns, insertCells, List.lookup_cons, hvarchar, hdouble, hbigint]
  all_goals rfl

theorem datum?_ofRecord (now : Timestamp) (r : Record) :
    (Row.ofRecord now r).datum? = cell? (Catalog.stamp now r) :=
  funext fun column => (cell?_stamp now r column).symm

theorem selectBy_map {α β : Type} {cells : α → String → Option Datum}
    {cells' : β → String → Option Datum} {f : α → β} (h : ∀ a, cells' (f a) = cells a)
    (s : Statement) (rows : List α) :
    s.selectBy cells' (rows.map f) = (s.selectBy cells rows).map f := by
  have hkept : (rows.map f).filter (fun b => s.keeps (cells' b)) =
      (rows.filter fun a => s.keeps (cells a)).map f := by
    simp only [List.filter_map, Function.comp_def, h]
  have hsorted : ((rows.filter fun a => s.keeps (cells a)).mergeSort
      fun a b => rowLe s.order (cells a) (cells b)).map f =
      ((rows.filter fun a => s.keeps (cells a)).map f).mergeSort
        fun a b => rowLe s.order (cells' a) (cells' b) :=
    List.map_mergeSort fun a _ b _ => by rw [h, h]
  rw [Statement.selectBy, Statement.selectBy, hkept, ← hsorted]
  cases s.limit with
  | none => rfl
  | some n => exact List.map_take.symm

/-- From the rows of the records that were inserted to the records that are handed out: what comes
back of the statement of a query is what the query gives. -/
theorem query_eq_fetch (q : Query) (entries : List (Timestamp × Record)) :
    ∃ s records, Statement.ofBound? (native (.ofQuery q)) = some s ∧
      s.fetch? (entries.map fun e => Row.ofRecord e.1 e.2) = some records ∧
      Catalog.query q ⟨some (entries.map fun e => Catalog.stamp e.1 e.2)⟩ = .ok records := by
  set s := Statement.ofPlan .ofLiteral (some Record.columns) (.ofQuery q)
  have hrows : s.selectBy Row.datum? (entries.map fun e => Row.ofRecord e.1 e.2) =
      (s.selectBy (fun e => cell? (Catalog.stamp e.1 e.2)) entries).map
        fun e => Row.ofRecord e.1 e.2 :=
    selectBy_map (fun e => datum?_ofRecord e.1 e.2) s entries
  have hrecords : s.select (entries.map fun e => Catalog.stamp e.1 e.2) =
      (s.selectBy (fun e => cell? (Catalog.stamp e.1 e.2)) entries).map
        fun e => Catalog.stamp e.1 e.2 :=
    selectBy_map (fun _ => rfl) s entries
  have hread : ∀ e : Timestamp × Record,
      ((Row.ofRecord e.1 e.2).cells? (s.columns.getD insertColumns)).bind recordOfCells? =
        some (Catalog.stamp e.1 e.2) := fun e => record_ofRecord e.1 e.2
  refine ⟨s, _, ofBound?_native (limit_lt_size q), ?_, query_eq_select q _⟩
  rw [Statement.fetch?, hrows, List.mapM_map, hrecords]
  simp only [Function.comp_def, hread]
  exact List.mapM_pure

end Screener.Sql
