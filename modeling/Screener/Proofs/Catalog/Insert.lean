import Mathlib.Data.List.Nodup
import Screener.Catalog

namespace Screener.Catalog

/-- The rows; none without a table. -/
def rows (c : Catalog) : List Record := c.table.getD []

def symbols (rows : List Record) : List String := rows.map Record.symbol

structure Addable (rows batch : List Record) : Prop where
  named : ∀ r ∈ batch, Text.isBlankText r.symbol = false
  distinct : (symbols (rows ++ batch)).Nodup

theorem symbols_append (rows batch : List Record) :
    symbols (rows ++ batch) = symbols rows ++ symbols batch :=
  List.map_append

theorem symbols_stamp (now : Timestamp) (batch : List Record) :
    symbols (batch.map (stamp now)) = symbols batch := by
  rw [symbols, List.map_map]
  rfl

theorem insertRow_eq (rows : List Record) (r : Record) :
    insertRow rows r =
      if r.symbol ∈ symbols rows then .error (.duplicateSymbol r.symbol) else .ok (rows ++ [r]) := by
  have hany : rows.any (·.symbol = r.symbol) = true ↔ r.symbol ∈ symbols rows := by
    simp [symbols]
  simp only [insertRow, hany]

/-- A batch whose symbols differ from each other and from those that are there. -/
structure Fresh (rows batch : List Record) : Prop where
  distinct : (symbols batch).Nodup
  unknown : ∀ r ∈ batch, r.symbol ∉ symbols rows

theorem fresh_stamp (now : Timestamp) {rows batch : List Record} :
    Fresh rows (batch.map (stamp now)) ↔ Fresh rows batch := by
  have hunknown : (∀ r ∈ batch.map (stamp now), r.symbol ∉ symbols rows) ↔
      ∀ r ∈ batch, r.symbol ∉ symbols rows := List.forall_mem_map
  constructor
  · rintro ⟨hd, hu⟩
    exact ⟨symbols_stamp now batch ▸ hd, hunknown.mp hu⟩
  · rintro ⟨hd, hu⟩
    exact ⟨(symbols_stamp now batch).symm ▸ hd, hunknown.mpr hu⟩

theorem fresh_cons {rows batch : List Record} {r : Record} :
    Fresh rows (r :: batch) ↔ r.symbol ∉ symbols rows ∧ Fresh (rows ++ [r]) batch := by
  have hbatch : r.symbol ∉ symbols batch ↔ ∀ b ∈ batch, b.symbol ≠ r.symbol := by
    simp [symbols]
  have hrows : ∀ s, s ∉ symbols (rows ++ [r]) ↔ s ∉ symbols rows ∧ s ≠ r.symbol := by
    simp [symbols]
  constructor
  · rintro ⟨hdistinct, hunknown⟩
    obtain ⟨hr, hdistinct⟩ := List.nodup_cons.mp hdistinct
    obtain ⟨hknown, hunknown⟩ := List.forall_mem_cons.mp hunknown
    exact ⟨hknown, hdistinct, fun b hb => (hrows _).mpr ⟨hunknown b hb, hbatch.mp hr b hb⟩⟩
  · rintro ⟨hknown, hdistinct, hunknown⟩
    refine ⟨List.nodup_cons.mpr ⟨?_, hdistinct⟩, List.forall_mem_cons.mpr ⟨hknown, ?_⟩⟩
    · exact hbatch.mpr fun b hb => ((hrows _).mp (hunknown b hb)).2
    · exact fun b hb => ((hrows _).mp (hunknown b hb)).1

theorem nodup_append_iff {rows batch : List Record} (h : (symbols rows).Nodup) :
    (symbols (rows ++ batch)).Nodup ↔ Fresh rows batch := by
  rw [symbols_append, List.nodup_append']
  constructor
  · rintro ⟨-, hdistinct, hdisjoint⟩
    exact ⟨hdistinct, fun r hr hmem => hdisjoint hmem (List.mem_map_of_mem hr)⟩
  · rintro ⟨hdistinct, hunknown⟩
    refine ⟨h, hdistinct, fun s hs hs' => ?_⟩
    obtain ⟨r, hr, rfl⟩ := List.mem_map.mp hs'
    exact hunknown r hr hs

theorem insertRows_eq_ok_iff {rows batch out : List Record} :
    insertRows rows batch = .ok out ↔ Fresh rows batch ∧ out = rows ++ batch := by
  -- The rows grow by one record at a time.
  induction batch generalizing rows with
  | nil =>
    have hnil : insertRows rows [] = .ok rows := rfl
    have hfresh : Fresh rows [] := ⟨List.nodup_nil, by simp⟩
    simp [hnil, hfresh, eq_comm]
  | cons r batch ih =>
    have hstep : insertRows rows (r :: batch) =
        (insertRow rows r).bind fun rows => insertRows rows batch := rfl
    have happend : rows ++ r :: batch = (rows ++ [r]) ++ batch := by simp
    rw [hstep, insertRow_eq, happend, fresh_cons]
    by_cases hr : r.symbol ∈ symbols rows
    · simp [hr, Except.bind]
    · simp only [if_neg hr, Except.bind]
      rw [ih]
      simp [hr]

theorem blank?_eq_none_iff {batch : List Record} :
    blank? batch = none ↔ ∀ r ∈ batch, Text.isBlankText r.symbol = false := by
  simp [blank?, List.find?_eq_none]

theorem insert_of_fresh {rows batch : List Record} (now : Timestamp)
    (hnamed : ∀ r ∈ batch, Text.isBlankText r.symbol = false) (h : Fresh rows batch) :
    insert now batch ⟨some rows⟩ = (.ok batch.length, ⟨some (rows ++ batch.map (stamp now))⟩) := by
  have hinsert : insertRows rows (batch.map (stamp now)) = .ok (rows ++ batch.map (stamp now)) :=
    insertRows_eq_ok_iff.mpr ⟨(fresh_stamp now).mpr h, rfl⟩
  simp only [insert, blank?_eq_none_iff.mpr hnamed, hinsert]

theorem insert_of_not_fresh {c : Catalog} {batch : List Record} (now : Timestamp)
    (h : ¬(c.table.isSome ∧ (∀ r ∈ batch, Text.isBlankText r.symbol = false) ∧
      Fresh c.rows batch)) : ∃ e, insert now batch c = (.error e, c) := by
  unfold insert
  cases hblank : blank? batch with
  | some r => exact ⟨_, rfl⟩
  | none =>
    obtain ⟨_ | rows⟩ := c
    · exact ⟨_, rfl⟩
    · cases hinsert : insertRows rows (batch.map (stamp now)) with
      | error e => exact ⟨e, by simp only [hinsert]⟩
      | ok out =>
        have hfresh := (fresh_stamp now).mp (insertRows_eq_ok_iff.mp hinsert).1
        exact absurd ⟨rfl, blank?_eq_none_iff.mp hblank, hfresh⟩ h

/-- A batch is refused, and the catalog is as it was, or it is added whole behind the rows. -/
theorem insert_eq (now : Timestamp) (batch : List Record) (c : Catalog) :
    (∃ e, insert now batch c = (.error e, c)) ∨
    ∃ rows, c = ⟨some rows⟩ ∧
      insert now batch c = (.ok batch.length, ⟨some (rows ++ batch.map (stamp now))⟩) := by
  by_cases h : c.table.isSome ∧ (∀ r ∈ batch, Text.isBlankText r.symbol = false) ∧
      Fresh c.rows batch
  · obtain ⟨_ | rows⟩ := c
    · exact absurd h.1 Bool.false_ne_true
    · exact .inr ⟨rows, rfl, insert_of_fresh now h.2.1 h.2.2⟩
  · exact .inl (insert_of_not_fresh now h)

theorem insert_cases (now : Timestamp) (batch : List Record) {c : Catalog}
    (hc : (symbols c.rows).Nodup) :
    (∃ e, insert now batch c = (.error e, c)) ∨
    ∃ rows, c = ⟨some rows⟩ ∧ Addable rows batch ∧
      insert now batch c = (.ok batch.length, ⟨some (rows ++ batch.map (stamp now))⟩) := by
  by_cases h : c.table.isSome ∧ (∀ r ∈ batch, Text.isBlankText r.symbol = false) ∧
      Fresh c.rows batch
  · obtain ⟨_ | rows⟩ := c
    · exact absurd h.1 Bool.false_ne_true
    · exact .inr ⟨rows, rfl, ⟨h.2.1, (nodup_append_iff hc).mpr h.2.2⟩,
        insert_of_fresh now h.2.1 h.2.2⟩
  · exact .inl (insert_of_not_fresh now h)

/-- A seed is refused, finds rows, or adds what the source has to an empty table. -/
theorem seed_cases (now : Timestamp)
    (source : List String → Except Market.Error (List Record)) (names : List String)
    (c : Catalog) :
    (∃ e, seed now source names c = (.error e, c)) ∨
    (c.rows ≠ [] ∧ seed now source names c = (.ok 0, c)) ∨
    ∃ batch, c.table = some [] ∧ source names = .ok batch ∧
      seed now source names c = insert now batch c := by
  obtain ⟨_ | _ | ⟨r, rows⟩⟩ := c
  case none => exact .inl ⟨_, rfl⟩
  case some.nil =>
    cases hsource : source names with
    | error e => exact .inl ⟨.provider e, by simp only [seed, count, List.length_nil, hsource]⟩
    | ok batch =>
      refine .inr (.inr ⟨batch, rfl, rfl, ?_⟩)
      simp only [seed, count, List.length_nil, hsource]
  case some.cons => exact .inr (.inl ⟨List.cons_ne_nil r rows, rfl⟩)

end Screener.Catalog
