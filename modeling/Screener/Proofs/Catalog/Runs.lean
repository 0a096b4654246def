import Screener.Proofs.Catalog.Insert

namespace Screener.Catalog

inductive Call where
  | init
  | insert (now : Timestamp) (batch : List Record)
  | seed (now : Timestamp) (source : List String → Except Market.Error (List Record))
      (names : List String)
  | count
  | query (q : Query)

/-- The catalog after a call that the database carries through, whatever it answers. -/
def Call.next (call : Call) (c : Catalog) : Catalog :=
  match call with
  | init => c.init
  | insert now batch => (c.insert now batch).2
  | seed now source names => (c.seed now source names).2
  | count | query _ => c

inductive Event where
  | done (call : Call)
  /-- The database breaks a call off and keeps nothing of it. -/
  | broken (call : Call)
  /-- The table is made, but then not its indexes. -/
  | halfMade

namespace Event

def next (e : Event) (c : Catalog) : Catalog :=
  match e with
  | done call => call.next c
  | broken _ => c
  | halfMade => c.init

def makesTable : Event → Bool
  | done .init | halfMade => true
  | _ => false

end Event

/-- The catalog after some events, one after the other. -/
def after (events : List Event) (c : Catalog) : Catalog := events.foldl (fun c e => e.next c) c

theorem after_append (events more : List Event) (c : Catalog) :
    after (events ++ more) c = after more (after events c) :=
  List.foldl_append

/-- What holds of the rows at any time. -/
structure Sound (c : Catalog) : Prop where
  distinct : (symbols c.rows).Nodup
  named : ∀ r ∈ c.rows, ∃ ch ∈ r.symbol.toList, Text.isBlank ch = false
  stamped : ∀ r ∈ c.rows, r.createdAt.isSome

theorem sound_empty : Sound empty where
  distinct := List.nodup_nil
  named := fun _ h => absurd h List.not_mem_nil
  stamped := fun _ h => absurd h List.not_mem_nil

/-- All that can happen to a catalog at once. -/
inductive Step : Catalog → Catalog → Prop
  | same (c : Catalog) : Step c c
  | made (c : Catalog) : Step c c.init
  | added {rows batch : List Record} (now : Timestamp) (h : Addable rows batch) :
      Step ⟨some rows⟩ ⟨some (rows ++ batch.map (stamp now))⟩

theorem step_insert (now : Timestamp) (batch : List Record) {c : Catalog}
    (hc : (symbols c.rows).Nodup) : Step c (c.insert now batch).2 := by
  rcases insert_cases now batch hc with ⟨e, he⟩ | ⟨rows, rfl, hfits, he⟩
  · rw [he]
    exact .same c
  · rw [he]
    exact .added now hfits

theorem step_next (e : Event) {c : Catalog} (hc : (symbols c.rows).Nodup) : Step c (e.next c) := by
  cases e with
  | done call =>
    cases call with
    | init => exact .made c
    | insert now batch => exact step_insert now batch hc
    | seed now source names =>
      show Step c (c.seed now source names).2
      rcases seed_cases now source names c with ⟨e, he⟩ | ⟨-, he⟩ | ⟨batch, -, -, he⟩
      · rw [he]
        exact .same c
      · rw [he]
        exact .same c
      · rw [he]
        exact step_insert now batch hc
    | count => exact .same c
    | query q => exact .same c
  | broken call => exact .same c
  | halfMade => exact .made c

theorem Step.sound {c c' : Catalog} (h : Step c c') (hc : c.Sound) : c'.Sound := by
  cases h with
  | same => exact hc
  | made => exact ⟨hc.distinct, hc.named, hc.stamped⟩
  | @added rows batch now hfits =>
    have hmem : ∀ r ∈ rows ++ batch.map (stamp now),
        r ∈ rows ∨ ∃ b ∈ batch, stamp now b = r := by
      intro r hr
      simpa using hr
    constructor
    · show (symbols (rows ++ batch.map (stamp now))).Nodup
      rw [symbols_append, symbols_stamp, ← symbols_append]
      exact hfits.distinct
    · intro r hr
      rcases hmem r hr with hr | ⟨b, hb, rfl⟩
      · exact hc.named r hr
      · have hblank := hfits.named b hb
        show ∃ ch ∈ b.symbol.toList, Text.isBlank ch = false
        simpa [Text.isBlankText] using hblank
    · intro r hr
      rcases hmem r hr with hr | ⟨b, -, rfl⟩
      · exact hc.stamped r hr
      · rfl

theorem Step.rows_prefix {c c' : Catalog} (h : Step c c') : c.rows <+: c'.rows := by
  cases h with
  | same | made => exact List.prefix_rfl
  | added now hfits => exact List.prefix_append _ _

theorem sound_after (events : List Event) {c : Catalog} (hc : c.Sound) :
    (after events c).Sound := by
  induction events generalizing c with
  | nil => exact hc
  | cons e events ih => exact ih ((step_next e hc.distinct).sound hc)

theorem rows_prefix_after (events : List Event) {c : Catalog} (hc : c.Sound) :
    c.rows <+: (after events c).rows := by
  induction events generalizing c with
  | nil => exact List.prefix_rfl
  | cons e events ih =>
    have hstep := step_next e hc.distinct
    exact hstep.rows_prefix.trans (ih (hstep.sound hc))

theorem isSome_insert (now : Timestamp) (batch : List Record) (c : Catalog) :
    (c.insert now batch).2.table.isSome = c.table.isSome := by
  unfold insert
  split
  · rfl
  · split
    · rfl
    · split <;> simp_all

/-- Only making the table makes a table, and nothing takes it away. -/
theorem isSome_next (e : Event) (c : Catalog) :
    (e.next c).table.isSome = (c.table.isSome || e.makesTable) := by
  have hinit : c.init.table.isSome = (c.table.isSome || true) := by
    rw [Bool.or_true]
    rfl
  cases e with
  | done call =>
    cases call with
    | init => exact hinit
    | insert now batch =>
      show (c.insert now batch).2.table.isSome = (c.table.isSome || false)
      rw [isSome_insert, Bool.or_false]
    | seed now source names =>
      show (c.seed now source names).2.table.isSome = (c.table.isSome || false)
      rw [Bool.or_false]
      rcases seed_cases now source names c with ⟨e, he⟩ | ⟨-, he⟩ | ⟨batch, -, -, he⟩
      · rw [he]
      · rw [he]
      · rw [he, isSome_insert]
    | count | query => exact (Bool.or_false _).symm
  | broken call => exact (Bool.or_false _).symm
  | halfMade => exact hinit

theorem isSome_after (events : List Event) (c : Catalog) :
    (after events c).table.isSome = (c.table.isSome || events.any Event.makesTable) := by
  induction events generalizing c with
  | nil => simp [after]
  | cons e events ih =>
    show (after events (e.next c)).table.isSome = _
    rw [ih, isSome_next, List.any_cons, Bool.or_assoc]

theorem count_eq (c : Catalog) :
    c.count = if c.table.isSome then .ok c.rows.length else .error .noTable := by
  obtain ⟨_ | rows⟩ := c <;> rfl

/-- In the course of any events the stored rows have symbols that differ, are not blank, and have a
time; they are counted as soon as there is a table; and what is stored stays as it is, before
anything that comes later. -/
theorem run_sound (events more : List Event) :
    let c := after events empty
    Sound c ∧
    c.count = (if events.any Event.makesTable then .ok c.rows.length else .error .noTable) ∧
    c.rows <+: (after (events ++ more) empty).rows := by
  intro c
  have hc : Sound c := sound_after events sound_empty
  refine ⟨hc, ?_, ?_⟩
  · have htable : c.table.isSome = events.any Event.makesTable := by
      rw [isSome_after]
      rfl
    rw [count_eq, htable]
  · rw [after_append]
    exact rows_prefix_after more hc

end Screener.Catalog
