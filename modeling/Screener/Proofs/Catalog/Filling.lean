import Screener.Proofs.Catalog.Lookup
import Screener.Proofs.Market.Fixtures

namespace Screener.Catalog

def fromFixture (f : Market.Fixture) (names : List String) : Except Market.Error (List Record) :=
  .ok (f.fetch names)

/-- Names for which all that is held can be stored: none that is held comes twice, and none is
blank. -/
structure Orderly (held : List Record) (names : List String) : Prop where
  once : ∀ r ∈ held, names.count r.symbol ≤ 1
  named : ∀ r ∈ held, r.symbol ∈ names → Text.isBlankText r.symbol = false

theorem named_fetch_iff (f : Market.Fixture) (names : List String) :
    (∀ r ∈ f.fetch names, Text.isBlankText r.symbol = false) ↔
      ∀ r ∈ f.records, r.symbol ∈ names → Text.isBlankText r.symbol = false := by
  have hsymbols : (∀ r ∈ f.fetch names, Text.isBlankText r.symbol = false) ↔
      ∀ s ∈ (f.fetch names).map Record.symbol, Text.isBlankText s = false := by
    rw [List.forall_mem_map]
  rw [hsymbols, f.symbols_fetch]
  constructor
  · intro h r hr hname
    apply h
    simpa using ⟨hname, r, hr, rfl⟩
  · intro h s hs
    obtain ⟨hname, hheld⟩ := List.mem_filter.mp hs
    obtain ⟨r, hr, rfl⟩ := List.mem_map.mp (of_decide_eq_true hheld)
    exact h r hr hname

theorem nodup_fetch_iff (f : Market.Fixture) (names : List String) :
    (symbols (f.fetch names)).Nodup ↔ ∀ r ∈ f.records, names.count r.symbol ≤ 1 := by
  rw [symbols, f.symbols_fetch, List.nodup_iff_count_le_one]
  constructor
  · intro h r hr
    have hcount := h r.symbol
    rwa [List.count_filter (by simpa using ⟨r, hr, rfl⟩)] at hcount
  · intro h s
    by_cases hs : s ∈ f.records.map Record.symbol
    · obtain ⟨r, hr, rfl⟩ := List.mem_map.mp hs
      exact (List.filter_sublist.count_le _).trans (h r hr)
    · rw [List.count_eq_zero.mpr fun hm => hs (by simpa using (List.mem_filter.mp hm).2)]
      exact Nat.zero_le 1

/-- What is fetched fits into an empty table exactly if the names are orderly. -/
theorem orderly_iff (f : Market.Fixture) (names : List String) :
    Orderly f.records names ↔
      (∀ r ∈ f.fetch names, Text.isBlankText r.symbol = false) ∧ Fresh [] (f.fetch names) := by
  constructor
  · rintro ⟨honce, hnamed⟩
    exact ⟨(named_fetch_iff f names).mpr hnamed, (nodup_fetch_iff f names).mpr honce,
      fun _ _ => List.not_mem_nil⟩
  · rintro ⟨hnamed, hfresh⟩
    exact ⟨(nodup_fetch_iff f names).mp hfresh.distinct, (named_fetch_iff f names).mp hnamed⟩

theorem seed_of_rows {rows : List Record} (h : rows ≠ []) (now : Timestamp)
    (source : List String → Except Market.Error (List Record)) (names : List String) :
    seed now source names ⟨some rows⟩ = (.ok 0, ⟨some rows⟩) := by
  cases rows with
  | nil => exact absurd rfl h
  | cons r rows => rfl

theorem seed_vacant (f : Market.Fixture) (names : List String) (now : Timestamp) :
    seed now (fromFixture f) names ⟨some []⟩ = insert now (f.fetch names) ⟨some []⟩ := rfl

theorem seed_of_orderly {f : Market.Fixture} {names : List String} (h : Orderly f.records names)
    (now : Timestamp) :
    seed now (fromFixture f) names ⟨some []⟩ =
      (.ok (f.fetch names).length, ⟨some ((f.fetch names).map (stamp now))⟩) := by
  obtain ⟨hnamed, hfresh⟩ := (orderly_iff f names).mp h
  rw [seed_vacant, insert_of_fresh now hnamed hfresh, List.nil_append]

theorem seed_of_not_orderly {f : Market.Fixture} {names : List String}
    (h : ¬Orderly f.records names) (now : Timestamp) :
    ∃ e, seed now (fromFixture f) names ⟨some []⟩ = (.error e, ⟨some []⟩) := by
  rw [seed_vacant]
  apply insert_of_not_fresh
  rintro ⟨-, hnamed, hfresh⟩
  exact h ((orderly_iff f names).mpr ⟨hnamed, hfresh⟩)

theorem seed_after_rows {c : Catalog} (hc : c.Sound) (hrows : c.rows ≠ []) (events : List Event)
    (now : Timestamp) (source : List String → Except Market.Error (List Record))
    (names : List String) :
    (after events c).seed now source names = (.ok 0, after events c) := by
  have hlater : (after events c).rows ≠ [] := by
    intro hnil
    exact hrows (List.prefix_nil.mp (hnil ▸ rows_prefix_after events hc))
  cases hafter : after events c with
  | mk table =>
    cases table with
    | none => simp [hafter, rows] at hlater
    | some later =>
      rw [hafter] at hlater
      exact seed_of_rows hlater now source names

/-- An empty table is filled whole, or it is left empty because the names are not orderly. -/
theorem seed_vacant_cases (f : Market.Fixture) (names : List String) (now : Timestamp) :
    (Orderly f.records names ∧ seed now (fromFixture f) names ⟨some []⟩ =
      (.ok (f.fetch names).length, ⟨some ((f.fetch names).map (stamp now))⟩)) ∨
    (¬Orderly f.records names ∧
      ∃ e, seed now (fromFixture f) names ⟨some []⟩ = (.error e, ⟨some []⟩)) := by
  by_cases h : Orderly f.records names
  · exact .inl ⟨h, seed_of_orderly h now⟩
  · exact .inr ⟨h, seed_of_not_orderly h now⟩

theorem rows_of_seed {f : Market.Fixture} {names : List String} {now : Timestamp}
    {rows : List Record} {n : ℕ}
    (h : (seed now (fromFixture f) names ⟨some rows⟩).1 = .ok (n + 1)) :
    (seed now (fromFixture f) names ⟨some rows⟩).2.Sound ∧
      (seed now (fromFixture f) names ⟨some rows⟩).2.rows ≠ [] := by
  obtain rfl : rows = [] := by
    by_contra hne
    rw [seed_of_rows hne] at h
    cases h
  have hempty : Sound ⟨some []⟩ := (Step.made empty).sound sound_empty
  refine ⟨(step_next (.done (.seed now (fromFixture f) names)) hempty.distinct).sound hempty, ?_⟩
  rcases seed_vacant_cases f names now with ⟨-, hseed⟩ | ⟨-, e, hseed⟩
  · rw [hseed] at h ⊢
    intro hnil
    have hlength : ((f.fetch names).map (stamp now)).length = n + 1 := by
      rw [List.length_map]
      exact Except.ok.inj h
    rw [show (f.fetch names).map (stamp now) = [] from hnil] at hlength
    cases hlength
  · rw [hseed] at h
    cases h

/-- What a fixture has for the names is, for each of them in turn, the last record of that symbol. A
table without rows takes it whole, each record with a time, and tells how many there are, exactly
if the names are orderly; otherwise it stays without rows. A table with rows is left alone, and a
table that was filled is left alone by every seed to come. -/
theorem filled_from_fixture (f : Market.Fixture) (names : List String) (now : Timestamp)
    (rows : List Record) :
    let seeded := seed now (fromFixture f) names ⟨some rows⟩
    (∀ batch, f.fetch names = batch ↔ Market.Collects (Market.LastOf f.records) names batch) ∧
    (rows ≠ [] → seeded = (.ok 0, ⟨some rows⟩)) ∧
    (rows = [] →
      ((∃ n, seeded.1 = .ok n) ↔ Orderly f.records names) ∧
      (∀ n, seeded.1 = .ok n →
        seeded.2 = ⟨some ((f.fetch names).map (stamp now))⟩ ∧ seeded.2.count = .ok n) ∧
      ∀ e, seeded.1 = .error e → seeded.2 = ⟨some []⟩) ∧
    ∀ n, seeded.1 = .ok (n + 1) → ∀ events now' source names',
      (after events seeded.2).seed now' source names' = (.ok 0, after events seeded.2) := by
  intro seeded
  refine ⟨f.fetch_eq_iff names, fun hrows => seed_of_rows hrows now (fromFixture f) names, ?_,
    fun n hn events => ?_⟩
  · rintro rfl
    rcases seed_vacant_cases f names now with ⟨horderly, hseed⟩ | ⟨horderly, e, hseed⟩
    · rw [show seeded = _ from hseed]
      refine ⟨⟨fun _ => horderly, fun _ => ⟨_, rfl⟩⟩, fun n hn => ⟨rfl, ?_⟩, fun e he => ?_⟩
      · rw [← hn]
        exact congrArg Except.ok (List.length_map (stamp now))
      · cases he
    · rw [show seeded = _ from hseed]
      exact ⟨⟨nofun, fun h => absurd h horderly⟩, nofun, fun _ _ => rfl⟩
  · obtain ⟨hsound, hne⟩ := rows_of_seed hn
    exact seed_after_rows hsound hne events

def smallFixture : Market.Fixture := ⟨[apple, zebra, { apple with companyName := "Apple Inc." }]⟩

theorem filled_from_fixture_small :
    let c : Catalog := (seed noon (fromFixture smallFixture) ["O'ZB", "GONE", "AAPL"] ⟨some []⟩).2
    c.rows.map Record.companyName = ["Zebra", "Apple Inc."] ∧ c.count = .ok 2 ∧
    seed noon (fromFixture smallFixture) ["AAPL"] (after tradingDay c) = (.ok 0, after tradingDay c) ∧
    ∀ n, (seed noon (fromFixture smallFixture) ["AAPL", "AAPL"] ⟨some []⟩).1 ≠ .ok n := by
  intro c
  have h := filled_from_fixture smallFixture ["O'ZB", "GONE", "AAPL"] noon []
  have htwice := filled_from_fixture smallFixture ["AAPL", "AAPL"] noon []
  have hdone : (seed noon (fromFixture smallFixture) ["O'ZB", "GONE", "AAPL"] ⟨some []⟩).1 =
      .ok 2 := rfl
  have hcount := ((h.2.2.1 rfl).2.1 2 hdone).2
  refine ⟨by decide, hcount, h.2.2.2 1 hdone tradingDay noon _ _, fun n hn => ?_⟩
  have honce := ((htwice.2.2.1 rfl).1.mp ⟨n, hn⟩).once apple List.mem_cons_self
  exact absurd honce (by decide)

end Screener.Catalog
