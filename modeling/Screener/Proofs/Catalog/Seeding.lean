import Screener.Proofs.Catalog.Interleaving

namespace Screener.Catalog

theorem Leaves.step {call : Call} {rows : List Record} {result : Result} {c : Catalog}
    (h : Leaves call rows result c) (hrows : (symbols rows).Nodup) : Step ⟨some rows⟩ c := by
  cases h with
  | same => exact .same _
  | @put now batch => exact step_insert now batch hrows

theorem sound_nil : (⟨some []⟩ : Catalog).Sound := (Step.made empty).sound sound_empty

def Ended.Seeded {ι : Type} (e : Ended ι) : Prop :=
  (∃ now source names, e.call = .seed now source names) ∧ e.result.reported ≠ 0

/-- A seed that adds has seen an empty table before. -/
theorem Stage.Ends.vacant {now : Timestamp}
    {source : List String → Except Market.Error (List Record)} {names : List String}
    {stage : Stage (.seed now source names)} {c c' : Catalog} {result : Result}
    (h : stage.Ends c result c') (hresult : result.reported ≠ 0) : stage.Vacant := by
  obtain ⟨rfl, -⟩ | h := h
  · exact absurd rfl hresult
  cases stage with
  | begun =>
    obtain ⟨_ | _ | ⟨r, rows⟩⟩ := c <;> cases h
    all_goals exact absurd rfl hresult
  | vacant => trivial
  | fetched batch hbatch => trivial

section

variable {ι : Type} {rows : List Record} {history : List (Ended ι)}

theorem tableAt_of_le {j k : ℕ} (h : j ≤ k) :
    tableAt rows history k =
      tableAt rows history j ++ ((history.take k).drop j).flatMap Ended.added := by
  have htake : (history.take k).take j = history.take j := by rw [List.take_take, min_eq_left h]
  rw [tableAt, tableAt, List.append_assoc, ← htake, ← List.flatMap_append, List.take_append_drop]

theorem tableAt_eq_nil {j k : ℕ} (h : j ≤ k) (hk : tableAt rows history k = []) :
    tableAt rows history j = [] := by
  rw [tableAt_of_le h, List.append_eq_nil_iff] at hk
  exact hk.1

theorem disjoint_added (h : (symbols (rows ++ history.flatMap Ended.added)).Nodup) {j k : ℕ}
    (hj : j < k) (hk : k < history.length) :
    (symbols history[j].added).Disjoint (symbols history[k].added) := by
  have hsymbols : symbols (history.flatMap Ended.added) =
      history.flatMap fun e => symbols e.added := List.map_flatMap
  rw [symbols_append, hsymbols] at h
  have hpairwise := (List.nodup_flatMap.mp h.of_append_right).2
  exact List.pairwise_iff_getElem.mp hpairwise j k (hj.trans hk) hk hj

/-- A call began when no more calls had ended than have now, and if it has seen the table empty, the
table was empty then. -/
def Running.Vacated (rows : List Record) (history : List (Ended ι)) (r : Running) : Prop :=
  r.since ≤ history.length ∧ (r.stage.Vacant → tableAt rows history r.since = [])

theorem Running.Vacated.append {r : Running} (h : r.Vacated rows history) (e : Ended ι) :
    r.Vacated rows (history ++ [e]) := by
  obtain ⟨hsince, hvacant⟩ := h
  refine ⟨?_, ?_⟩
  · rw [List.length_append]
    exact hsince.trans (Nat.le_add_right _ _)
  · rw [tableAt_append _ _ _ hsince]
    exact hvacant

theorem Caller.vacated_next {a : Caller} (h : ∀ r, a.current = some r → r.Vacated rows history)
    {r : Running} {waiting : List Call} (hnext : a.next? history.length = some (r, waiting)) :
    r.Vacated rows history := by
  obtain ⟨_ | current, _ | ⟨call, waiting'⟩⟩ := a <;> cases hnext
  · exact ⟨le_rfl, False.elim⟩
  · exact h r rfl
  · exact h r rfl

end

namespace System

variable {ι : Type}

/-- The rows are sound if they were, and each seed that is under way or has added found the table
empty when it began. -/
structure Vacated (rows : List Record) (s : System ι) : Prop where
  sound : (⟨some rows⟩ : Catalog).Sound → s.catalog.Sound
  current : ∀ i r, (s.callers i).current = some r → r.Vacated rows s.history
  ended : ∀ k (hk : k < s.history.length), s.history[k].since ≤ k ∧
    (s.history[k].Seeded → tableAt rows s.history s.history[k].since = [])

theorem vacated_start (rows : List Record) (calls : ι → List Call) :
    Vacated rows (start rows calls) where
  sound := id
  current := nofun
  ended := fun k hk => absurd hk (Nat.not_lt_zero k)

variable [DecidableEq ι]

theorem Vacated.step {rows : List Record} {calls : ι → List Call} {s : System ι}
    (h : Vacated rows s) (ha : Accounted rows calls s) (m : Move ι) : Vacated rows (s.step m) := by
  obtain ⟨-, hs⟩ | ⟨r, waiting, hnext, ⟨stage, hstage, hs⟩ | ⟨result, c, hends, hs⟩⟩ :=
    s.step_cases m
  · rw [hs]
    exact h
  · rw [hs]
    refine ⟨h.sound, fun i r' hr' => ?_, h.ended⟩
    by_cases him : i = m.caller
    · subst him
      obtain ⟨hsince, hvacant⟩ := Caller.vacated_next (h.current m.caller) hnext
      have hr : (⟨r.call, stage, r.since⟩ : Running) = r' := by simpa [goOn] using hr'
      subst hr
      refine ⟨hsince, fun hstage' => ?_⟩
      rcases (Stage.step_goes hstage).2 hstage' with hbefore | hrows
      · exact hvacant hbefore
      · rw [ha.table] at hrows
        exact tableAt_eq_nil hsince hrows
    · have hother : (s.callers i).current = some r' := by
        simpa [goOn, Function.update_of_ne him] using hr'
      exact h.current i r' hother
  · rw [hs]
    refine ⟨fun hrows => ?_, fun i r' hr' => ?_, ?_⟩
    · have hc := h.sound hrows
      rw [ha.table] at hends hc
      exact (hends.leaves.2.step hc.distinct).sound hc
    · by_cases him : i = m.caller
      · subst him
        simp [comeBack] at hr'
      · have hother : (s.callers i).current = some r' := by
          simpa [comeBack, Function.update_of_ne him] using hr'
        exact (h.current i r' hother).append _
    · obtain ⟨hsince, hvacant⟩ := Caller.vacated_next (h.current m.caller) hnext
      refine forall_place_append s.history (P := fun k e => e.since ≤ k ∧
        (e.Seeded → tableAt rows (s.history ++ [_]) e.since = [])) ?_ ?_
      · intro k hk
        obtain ⟨hle, hseeded⟩ := h.ended k hk
        rw [tableAt_append _ _ _ (hle.trans hk.le)]
        exact ⟨hle, hseeded⟩
      · rw [tableAt_append _ _ _ hsince]
        refine ⟨hsince, ?_⟩
        rintro ⟨⟨now, source, names, hcall⟩, hresult⟩
        refine hvacant ?_
        obtain ⟨call, stage, since⟩ := r
        subst hcall
        exact hends.vacant hresult

/-- Whatever happens between the steps of a seed: one that has added rows had counted none, and what
it found when it added them is what other calls had added since. Of two seeds that have added, the
later one had counted before the earlier one ended, and they share no symbol. -/
theorem seeded_after_vacancy (rows : List Record) (calls : ι → List Call)
    (schedule : List (Move ι)) :
    let s := (start rows calls).run schedule
    ∀ k (hk : k < s.history.length), s.history[k].Seeded →
      tableAt rows s.history s.history[k].since = [] ∧
      (tableAt rows s.history k = [] ↔
        ∀ e ∈ (s.history.take k).drop s.history[k].since, e.added = []) ∧
      ∀ j (hj : j < k), s.history[j].Seeded → s.history[k].since ≤ j ∧
        (symbols s.history[j].added).Disjoint (symbols s.history[k].added) := by
  intro s k hk hseeded
  obtain ⟨ha, hv⟩ : Accounted rows calls s ∧ Vacated rows s :=
    run_induction (P := fun s => Accounted rows calls s ∧ Vacated rows s)
      (fun _ m h => ⟨h.1.step m, h.2.step h.1 m⟩)
      ⟨accounted_start rows calls, vacated_start rows calls⟩ schedule
  obtain ⟨hsince, hvacant⟩ := hv.ended k hk
  have hempty := hvacant hseeded
  refine ⟨hempty, ?_, fun j hj hother => ⟨?_, ?_⟩⟩
  · rw [tableAt_of_le hsince, hempty, List.nil_append, List.flatMap_eq_nil_iff]
  · -- A seed that ended before this one began would have left rows to count.
    by_contra! hlt
    have hj' := tableAt_eq_nil (j := j + 1) hlt hempty
    rw [tableAt, List.append_eq_nil_iff, List.flatMap_eq_nil_iff] at hj'
    have hadded := hj'.2 s.history[j] (List.mem_take_iff_getElem.mpr ⟨j, by omega, rfl⟩)
    have hlength := ha.reported _ (List.getElem_mem (hj.trans hk))
    rw [hadded, List.length_nil] at hlength
    exact hother.2 hlength.symm
  · have hrows : rows = [] := (List.append_eq_nil_iff.mp hempty).1
    have hsound : s.catalog.Sound := hv.sound (hrows ▸ sound_nil)
    have hdistinct := hsound.distinct
    rw [ha.table, tableAt_length] at hdistinct
    exact disjoint_added hdistinct hj hk

def twoSeeds (first : Bool) : List Call := [seedOf (if first then apple else zebra)]

def inTurn : List (Move Bool) :=
  [true, false, true, false, true, false].map fun i => ⟨i, false⟩

def overlapping : System Bool := (start [] twoSeeds).run inTurn

theorem length_overlapping : 1 < overlapping.history.length := by decide

theorem seeded_overlapping : overlapping.history[1].Seeded :=
  ⟨⟨_, _, _, rfl⟩, by decide⟩

theorem seeded_after_vacancy_overlapping :
    overlapping.history[1].Seeded ∧ overlapping.history[0].Seeded ∧
    overlapping.history[1].since = 0 ∧ tableAt [] overlapping.history 0 = [] ∧
    (symbols overlapping.history[0].added).Disjoint (symbols overlapping.history[1].added) := by
  have hfirst : overlapping.history[0].Seeded := ⟨⟨_, _, _, rfl⟩, by decide⟩
  have h := seeded_after_vacancy [] twoSeeds inTurn 1 length_overlapping seeded_overlapping
  exact ⟨seeded_overlapping, hfirst, Nat.le_zero.mp (h.2.2 0 one_pos hfirst).1, h.1,
    (h.2.2 0 one_pos hfirst).2⟩

/-- The second seed adds its row to that of the first. -/
theorem overlapping_seeds_add :
    overlapping.history.map (fun e => e.result.reported) = [1, 1] ∧
    ¬∀ k (hk : k < overlapping.history.length), overlapping.history[k].Seeded →
      tableAt [] overlapping.history k = [] :=
  ⟨by decide, fun h => absurd (h 1 length_overlapping seeded_overlapping) (by decide)⟩

end System

end Screener.Catalog
