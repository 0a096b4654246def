import Mathlib.Logic.Function.Basic
import Screener.Proofs.Catalog.Lookup

namespace Screener.Catalog

/-- What a call comes back with. -/
inductive Result where
  | made
  | added (r : Except Error ℕ)
  | counted (r : Except Error ℕ)
  | found (r : Except Sql.EngineError (List Record))
  | broken

/-- How far a call has come. -/
inductive Stage : Call → Type where
  | begun (call : Call) : Stage call
  /-- A seed that has counted no rows. -/
  | vacant {now : Timestamp} {source : List String → Except Market.Error (List Record)}
      {names : List String} : Stage (.seed now source names)
  /-- A seed that has its records. -/
  | fetched {now : Timestamp} {source : List String → Except Market.Error (List Record)}
      {names : List String} (batch : List Record) (h : source names = .ok batch) :
      Stage (.seed now source names)
  /-- A query with a connection of its own. -/
  | connected {q : Query} : Stage (.query q)

inductive Progress (call : Call) where
  | goes (stage : Stage call)
  | ends (result : Result)

/-- The next step of a call, and the catalog behind it. -/
def Stage.step : {call : Call} → Stage call → Catalog → Progress call × Catalog
  | _, begun .init, c => (.ends .made, c.init)
  | _, begun (.insert now batch), c =>
    (.ends (.added (c.insert now batch).1), (c.insert now batch).2)
  | _, begun (.seed ..), c =>
    match c.count with
    | .error e => (.ends (.added (.error e)), c)
    | .ok (_ + 1) => (.ends (.added (.ok 0)), c)
    | .ok 0 => (.goes .vacant, c)
  | _, begun .count, c => (.ends (.counted c.count), c)
  | _, begun (.query _), c => (.goes .connected, c)
  | .seed _ source names, vacant, c =>
    match h : source names with
    | .error e => (.ends (.added (.error (.provider e))), c)
    | .ok batch => (.goes (.fetched batch h), c)
  | .seed now _ _, fetched batch _, c =>
    (.ends (.added (c.insert now batch).1), (c.insert now batch).2)
  | .query q, connected, c => (.ends (.found (c.query q)), c)

def Stage.finish {call : Call} : ℕ → Stage call → Catalog → Option (Result × Catalog)
  | 0, _, _ => none
  | fuel + 1, stage, c =>
    match stage.step c with
    | (.goes stage, c) => stage.finish fuel c
    | (.ends result, c) => some (result, c)

def Call.result (call : Call) (c : Catalog) : Result :=
  match call with
  | init => .made
  | insert now batch => .added (c.insert now batch).1
  | seed now source names => .added (c.seed now source names).1
  | count => .counted c.count
  | query q => .found (c.query q)

section

variable {now : Timestamp} {source : List String → Except Market.Error (List Record)}
  {names : List String}

theorem step_vacant_ok {batch : List Record} (h : source names = .ok batch) (c : Catalog) :
    (Stage.vacant : Stage (.seed now source names)).step c = (.goes (.fetched batch h), c) := by
  rw [Stage.step]
  split
  · rename_i he
    rw [h] at he
    cases he
  · rename_i he
    obtain rfl := Except.ok.inj (h.symm.trans he)
    rfl

theorem step_vacant_error {e : Market.Error} (h : source names = .error e) (c : Catalog) :
    (Stage.vacant : Stage (.seed now source names)).step c =
      (.ends (.added (.error (.provider e))), c) := by
  rw [Stage.step]
  split
  · rename_i he
    obtain rfl := Except.error.inj (h.symm.trans he)
    rfl
  · rename_i he
    rw [h] at he
    cases he

end

/-- A call that is left alone is done in three steps, and does what it does at once. -/
theorem finish_begun (call : Call) (c : Catalog) :
    (Stage.begun call).finish 3 c = some (call.result c, call.next c) := by
  cases call with
  | seed now source names =>
    rw [Stage.finish, Stage.step, Call.result, Call.next, seed]
    cases c.count with
    | error e => rfl
    | ok n =>
      cases n with
      | succ n => rfl
      | zero =>
        dsimp only
        cases h : source names with
        | error e => rw [Stage.finish, step_vacant_error h]
        | ok batch =>
          rw [Stage.finish, step_vacant_ok h]
          rfl
  | init | insert now batch | count | query q => rfl

structure Running where
  call : Call
  stage : Stage call
  /-- How many calls had ended when it began. -/
  since : ℕ

structure Caller where
  current : Option Running
  waiting : List Call

structure Ended (ι : Type) where
  caller : ι
  call : Call
  since : ℕ
  result : Result

/-- Callers on one catalog, with the calls that have ended, in that order. -/
structure System (ι : Type) where
  catalog : Catalog
  callers : ι → Caller
  history : List (Ended ι)

/-- Whose turn it is, and whether the database breaks the call off. -/
structure Move (ι : Type) where
  caller : ι
  broken : Bool

namespace Caller

def next? (n : ℕ) : Caller → Option (Running × List Call)
  | ⟨some r, waiting⟩ => some (r, waiting)
  | ⟨none, call :: waiting⟩ => some (⟨call, .begun call, n⟩, waiting)
  | ⟨none, []⟩ => none

def pending (a : Caller) : List Call := (a.current.map Running.call).toList ++ a.waiting

end Caller

namespace System

variable {ι : Type} [DecidableEq ι]

def start (rows : List Record) (calls : ι → List Call) : System ι :=
  ⟨⟨some rows⟩, fun i => ⟨none, calls i⟩, []⟩

def step (s : System ι) (m : Move ι) : System ι :=
  match (s.callers m.caller).next? s.history.length with
  | none => s
  | some (r, waiting) =>
    match if m.broken then (.ends .broken, s.catalog) else r.stage.step s.catalog with
    | (.goes stage, c) =>
      { s with
        catalog := c
        callers := Function.update s.callers m.caller ⟨some ⟨r.call, stage, r.since⟩, waiting⟩ }
    | (.ends result, c) =>
      { catalog := c
        callers := Function.update s.callers m.caller ⟨none, waiting⟩
        history := s.history ++ [⟨m.caller, r.call, r.since, result⟩] }

def run (s : System ι) (schedule : List (Move ι)) : System ι := schedule.foldl step s

end System

def Result.reported : Result → ℕ
  | added (.ok n) => n
  | _ => 0

/-- The rows that a call adds if it comes back so: all that it has to add, or nothing. -/
def Call.added (call : Call) (result : Result) : List Record :=
  if result.reported = 0 then [] else kept call.offered

/-- What a call comes back with if it ends where the table holds these rows. Only a seed may have
counted earlier. -/
inductive Answers : Call → List Record → Result → Prop
  | broken (call : Call) (rows : List Record) : Answers call rows .broken
  | init (rows : List Record) : Answers .init rows .made
  | insert (now : Timestamp) (batch rows : List Record) :
      Answers (.insert now batch) rows (.added (insert now batch ⟨some rows⟩).1)
  | occupied {now : Timestamp} {source : List String → Except Market.Error (List Record)}
      {names : List String} {rows : List Record} (h : rows ≠ []) :
      Answers (.seed now source names) rows (.added (.ok 0))
  | unfetched {now : Timestamp} {source : List String → Except Market.Error (List Record)}
      {names : List String} {e : Market.Error} (h : source names = .error e) (rows : List Record) :
      Answers (.seed now source names) rows (.added (.error (.provider e)))
  | fetched {now : Timestamp} {source : List String → Except Market.Error (List Record)}
      {names : List String} {batch : List Record} (h : source names = .ok batch)
      (rows : List Record) :
      Answers (.seed now source names) rows (.added (insert now batch ⟨some rows⟩).1)
  | count (rows : List Record) : Answers .count rows (.counted (.ok rows.length))
  | query (q : Query) (rows : List Record) :
      Answers (.query q) rows (.found (query q ⟨some rows⟩))

/-- A call ends with its step, or it is broken off and leaves the catalog as it is. -/
def Stage.Ends {call : Call} (stage : Stage call) (c : Catalog) (result : Result) (c' : Catalog) :
    Prop :=
  (result = .broken ∧ c' = c) ∨ stage.step c = (.ends result, c')

def Stage.Vacant {call : Call} : Stage call → Prop
  | vacant | fetched _ _ => True
  | begun _ | connected => False

/-- A call that goes on leaves the catalog alone, and a seed goes on only where it sees no rows. -/
theorem Stage.step_goes {call : Call} {stage stage' : Stage call} {c c' : Catalog}
    (h : stage.step c = (.goes stage', c')) :
    c' = c ∧ (stage'.Vacant → stage.Vacant ∨ c.rows = []) := by
  cases stage with
  | begun =>
    cases call with
    | seed now source names =>
      obtain ⟨_ | _ | ⟨r, rows⟩⟩ := c <;> cases h
      exact ⟨rfl, fun _ => .inr rfl⟩
    | query q =>
      cases h
      exact ⟨rfl, False.elim⟩
    | init | insert | count => cases h
  | @vacant now source names =>
    cases hsource : source names with
    | error e =>
      rw [step_vacant_error hsource] at h
      cases h
    | ok batch =>
      rw [step_vacant_ok hsource] at h
      cases h
      exact ⟨rfl, fun _ => .inl trivial⟩
  | fetched batch hbatch => cases h
  | connected => cases h

/-- What a call leaves behind: the table as it was, with no rows reported, or what became of putting
its batch in. -/
inductive Leaves (call : Call) (rows : List Record) : Result → Catalog → Prop
  | same {result : Result} (h : result.reported = 0) : Leaves call rows result ⟨some rows⟩
  | put {now : Timestamp} {batch : List Record} (h : kept call.offered = batch.map (stamp now)) :
      Leaves call rows (.added (insert now batch ⟨some rows⟩).1) (insert now batch ⟨some rows⟩).2

theorem Stage.Ends.leaves {call : Call} {stage : Stage call} {rows : List Record} {result : Result}
    {c : Catalog} (h : stage.Ends ⟨some rows⟩ result c) :
    Answers call rows result ∧ Leaves call rows result c := by
  obtain ⟨rfl, rfl⟩ | h := h
  · exact ⟨.broken _ _, .same rfl⟩
  cases stage with
  | begun =>
    cases call with
    | init =>
      cases h
      exact ⟨.init _, .same rfl⟩
    | insert now batch =>
      cases h
      exact ⟨.insert now batch rows, .put (kept_map now batch)⟩
    | seed now source names =>
      cases rows with
      | nil => cases h
      | cons r rows =>
        cases h
        exact ⟨.occupied (List.cons_ne_nil r rows), .same rfl⟩
    | count =>
      cases h
      exact ⟨.count _, .same rfl⟩
    | query q => cases h
  | @vacant now source names =>
    cases hsource : source names with
    | error e =>
      rw [step_vacant_error hsource] at h
      cases h
      exact ⟨.unfetched hsource _, .same rfl⟩
    | ok batch =>
      rw [step_vacant_ok hsource] at h
      cases h
  | @fetched now source names batch hbatch =>
    cases h
    have hoffered : kept (Call.seed now source names).offered = batch.map (stamp now) := by
      rw [Call.offered, hbatch]
      exact kept_map now batch
    exact ⟨.fetched hbatch rows, .put hoffered⟩
  | connected =>
    cases h
    exact ⟨.query _ _, .same rfl⟩

theorem Leaves.added {call : Call} {rows : List Record} {result : Result} {c : Catalog}
    (h : Leaves call rows result c) :
    c = ⟨some (rows ++ call.added result)⟩ ∧ (call.added result).length = result.reported := by
  cases h with
  | same h => simp [Call.added, h]
  | @put now batch hoffered =>
    rcases insert_eq now batch ⟨some rows⟩ with ⟨e, he⟩ | ⟨_, hrows, he⟩
    · simp [he, Call.added, Result.reported]
    · cases hrows
      cases batch <;> simp [he, Call.added, Result.reported, hoffered]

def Ended.added {ι : Type} (e : Ended ι) : List Record := e.call.added e.result

theorem length_flatMap_added {ι : Type} {history : List (Ended ι)}
    (h : ∀ e ∈ history, e.added.length = e.result.reported) :
    (history.flatMap Ended.added).length = (history.map fun e => e.result.reported).sum := by
  rw [List.length_flatMap]
  exact congrArg List.sum (List.map_congr_left h)

/-- The rows of the table when the first `k` calls of a history had ended. -/
def tableAt {ι : Type} (rows : List Record) (history : List (Ended ι)) (k : ℕ) : List Record :=
  rows ++ (history.take k).flatMap Ended.added

section

variable {ι : Type} (rows : List Record) (history : List (Ended ι))

theorem tableAt_append (e : Ended ι) {k : ℕ} (hk : k ≤ history.length) :
    tableAt rows (history ++ [e]) k = tableAt rows history k := by
  rw [tableAt, tableAt, List.take_append_of_le_length hk]

theorem tableAt_length :
    tableAt rows history history.length = rows ++ history.flatMap Ended.added := by
  rw [tableAt, List.take_length]

theorem forall_place_append {P : ℕ → Ended ι → Prop} {e : Ended ι}
    (h : ∀ k (hk : k < history.length), P k history[k]) (he : P history.length e) (k : ℕ)
    (hk : k < (history ++ [e]).length) : P k (history ++ [e])[k] := by
  by_cases hlt : k < history.length
  · rw [List.getElem_append_left hlt]
    exact h k hlt
  · have hlast : k = history.length := by
      rw [List.length_append, List.length_singleton] at hk
      omega
    subst hlast
    rw [List.getElem_append_right le_rfl]
    simpa using he

end

namespace Caller

theorem pending_eq_cons {n : ℕ} {a : Caller} {r : Running} {waiting : List Call}
    (h : a.next? n = some (r, waiting)) : a.pending = r.call :: waiting := by
  obtain ⟨_ | current, _ | ⟨call, waiting'⟩⟩ := a <;> cases h <;> rfl

end Caller

namespace System

variable {ι : Type} [DecidableEq ι]

def goOn (s : System ι) (i : ι) (r : Running) (stage : Stage r.call) (waiting : List Call) :
    System ι :=
  { s with callers := Function.update s.callers i ⟨some ⟨r.call, stage, r.since⟩, waiting⟩ }

def comeBack (s : System ι) (i : ι) (r : Running) (result : Result) (waiting : List Call)
    (c : Catalog) : System ι where
  catalog := c
  callers := Function.update s.callers i ⟨none, waiting⟩
  history := s.history ++ [⟨i, r.call, r.since, result⟩]

theorem step_cases (s : System ι) (m : Move ι) :
    ((s.callers m.caller).next? s.history.length = none ∧ s.step m = s) ∨
    ∃ r waiting, (s.callers m.caller).next? s.history.length = some (r, waiting) ∧
      ((∃ stage, r.stage.step s.catalog = (.goes stage, s.catalog) ∧
          s.step m = s.goOn m.caller r stage waiting) ∨
        ∃ result c, r.stage.Ends s.catalog result c ∧
          s.step m = s.comeBack m.caller r result waiting c) := by
  cases hnext : (s.callers m.caller).next? s.history.length with
  | none => exact .inl ⟨rfl, by simp only [step, hnext]⟩
  | some p =>
    obtain ⟨r, waiting⟩ := p
    refine .inr ⟨r, waiting, rfl, ?_⟩
    by_cases hbroken : m.broken = true
    · refine .inr ⟨.broken, s.catalog, .inl ⟨rfl, rfl⟩, ?_⟩
      simp only [step, hnext, if_pos hbroken]
      rfl
    · cases hstep : r.stage.step s.catalog with
      | mk progress c =>
        cases progress with
        | goes stage =>
          obtain rfl := (Stage.step_goes hstep).1
          refine .inl ⟨stage, rfl, ?_⟩
          simp only [step, hnext, if_neg hbroken, hstep]
          rfl
        | ends result =>
          refine .inr ⟨result, c, .inr hstep, ?_⟩
          simp only [step, hnext, if_neg hbroken, hstep]
          rfl

/-- The calls of a caller: those that have come back, in that order, and those still to come. -/
def issued (s : System ι) (i : ι) : List Call :=
  (s.history.filter (·.caller = i)).map Ended.call ++ (s.callers i).pending

section

variable {s : System ι} {i : ι} {r : Running} {waiting : List Call}

theorem issued_goOn (h : (s.callers i).next? s.history.length = some (r, waiting))
    (stage : Stage r.call) (j : ι) : (s.goOn i r stage waiting).issued j = s.issued j := by
  by_cases hji : j = i
  · subst hji
    rw [issued, issued, Caller.pending_eq_cons h]
    simp [goOn, Caller.pending]
  · simp [issued, goOn, Function.update_of_ne hji]

theorem issued_comeBack (h : (s.callers i).next? s.history.length = some (r, waiting))
    (result : Result) (c : Catalog) (j : ι) :
    (s.comeBack i r result waiting c).issued j = s.issued j := by
  by_cases hji : j = i
  · subst hji
    rw [issued, issued, Caller.pending_eq_cons h]
    simp [comeBack, Caller.pending]
  · have hij : ¬ i = j := fun he => hji he.symm
    simp [issued, comeBack, Function.update_of_ne hji, hij]

end

/-- What every move keeps holds at the end of every schedule. -/
theorem run_induction {P : System ι → Prop} (hstep : ∀ s m, P s → P (s.step m)) {s : System ι}
    (hs : P s) (schedule : List (Move ι)) : P (s.run schedule) := by
  induction schedule generalizing s with
  | nil => exact hs
  | cons m schedule ih => exact ih (hstep s m hs)

/-- The table and the calls of a system, accounted for by its history. -/
structure Accounted (rows : List Record) (calls : ι → List Call) (s : System ι) : Prop where
  table : s.catalog = ⟨some (tableAt rows s.history s.history.length)⟩
  reported : ∀ e ∈ s.history, e.added.length = e.result.reported
  answers : ∀ k (hk : k < s.history.length),
    Answers s.history[k].call (tableAt rows s.history k) s.history[k].result
  issued : ∀ i, s.issued i = calls i

theorem accounted_start (rows : List Record) (calls : ι → List Call) :
    Accounted rows calls (start rows calls) where
  table := by simp [start, tableAt]
  reported := fun _ h => absurd h List.not_mem_nil
  answers := fun k hk => absurd hk (Nat.not_lt_zero k)
  issued := fun _ => rfl

theorem Accounted.step {rows : List Record} {calls : ι → List Call} {s : System ι}
    (h : Accounted rows calls s) (m : Move ι) : Accounted rows calls (s.step m) := by
  -- Rows change only where a call comes back, and there the history grows by that call.
  obtain ⟨-, hs⟩ | ⟨r, waiting, hnext, ⟨stage, -, hs⟩ | ⟨result, c, hends, hs⟩⟩ := s.step_cases m
  · rw [hs]
    exact h
  · rw [hs]
    exact ⟨h.table, h.reported, h.answers, fun i => (issued_goOn hnext stage i).trans (h.issued i)⟩
  · rw [hs]
    rw [h.table] at hends
    obtain ⟨hanswers, hleaves⟩ := hends.leaves
    obtain ⟨hc, hlength⟩ := hleaves.added
    constructor
    · show c = ⟨some (tableAt rows (s.history ++ [_]) (s.history ++ [_]).length)⟩
      rw [hc, tableAt_length, tableAt_length, List.flatMap_append, List.flatMap_singleton,
        List.append_assoc]
      rfl
    · intro e he
      rcases List.mem_append.mp he with he | he
      · exact h.reported e he
      · rw [List.mem_singleton.mp he]
        exact hlength
    · refine forall_place_append s.history
        (P := fun k e => Answers e.call (tableAt rows (s.history ++ [_]) k) e.result) ?_ ?_
      · intro k hk
        rw [tableAt_append _ _ _ hk.le]
        exact h.answers k hk
      · rw [tableAt_append _ _ _ le_rfl]
        exact hanswers
    · intro i
      exact (issued_comeBack hnext result c i).trans (h.issued i)

theorem accounted_run (rows : List Record) (calls : ι → List Call) (schedule : List (Move ι)) :
    Accounted rows calls ((start rows calls).run schedule) :=
  run_induction (fun _ m h => h.step m) (accounted_start rows calls) schedule

/-- However callers mix their steps, and whatever the database breaks off: the table is the rows
that were there and the batches of the calls that said they had added rows, each once and whole; it
counts as many rows more as these calls have said; each caller's calls have come back in their
order, once each, or are still to come; and every call that came back saw the table with the batches
of the calls before it, whole, and no others. -/
theorem interleaved_accounted (rows : List Record) (calls : ι → List Call)
    (schedule : List (Move ι)) :
    let s := (start rows calls).run schedule
    s.catalog.table = some (rows ++ s.history.flatMap Ended.added) ∧
    s.catalog.count = .ok (rows.length + (s.history.map fun e => e.result.reported).sum) ∧
    (∀ i, (s.history.filter (·.caller = i)).map Ended.call ++ (s.callers i).pending = calls i) ∧
    ∀ earlier e later, s.history = earlier ++ e :: later →
      Answers e.call (rows ++ earlier.flatMap Ended.added) e.result := by
  intro s
  have h : Accounted rows calls s := accounted_run rows calls schedule
  have htable := h.table
  rw [tableAt_length] at htable
  refine ⟨by rw [htable], ?_, h.issued, fun earlier e later hs => ?_⟩
  · rw [htable]
    show Except.ok (rows ++ s.history.flatMap Ended.added).length = _
    rw [List.length_append, length_flatMap_added h.reported]
  · have hk : earlier.length < s.history.length := by simp [hs]
    have hanswers := h.answers earlier.length hk
    simpa [hs, tableAt] using hanswers

def seedOf (r : Record) : Call := .seed noon (fun _ => .ok [r]) []

def seedBesideBatch (seeds : Bool) : List Call :=
  if seeds then [seedOf zebra] else [.insert noon [apple], .insert noon [zebra], .count]

/-- The batch goes in while the seed fetches, and the next one is broken off. -/
def batchWithinSeed : List (Move Bool) :=
  [⟨true, false⟩, ⟨false, false⟩, ⟨true, false⟩, ⟨false, true⟩, ⟨true, false⟩, ⟨false, false⟩]

theorem interleaved_accounted_counted :
    let s := (start [] seedBesideBatch).run batchWithinSeed
    let earlier : List (Ended Bool) := [⟨false, .insert noon [apple], 0, .added (.ok 1)⟩,
      ⟨false, .insert noon [zebra], 1, .broken⟩, ⟨true, seedOf zebra, 0, .added (.ok 1)⟩]
    s.history = earlier ++ [⟨false, .count, 3, .counted (.ok 2)⟩] ∧
    s.catalog.count = .ok 2 ∧
    Answers .count [stamp noon apple, stamp noon zebra] (.counted (.ok 2)) := by
  intro s earlier
  have hhistory : s.history = earlier ++ [⟨false, .count, 3, .counted (.ok 2)⟩] := rfl
  obtain ⟨-, hcount, -, hanswers⟩ := interleaved_accounted [] seedBesideBatch batchWithinSeed
  exact ⟨hhistory, hcount, hanswers earlier _ [] hhistory⟩

end System

end Screener.Catalog
