import Screener.Http.Server
import Screener.Proofs.Http.Bodies
import Screener.Proofs.Metrics

namespace Screener

theorem Outcome.label_injective : Function.Injective label := by
  intro a b h
  cases a <;> cases b <;> first | rfl | exact absurd h (by decide)

namespace Http

/-- A request, and what is there to answer it: the model, the stocks, the course of a question. -/
structure Visit extends Course where
  request : Request
  answer : String → Service.Answer
  catalog : Catalog

namespace Visit

/-- A posted question, whatever is in its body. -/
def posted (v : Visit) : Bool := v.request.method == "POST" && v.request.path == "/api/query"

def exchange (o : Origins) (m : Metrics) (v : Visit) : Exchange :=
  handle o v.answer v.toCourse v.catalog m v.request

end Visit

def serve (o : Origins) : Metrics → List Visit → List (Visit × Exchange)
  | _, [] => []
  | m, v :: visits => (v, v.exchange o m) :: serve o (v.exchange o m).metrics visits

def after (o : Origins) (m : Metrics) (visits : List Visit) : Metrics :=
  visits.foldl (fun m v => (v.exchange o m).metrics) m

namespace Response

/-- The outcome that a response tells. -/
def outcome? (r : Response) : Option Outcome :=
  match r.body with
  | .answer _ => some .ok
  | .failure (.invalidInput _) => some .invalidInput
  | .failure (.interpret (.interpretation _)) => some .interpretationError
  | .failure (.interpret (.serviceFailure _)) => some .serviceFailure
  | .failure (.timeout _) => some .timeout
  | .failure (.execution _) | .failure (.storage _) | .failure (.taskFailed _) =>
    some .executionError
  | .empty | .document _ | .metrics _ => none

/-- A response as it is sent for an outcome, and the label that the outcome is counted under. -/
def Tells (r : Response) (label : String) : Outcome → Prop
  | .ok => label = "ok" ∧ r.status = 200 ∧ ∃ answer, HoldsAnswer r.body.text answer
  | .invalidInput => label = "invalid_input" ∧ r.status = 400 ∧ ∃ d, HoldsDetail r.body.text d
  | .interpretationError =>
    label = "interpretation_error" ∧ r.status = 400 ∧ ∃ d, HoldsDetail r.body.text d
  | .serviceFailure => label = "upstream_error" ∧ r.status = 502 ∧ ∃ d, HoldsDetail r.body.text d
  | .timeout => label = "timeout" ∧ r.status = 504 ∧ ∃ d, HoldsDetail r.body.text d
  | .executionError =>
    label = "execution_error" ∧ r.status = 500 ∧ ∃ d, HoldsDetail r.body.text d

end Response

section

variable {answer : String → Service.Answer} {task : Service.Task} {c : Catalog}

/-- A query that was answered came out of a reply, so its text goes no deeper than is read. -/
theorem ask_sound {r : Request} {response : Service.Response}
    (h : (ask answer task c r).1 = .ok response) : response.query.WellFormed ∧
      ∀ clause ∈ response.query.clauses, clause.value.depth ≤ 124 := by
  unfold ask at h
  split at h
  · unfold Service.run at h
    split at h
    · cases h
    · obtain ⟨q, hq, h⟩ := Except.bind_eq_ok h
      have hquery : response.query = q := by
        unfold Service.execute at h
        split at h
        case h_4 =>
          split at h <;> cases h
          rfl
        all_goals cases h
      rw [hquery]
      unfold Service.Answer.query at hq
      split at hq
      · exact Model.readReply_sound (Except.mapError_eq_ok hq)
      · cases hq
      · cases hq
  · cases h

theorem respond_tells {result : Except Service.Error Service.Response}
    (h : ∀ response, result = .ok response → response.query.WellFormed ∧
      ∀ clause ∈ response.query.clauses, clause.value.depth ≤ 124) :
    (respond result).outcome? = some (Service.outcome result) ∧
      (respond result).Tells (Service.outcome result).label (Service.outcome result) := by
  cases result with
  | ok response =>
    obtain ⟨hq, hd⟩ := h response rfl
    exact ⟨rfl, rfl, rfl, response, holdsAnswer_text hq hd⟩
  | error e =>
    have hdetail := holdsDetail_text e
    cases e with
    | interpret e => cases e <;> exact ⟨rfl, rfl, rfl, _, hdetail⟩
    | _ => exact ⟨rfl, rfl, rfl, _, hdetail⟩

end

theorem ofPath?_eq_some {path : String} {route : Route} (h : Route.ofPath? path = some route) :
    path = route.path := by
  simpa [eq_comm] using List.find?_some h

section

variable (o : Origins) (m : Metrics) {v : Visit}

/-- A posted question is counted under the outcome that its answer tells. -/
theorem exchange_posted (h : v.posted = true) : ∃ outcome,
    (v.exchange o m).metrics = m.record outcome.label v.elapsed ∧
    (v.exchange o m).response.outcome? = some outcome ∧
    (v.exchange o m).response.Tells outcome.label outcome := by
  obtain ⟨hmethod, hpath⟩ : v.request.method = "POST" ∧ v.request.path = "/api/query" := by
    simpa [Visit.posted] using h
  have hroute : Route.ofPath? v.request.path = some .query := by rw [hpath]; decide
  set result := ask v.answer v.task v.catalog v.request with hresult
  have hexchange : v.exchange o m = ⟨(respond result.1).withHeaders
      (o.headers (v.request.header? "origin")),
      m.record (Service.outcome result.1).label v.elapsed, result.2⟩ := by
    simp [Visit.exchange, handle, dispatch, hroute, hmethod, Route.methods, Route.exchange, hresult]
  rw [hexchange]
  exact ⟨_, rfl, respond_tells fun response hok => ask_sound hok⟩

theorem exchange_other (h : v.posted = false) : (v.exchange o m).metrics = m := by
  show (dispatch v.answer v.toCourse v.catalog m v.request).metrics = m
  unfold dispatch
  cases hroute : Route.ofPath? v.request.path with
  | none => rfl
  | some route =>
    have hsame (hmethod : route.methods.contains v.request.method = true) :
        (route.exchange v.answer v.toCourse v.catalog m v.request).metrics = m := by
      cases route with
      | query =>
        have hpath : v.request.path = "/api/query" := ofPath?_eq_some hroute
        simp [Visit.posted, hpath] at h
        simp [Route.methods, h] at hmethod
      | _ => rfl
    dsimp only
    split_ifs with hoptions hmethod
    · rfl
    · exact hsame hmethod
    · exact hsame hmethod
    · rfl

theorem exchange_metrics (hmethod : v.request.method = "GET")
    (hpath : v.request.path = "/metrics") :
    (v.exchange o m).response.body = .metrics m := by
  have hroute : Route.ofPath? v.request.path = some .metrics := by rw [hpath]; decide
  simp [Visit.exchange, handle, dispatch, hroute, hmethod, Route.methods, Route.exchange,
    Response.withHeaders, Response.ofBody]

end

def recorded? (v : Visit) (x : Exchange) : Option (String × Double) :=
  if v.posted then x.response.outcome?.map fun outcome => (outcome.label, v.elapsed) else none

def entries (log : List (Visit × Exchange)) : List (String × Double) :=
  log.filterMap fun e => recorded? e.1 e.2

section

variable (o : Origins) (m : Metrics)

theorem counts_exchange {seen : List (String × Double)} (h : m.Counts seen) (v : Visit) :
    (v.exchange o m).metrics.Counts (seen ++ (recorded? v (v.exchange o m)).toList) := by
  cases hv : v.posted with
  | true =>
    obtain ⟨outcome, hm, houtcome, -⟩ := exchange_posted o m hv
    rw [hm, recorded?, hv, houtcome]
    exact h.record outcome.label v.elapsed
  | false =>
    rw [exchange_other o m hv, recorded?, hv]
    simpa using h

theorem entries_serve (v : Visit) (visits : List Visit) : entries (serve o m (v :: visits)) =
    (recorded? v (v.exchange o m)).toList ++ entries (serve o (v.exchange o m).metrics visits) := by
  rw [serve, entries, List.filterMap_cons]
  cases recorded? v (v.exchange o m) <;> rfl

/-- The metrics go on to hold all that was put into them. -/
theorem counts_after {seen : List (String × Double)} (h : m.Counts seen) (visits : List Visit) :
    (after o m visits).Counts (seen ++ entries (serve o m visits)) := by
  induction visits generalizing m seen with
  | nil => simpa [serve, entries, after] using h
  | cons v visits ih =>
    rw [entries_serve, ← List.append_assoc]
    exact ih (v.exchange o m).metrics (counts_exchange o m h v)

theorem entries_elapsed (visits : List Visit) :
    (entries (serve o m visits)).map (·.2) = (visits.filter Visit.posted).map (·.elapsed) := by
  induction visits generalizing m with
  | nil => rfl
  | cons v visits ih =>
    rw [entries_serve, List.map_append, ih]
    cases hv : v.posted with
    | true =>
      obtain ⟨outcome, -, houtcome, -⟩ := exchange_posted o m hv
      rw [recorded?, hv, houtcome, List.filter_cons_of_pos hv]
      rfl
    | false =>
      rw [recorded?, hv, List.filter_cons_of_neg (by simp [hv])]
      rfl

theorem length_entries (visits : List Visit) :
    (entries (serve o m visits)).length = visits.countP Visit.posted := by
  have hlength := congrArg List.length (entries_elapsed o m visits)
  rwa [List.length_map, List.length_map, ← List.countP_eq_length_filter] at hlength

theorem bucketLine_entries (visits : List Visit) :
    Metrics.bucketLine ((entries (serve o m visits)).map (·.2)) = fun bound =>
      Metrics.sample (Metrics.histogramName ++ "_bucket") "le" bound.text
        (visits.countP fun v => v.posted && Histogram.atMost v.elapsed bound) := by
  funext bound
  rw [Metrics.bucketLine, entries_elapsed, List.countP_map, List.countP_filter]
  simp only [Function.comp_apply, Bool.and_comm]

theorem mem_serve {visits : List Visit} {e : Visit × Exchange} (h : e ∈ serve o m visits) :
    ∃ m', e.2 = e.1.exchange o m' := by
  induction visits generalizing m with
  | nil => cases h
  | cons v visits ih =>
    rcases List.mem_cons.mp h with rfl | h
    · exact ⟨m, rfl⟩
    · exact ih _ h

end

theorem countP_entries (log : List (Visit × Exchange)) (outcome : Outcome) :
    (entries log).countP (fun e => e.1 = outcome.label) =
      log.countP fun e => e.1.posted && e.2.response.outcome? == some outcome := by
  rw [entries, List.countP_filterMap]
  congr 1
  funext e
  rw [recorded?]
  cases e.1.posted with
  | false => rfl
  | true =>
    cases e.2.response.outcome? with
    | none => rfl
    | some other => simp [Outcome.label_injective.eq_iff, beq_eq_decide]

theorem label_of_mem_entries {log : List (Visit × Exchange)} {s : String × Double}
    (h : s ∈ entries log) : ∃ outcome : Outcome, s.1 = outcome.label := by
  obtain ⟨e, -, he⟩ := List.mem_filterMap.mp h
  unfold recorded? at he
  split at he
  · obtain ⟨outcome, -, rfl⟩ := Option.map_eq_some_iff.mp he
    exact ⟨outcome, rfl⟩
  · cases he

theorem mem_counters_iff {m : Metrics} {log : List (Visit × Exchange)} (h : m.Counts (entries log))
    (e : String × ℕ) : e ∈ m.counters ↔ ∃ outcome : Outcome,
      e = (outcome.label, log.countP fun e => e.1.posted && e.2.response.outcome? == some outcome) ∧
        e.2 ≠ 0 := by
  rw [h.mem_counters]
  constructor
  · rintro ⟨hcount, hne⟩
    rw [hcount] at hne
    obtain ⟨s, hs, hlabel⟩ := List.countP_pos_iff.mp (Nat.pos_of_ne_zero hne)
    obtain ⟨outcome, houtcome⟩ := label_of_mem_entries hs
    have he : e.1 = outcome.label := houtcome ▸ (of_decide_eq_true hlabel).symm
    rw [← hcount] at hne
    rw [he, countP_entries] at hcount
    exact ⟨outcome, Prod.ext he hcount, hne⟩
  · rintro ⟨outcome, rfl, hne⟩
    exact ⟨(countP_entries log outcome).symm, hne⟩

/-- How many of some visits had a posted question that was answered with an outcome. -/
def answered (o : Origins) (visits : List Visit) (outcome : Outcome) : ℕ :=
  (serve o .empty visits).countP fun e => e.1.posted && e.2.response.outcome? == some outcome

/-- The metrics behind some visits, by what the visits were and how they were answered. -/
structure Counted (o : Origins) (visits : List Visit) (m : Metrics) : Prop where
  total : (m.counters.map (·.2)).sum = visits.countP Visit.posted
  observed : m.durations.total = visits.countP Visit.posted
  outcomes : ∀ outcome : Outcome, m.count outcome.label = answered o visits outcome
  answers : ∀ e ∈ serve o .empty visits, e.1.posted = true →
    ∃ outcome, e.2.response.outcome? = some outcome ∧ e.2.response.Tells outcome.label outcome
  exported : ∀ v : Visit, v.request.method = "GET" → v.request.path = "/metrics" →
    (v.exchange o m).response.body.text =
      String.join ((m.counterLines ++ Metrics.histogramLines m.durations).map (· ++ "\n"))
  counters : ∀ e, e ∈ m.counters ↔
    ∃ outcome : Outcome, e = (outcome.label, answered o visits outcome) ∧ e.2 ≠ 0
  buckets : Metrics.histogramLines m.durations =
    Metrics.heading Metrics.histogramName "End-to-end query latency in seconds" "histogram" ++
      (Histogram.bounds.map fun bound =>
        Metrics.sample (Metrics.histogramName ++ "_bucket") "le" bound.text
          (visits.countP fun v => v.posted && Histogram.atMost v.elapsed bound)) ++
      [Metrics.sample (Metrics.histogramName ++ "_bucket") "le" "+Inf"
          (visits.countP Visit.posted),
        Metrics.histogramName ++ "_sum " ++ m.durations.sum.text,
        Metrics.histogramName ++ "_count " ++ toString (visits.countP Visit.posted)]

/-- After any visits, whatever was in them, each posted question has been counted once and under the
outcome that its answer tells, and each bucket of the exported histogram has the questions that took
no longer than its bound. -/
theorem counted_after (o : Origins) (visits : List Visit) :
    Counted o visits (after o .empty visits) := by
  have hcounts : (after o .empty visits).Counts (entries (serve o .empty visits)) :=
    counts_after o .empty Metrics.counts_empty visits
  have hlength := length_entries o .empty visits
  constructor
  · rw [hcounts.total, hlength]
  · rw [hcounts.durations.total, List.length_map, hlength]
  · intro outcome
    rw [hcounts.each, countP_entries]
    rfl
  · intro e he hposted
    obtain ⟨m, hm⟩ := mem_serve o .empty he
    obtain ⟨outcome, -, houtcome, htells⟩ := exchange_posted o m hposted
    rw [hm]
    exact ⟨outcome, houtcome, htells⟩
  · intro v hmethod hpath
    rw [exchange_metrics o _ hmethod hpath]
    rfl
  · exact mem_counters_iff hcounts
  · rw [hcounts.histogramLines_eq, hlength, bucketLine_entries]

def visitWith (text : String) (answer : Service.Answer) (task : Service.Task) : Visit where
  request := ⟨"POST", "/api/query?x", [("content-type", "application/json")],
    "\x7b\"query\": \"" ++ text ++ "\"\x7d"⟩
  answer _ := answer
  catalog := ⟨none⟩
  task := task
  elapsed := Double.zero

/-- One question for each way in which a question can fail, and a request that is none. -/
def failingVisits : List Visit :=
  [visitWith " " .silence .late, visitWith "cheap" .silence .late,
    visitWith "cheap" (.failure "down") .late, visitWith "cheap" (.reply "cheap") .late,
    visitWith "cheap" (.reply "\x7b\x7d") (.refused .poisoned),
    visitWith "cheap" (.reply "\x7b\x7d") .late,
    visitWith "cheap" (.reply "\x7b\x7d") (.broken "cancelled"),
    visitWith "cheap" (.reply "\x7b\x7d") (.ended Double.zero),
    { visitWith "" .silence .late with request := ⟨"GET", "/api/health", [], ""⟩ }]

example : (after .any .empty failingVisits).counters = [("execution_error", 3),
    ("interpretation_error", 1), ("invalid_input", 1), ("timeout", 2), ("upstream_error", 1)] := by
  decide +kernel

end Http

end Screener
