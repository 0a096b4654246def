import Screener.Proofs.Catalog.Lookup
import Screener.Service

namespace Screener

namespace Service

theorem question?_eq (text : String) :
    question? text = if Text.trim text = "" then none else some (Text.trim text) := by
  rw [question?]
  by_cases h : Text.trim text = ""
  · rw [if_pos h, if_pos ((Text.trim_eq_empty_iff text).mp h)]
  · rw [if_neg h, if_neg (mt (Text.trim_eq_empty_iff text).mpr h)]

def HoldsObject (reply : String) : Prop := ∃ entries, Json.ofText reply = .ok (.object entries)

theorem readReply_of_holdsObject {reply : String} (h : HoldsObject reply) :
    ∃ q, Model.readReply reply = .ok q := by
  obtain ⟨entries, he⟩ := h
  exact ⟨_, by rw [Model.readReply, he]; rfl⟩

theorem readReply_of_not_holdsObject {reply : String} (h : ¬ HoldsObject reply) :
    ∃ e, Model.readReply reply = .error e := by
  rw [Model.readReply]
  split
  · exact ⟨_, rfl⟩
  · rename_i v hv
    cases v with
    | object entries => exact absurd ⟨entries, hv⟩ h
    | _ => exact ⟨_, rfl⟩

/-- A text, what the model does with each question, and how the task of a query ends. -/
structure Call where
  text : String
  ask : String → Answer
  task : Task

namespace Call

variable (call : Call) (c : Catalog)

def run : Except Error Response × List String := Service.run call.ask call.task c call.text

/-- The statements that are put to the database. -/
def statements : List Sql.Bound :=
  match question? call.text with
  | none => []
  | some question =>
    match (call.ask question).query, call.task with
    | .ok _, .refused _ => []
    | .ok q, _ => [Sql.native (Plan.ofQuery q)]
    | .error _, _ => []

/-- There is a question, and the model replies to it with an object. -/
def Understood : Prop :=
  Text.trim call.text ≠ "" ∧
    ∃ reply, call.ask (Text.trim call.text) = .reply reply ∧ HoldsObject reply

/-- How a call ends on a catalog, and why. -/
structure Coherent (result : Except Error Response × List String) : Prop where
  asked : result.2 = if Text.trim call.text = "" then [] else [Text.trim call.text]
  invalid : (∃ detail, result.1 = .error (.invalidInput detail)) ↔ Text.trim call.text = ""
  failed : ∀ detail, result.1 = .error (.interpret (.serviceFailure detail)) ↔
    Text.trim call.text ≠ "" ∧ call.ask (Text.trim call.text) = .failure detail
  unread : (∃ detail, result.1 = .error (.interpret (.interpretation detail))) ↔
    Text.trim call.text ≠ "" ∧
      ∃ reply, call.ask (Text.trim call.text) = .reply reply ∧ ¬ HoldsObject reply
  late : ∀ what, result.1 = .error (.timeout what) ↔
    (what = "Query interpretation" ∧ Text.trim call.text ≠ "" ∧
      call.ask (Text.trim call.text) = .silence) ∨
    (what = "Query execution" ∧ call.Understood ∧ call.task = .late)
  refused : ∀ e, result.1 = .error (.storage e) ↔ call.Understood ∧ call.task = .refused e
  broken : ∀ detail, result.1 = .error (.taskFailed detail) ↔
    call.Understood ∧ call.task = .broken detail
  unexecuted : (∃ e, result.1 = .error (.execution e)) ↔
    call.Understood ∧ c.table = none ∧ ∃ elapsed, call.task = .ended elapsed
  answered : ∀ reply elapsed, Text.trim call.text ≠ "" → c.table ≠ none →
    call.ask (Text.trim call.text) = .reply reply → HoldsObject reply →
    call.task = .ended elapsed →
    ∃ q records, Model.readReply reply = .ok q ∧ c.query q = .ok records ∧
      result.1 = .ok ⟨q, q.sql, records, elapsed⟩

variable {call c}

theorem run_of_blank (h : Text.trim call.text = "") :
    call.run c = (.error (.invalidInput "query must not be empty"), []) := by
  rw [run, Service.run, question?_eq, if_pos h]

theorem run_of_asked (h : Text.trim call.text ≠ "") : call.run c =
    ((call.ask (Text.trim call.text)).query >>= execute call.task c,
      [Text.trim call.text]) := by
  rw [run, Service.run, question?_eq, if_neg h]

theorem query_of_holdsObject {reply : String} (h : HoldsObject reply) :
    ∃ q, Model.readReply reply = .ok q ∧
      ∀ task, (Answer.reply reply).query >>= execute task c = execute task c q := by
  obtain ⟨q, hq⟩ := readReply_of_holdsObject h
  exact ⟨q, hq, fun task => by simp [Answer.query, hq, Except.mapError, bind, Except.bind]⟩

theorem query_cases (q : Query) : (c.table = none ∧ ∃ e, c.query q = .error e) ∨
    (c.table ≠ none ∧ ∃ records, c.query q = .ok records) := by
  obtain ⟨_ | rows⟩ := c
  · exact .inl ⟨rfl, _, Catalog.query_no_table q⟩
  · exact .inr ⟨nofun, _, Sql.query_eq_select q rows⟩

theorem run_coherent : Coherent call c (call.run c) := by
  by_cases hblank : Text.trim call.text = ""
  · rw [run_of_blank hblank]
    constructor <;> simp [hblank, Understood]
  rw [run_of_asked hblank]
  cases hask : call.ask (Text.trim call.text) with
  | silence =>
    constructor <;> simp [hblank, hask, Understood, Answer.query, bind, Except.bind, eq_comm]
  | failure detail =>
    constructor <;> simp [hblank, hask, Understood, Answer.query, bind, Except.bind]
  | reply reply =>
    by_cases hobject : HoldsObject reply
    · obtain ⟨q, hq, hquery⟩ := query_of_holdsObject (c := c) hobject
      rw [hquery]
      cases htask : call.task with
      | ended elapsed =>
        obtain ⟨htable, e, hrun⟩ | ⟨htable, records, hrun⟩ := query_cases (c := c) q
        · constructor <;> simp [execute, hblank, hask, hobject, Understood, htask, htable, hrun]
        · constructor <;>
            simp [execute, hblank, hask, hobject, Understood, htask, htable, hrun, hq]
      | _ =>
        constructor <;> simp [execute, hblank, hask, hobject, Understood, htask, eq_comm]
    · obtain ⟨e, he⟩ := readReply_of_not_holdsObject hobject
      have hquery : (Answer.reply reply).query >>= execute call.task c =
          .error (.interpret (.interpretation e.message)) := by
        simp [Answer.query, he, Except.mapError, bind, Except.bind]
      rw [hquery]
      constructor
      case answered =>
        intro reply' elapsed _ _ hreply hobject'
        obtain rfl := Answer.reply.inj (hask.symm.trans hreply)
        exact absurd hobject' hobject
      all_goals simp [hblank, hask, hobject, Understood]

end Call

/-- What becomes of a catalog by a statement. One that selects leaves it as it is; `other` is what
any other text does. -/
def apply (other : Sql.Bound → Catalog → Catalog) (c : Catalog) (b : Sql.Bound) : Catalog :=
  match Sql.Statement.ofBound? b with
  | some _ => c
  | none => other b c

/-- Calls one after the other on one catalog: how each ends, and the catalog behind them. -/
def serve (other : Sql.Bound → Catalog → Catalog) :
    List Call → Catalog → List (Except Error Response × List String) × Catalog
  | [], c => ([], c)
  | call :: calls, c =>
    let (results, last) := serve other calls (call.statements.foldl (apply other) c)
    (call.run c :: results, last)

theorem apply_native (other : Sql.Bound → Catalog → Catalog) (c : Catalog) (q : Query) :
    apply other c (Sql.native (Plan.ofQuery q)) = c := by
  rw [apply, Sql.ofBound?_native (Sql.limit_lt_size q)]

theorem foldl_statements (other : Sql.Bound → Catalog → Catalog) (call : Call) (c : Catalog) :
    call.statements.foldl (apply other) c = c := by
  unfold Call.statements
  split
  · rfl
  · split
    case h_2 => rw [List.foldl_cons, List.foldl_nil, apply_native]
    all_goals rfl

theorem serve_eq (other : Sql.Bound → Catalog → Catalog) (calls : List Call) (c : Catalog) :
    serve other calls c = (calls.map fun call => call.run c, c) := by
  induction calls with
  | nil => rfl
  | cons call calls ih => rw [serve, foldl_statements, ih, List.map_cons]

/-- A call ends as its text, the model, the task of its query and the table have it, and one question
at most is put to the model. However many calls go before, whatever they end with, the catalog stays
as it is and each call ends as it would alone. -/
theorem coherent_readOnly :
    (∀ (call : Call) c, call.Coherent c (call.run c)) ∧
    ∀ other calls c, serve other calls c = (calls.map fun call => call.run c, c) :=
  ⟨fun _ _ => Call.run_coherent, serve_eq⟩

/-- The second filter is no clause. -/
def cheapReply : String :=
  "\x7b\"filters\": [\x7b\"field\": \"price\", \"operator\": \"lt\", \"value\": 10\x7d, " ++
    "\x7b\"field\": \"beta\"\x7d], \"limit\": 3\x7d"

def cheapQuery : Query := { Query.empty.withClause "price" "lt" (.int 10) with limit := 3 }

def cheapCall : Call where
  text := " cheap stocks\n"
  ask _ := .reply cheapReply
  task := .ended Double.zero

def pennyStock : Record := .new "PNY" "Penny" Double.zero

def tenStock : Record := .new "TEN" "Ten" ⟨false, 5629499534213120, -49, by decide⟩

def stocked : Catalog := ⟨some [tenStock, pennyStock]⟩

theorem coherent_cheapCall : cheapCall.Coherent stocked (cheapCall.run stocked) ∧
    (cheapCall.run stocked).1 =
      .ok ⟨cheapQuery, cheapQuery.sql, [pennyStock], Double.zero⟩ := by
  have hcoherent := coherent_readOnly.1 cheapCall stocked
  have hread : Model.readReply cheapReply = .ok cheapQuery := by rfl
  have hobject : HoldsObject cheapReply := ⟨_, rfl⟩
  obtain ⟨q, records, hq, hrecords, hrun⟩ :=
    hcoherent.answered cheapReply Double.zero (by decide) nofun rfl hobject rfl
  obtain rfl : cheapQuery = q := Except.ok.inj (hread.symm.trans hq)
  have hkept : [tenStock, pennyStock].filter cheapQuery.admits = [pennyStock] := by
    decide +kernel
  have hanswer : cheapQuery.answer [tenStock, pennyStock] = [pennyStock] := by
    rw [Query.answer, hkept, List.mergeSort_singleton]
    rfl
  rw [stocked, Sql.query_eq_select, Sql.select_ofPlan, hanswer] at hrecords
  obtain rfl : [pennyStock] = records := Except.ok.inj hrecords
  exact ⟨hcoherent, hrun⟩

end Service

end Screener
