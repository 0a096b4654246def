import Screener.Catalog
import Screener.Model.Reply

namespace Screener

/-- How a question ended, as it is counted. -/
inductive Outcome where
  | ok
  | invalidInput
  | interpretationError
  | serviceFailure
  | executionError
  | timeout
deriving DecidableEq

def Outcome.label : Outcome → String
  | ok => "ok"
  | invalidInput => "invalid_input"
  | interpretationError => "interpretation_error"
  | serviceFailure => "upstream_error"
  | executionError => "execution_error"
  | timeout => "timeout"

namespace Service

inductive Error where
  | invalidInput (detail : String)
  | interpret (e : Model.Error)
  | execution (e : Sql.EngineError)
  | storage (e : Catalog.Error)
  | timeout (what : String)
  | taskFailed (detail : String)

namespace Error

def outcome : Error → Outcome
  | invalidInput _ => .invalidInput
  | interpret (.interpretation _) => .interpretationError
  | interpret (.serviceFailure _) => .serviceFailure
  | execution _ | storage _ | taskFailed _ => .executionError
  | timeout _ => .timeout

def message : Error → String
  | invalidInput detail => detail
  | interpret e => e.message
  | execution e => "Query execution failed: " ++ e.message
  | storage e => e.message
  | timeout what => what ++ " timed out"
  | taskFailed detail => "Query task failed: " ++ detail

end Error

structure Response where
  query : Query
  sql : String
  records : List Record
  /-- In seconds. -/
  elapsed : Double

namespace Response

def codec : Json.Codec Response :=
  (Json.Codec.record "QueryResponse" <|
    .cons (.required "parsed_json" Query.codec) <|
      .cons (.required "sql_query" .text) <|
        .cons (.required "results" Record.codec.list) <|
          .cons (.required "execution_time" .double) .none).via
    (fun (q, s, r, e, _) => ⟨q, s, r, e⟩) (fun r => (r.query, r.sql, r.records, r.elapsed, ()))

end Response

inductive Answer where
  | reply (text : String)
  | failure (detail : String)
  /-- Nothing comes back in time. -/
  | silence

def Answer.query : Answer → Except Error Query
  | reply text => (Model.readReply text).mapError fun e => .interpret (.interpretation e.message)
  | failure detail => .error (.interpret (.serviceFailure detail))
  | silence => .error (.timeout "Query interpretation")

/-- What is put to the model: the text without the blanks around it, unless nothing is left. -/
def question? (text : String) : Option String :=
  if Text.isBlankText text then none else some (Text.trim text)

/-- How the task of a query ends. -/
inductive Task where
  /-- In time; the run took some seconds. -/
  | ended (elapsed : Double)
  | late
  | broken (detail : String)
  /-- There is no connection to run it on. -/
  | refused (e : Catalog.Error)
deriving Inhabited

def execute (task : Task) (c : Catalog) (q : Query) : Except Error Response :=
  match task with
  | .refused e => .error (.storage e)
  | .late => .error (.timeout "Query execution")
  | .broken detail => .error (.taskFailed detail)
  | .ended elapsed =>
    match c.query q with
    | .ok records => .ok ⟨q, q.sql, records, elapsed⟩
    | .error e => .error (.execution e)

/-- Answers a text; with the answer come the questions that were put to the model. -/
def run (ask : String → Answer) (task : Task) (c : Catalog) (text : String) :
    Except Error Response × List String :=
  match question? text with
  | none => (.error (.invalidInput "query must not be empty"), [])
  | some question => ((ask question).query >>= execute task c, [question])

def outcome : Except Error Response → Outcome
  | .ok _ => .ok
  | .error e => e.outcome

end Service

end Screener
