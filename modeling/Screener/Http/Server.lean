import Screener.Http.MediaType
import Screener.Http.Origins

namespace Screener.Http

inductive Route where
  | root
  | health
  | query
  | metrics
deriving DecidableEq

namespace Route

def all : List Route := [root, health, query, metrics]

def path : Route → String
  | root => "/"
  | health => "/api/health"
  | query => "/api/query"
  | metrics => "/metrics"

def ofPath? (s : String) : Option Route := all.find? (·.path = s)

def methods : Route → List String
  | query => ["POST"]
  | root | health | metrics => ["GET", "HEAD"]

end Route

def version : String := "0.1.0"

def about : Json := .ofEntries [
  ("message", .string "Stock screening query API"),
  ("version", .string version),
  ("health", .string Route.health.path),
  ("query", .string Route.query.path),
  ("metrics", .string Route.metrics.path)]

def alive : Json := .ofEntries [
  ("status", .string "healthy"),
  ("message", .string "API is running")]

inductive Rejection where
  | notDeclared
  | unreadable (path : String) (e : Json.Error)

namespace Rejection

def location (path : String) : String := if path = "" ∨ path = "." then "" else path ++ ": "

def message : Rejection → String
  | notDeclared => "Expected request with `Content-Type: application/json`"
  | unreadable path e =>
    (match e.cause.category with
      | .data => "Failed to deserialize the JSON body into the target type: "
      | .ending | .grammar => "Failed to parse the request body as JSON: ") ++
      location path ++ e.message

end Rejection

def questionCodec : Json.Codec String :=
  (Json.Codec.record "QueryRequest" (.cons (.required "query" .text) .none)).via
    (·.1) (fun s => (s, ()))

/-- The question in a request. What follows the document in the body does not matter. -/
def readQuestion (r : Request) : Except Rejection String :=
  if ((r.header? "content-type").bind MediaType.ofText?).any MediaType.isJson then
    let cs := r.body.toList
    (questionCodec.readStart cs).mapError fun f =>
      .unreadable (Json.pathText f.path) (f.error cs)
  else .error .notDeclared

def ask (answer : String → Service.Answer) (task : Service.Task) (c : Catalog) (r : Request) :
    Except Service.Error Service.Response × List String :=
  match readQuestion r with
  | .ok text => Service.run answer task c text
  | .error e => (.error (.invalidInput e.message), [])

def respond : Except Service.Error Service.Response → Response
  | .ok r => .ofBody 200 (.answer r)
  | .error e => .ofBody (status e) (.failure e)

/-- How a question fares: the task of its query, and the seconds until it is answered. -/
structure Course where
  task : Service.Task
  elapsed : Double
deriving Inhabited

/-- What is sent, what is counted from then on, and the questions that were put to the model. -/
structure Exchange where
  response : Response
  metrics : Metrics
  asked : List String

def Route.exchange (route : Route) (answer : String → Service.Answer) (course : Course)
    (c : Catalog) (m : Metrics) (r : Request) : Exchange :=
  match route with
  | root => ⟨.ofBody 200 (.document about), m, []⟩
  | health => ⟨.ofBody 200 (.document alive), m, []⟩
  | metrics => ⟨.ofBody 200 (.metrics m), m, []⟩
  | query =>
    let (result, asked) := ask answer course.task c r
    ⟨respond result, m.record (Service.outcome result).label course.elapsed, asked⟩

/-- The answer before the headers for browsers are added. -/
def dispatch (answer : String → Service.Answer) (course : Course) (c : Catalog) (m : Metrics)
    (r : Request) : Exchange :=
  match Route.ofPath? r.path with
  | none =>
    ⟨if r.method = "OPTIONS" then ⟨200, Origins.preflight, .empty⟩ else ⟨404, [], .empty⟩, m, []⟩
  | some route =>
    let allow := ("allow", ",".intercalate route.methods)
    if r.method = "OPTIONS" then ⟨⟨200, allow :: Origins.preflight, .empty⟩, m, []⟩
    else if route.methods.contains r.method then
      let x := route.exchange answer course c m r
      if r.method = "HEAD" then { x with response := x.response.head } else x
    else ⟨⟨405, [allow], .empty⟩, m, []⟩

def handle (o : Origins) (answer : String → Service.Answer) (course : Course) (c : Catalog)
    (m : Metrics) (r : Request) : Exchange :=
  let x := dispatch answer course c m r
  { x with response := x.response.withHeaders (o.headers (r.header? "origin")) }

end Screener.Http
