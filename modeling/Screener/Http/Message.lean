import Screener.Metrics
import Screener.Service

namespace Screener.Http

structure Request where
  method : String
  target : String
  headers : List (String × String)
  body : String

namespace Request

def path (r : Request) : String :=
  String.ofList (r.target.toList.takeWhile fun c => c ≠ '?' && c ≠ '#')

def header? (r : Request) (name : String) : Option String :=
  (r.headers.find? fun (n, _) => n.toList.map Char.toLower == name.toList).map (·.2)

end Request

inductive Body where
  | empty
  | document (v : Json)
  | answer (r : Service.Response)
  | failure (e : Service.Error)
  | metrics (m : Metrics)

def detail (e : Service.Error) : String :=
  match e with
  | .invalidInput _ | .interpret (.interpretation _) => "Invalid query: " ++ e.message
  | .interpret (.serviceFailure _) | .timeout _ => e.message
  | .execution _ | .storage _ | .taskFailed _ => "Execution error: " ++ e.message

def status (e : Service.Error) : Nat :=
  match e with
  | .invalidInput _ | .interpret (.interpretation _) => 400
  | .interpret (.serviceFailure _) => 502
  | .timeout _ => 504
  | .execution _ | .storage _ | .taskFailed _ => 500

namespace Body

def text : Body → String
  | empty => ""
  | document v => v.text
  | answer r => Service.Response.codec.toText r
  | failure e => (Json.ofEntries [("detail", .string (detail e))]).text
  | metrics m => m.text

def contentType? : Body → Option String
  | empty => none
  | metrics _ => some "text/plain; version=0.0.4"
  | document _ | answer _ | failure _ => some "application/json"

end Body

structure Response where
  status : Nat
  headers : List (String × String)
  body : Body

namespace Response

def ofBody (status : Nat) (body : Body) : Response :=
  ⟨status, (body.contentType?.map fun t => ("content-type", t)).toList, body⟩

def header? (r : Response) (name : String) : Option String :=
  (r.headers.find? (·.1 = name)).map (·.2)

def withHeaders (r : Response) (more : List (String × String)) : Response :=
  { r with headers := r.headers ++ more }

def head (r : Response) : Response := { r with body := .empty }

end Response

end Screener.Http
