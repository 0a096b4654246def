import Screener.Json.Reader
import Screener.Query

namespace Screener.Model

inductive ReplyError where
  | notJson (e : Json.Error)
  | notObject (reply : String)

def ReplyError.message : ReplyError → String
  | notJson e => e.message
  | notObject reply => "expected a JSON object, got: " ++ reply

inductive Error where
  | interpretation (detail : String)
  | serviceFailure (detail : String)
deriving DecidableEq

def Error.message : Error → String
  | interpretation detail => "Failed to parse LLM response as JSON: " ++ detail
  | serviceFailure detail => "LLM request failed: " ++ detail

/-- The query that a reply holds. Any object is one; the names in it are not looked up. -/
def readReply (reply : String) : Except ReplyError Query :=
  match Json.ofText reply with
  | .error e => .error (.notJson e)
  | .ok v => if v.isObject then .ok (Query.ofJson v) else .error (.notObject reply)

end Screener.Model
