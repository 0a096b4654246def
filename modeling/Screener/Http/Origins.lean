import Screener.Http.Message

namespace Screener.Http

inductive Origins where
  | any
  | listed (origins : List String)
deriving DecidableEq

namespace Origins

def isHeaderText (s : String) : Bool :=
  s.toList.all fun c => (0x20 ≤ c.toNat && c.toNat < 0x7F) || c == '\t'

/-- A star stands for any origin. What can be no header is left out. -/
def ofTexts (origins : List String) : Origins :=
  if origins.contains "*" then any else listed (origins.filter isHeaderText)

def vary : String × String :=
  ("vary", "origin, access-control-request-method, access-control-request-headers")

/-- The headers of every response: listed origins are told so, and may send credentials. -/
def headers (o : Origins) (origin : Option String) : List (String × String) :=
  match o with
  | any => [vary, ("access-control-allow-origin", "*")]
  | listed origins =>
    [vary, ("access-control-allow-credentials", "true")] ++
      match origin with
      | some s => if origins.contains s then [("access-control-allow-origin", s)] else []
      | none => []

def preflight : List (String × String) :=
  [("access-control-allow-methods", "GET,POST,OPTIONS"),
    ("access-control-allow-headers", "content-type,authorization")]

end Origins

end Screener.Http
