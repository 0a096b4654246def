namespace Screener.Http

structure Reply where
  status : Nat
  body : String
deriving DecidableEq

namespace Reply

def isSuccess (r : Reply) : Bool := 200 ≤ r.status && r.status < 300

def isError (r : Reply) : Bool := 400 ≤ r.status && r.status < 600

def isServerError (r : Reply) : Bool := 500 ≤ r.status && r.status < 600

end Reply

end Screener.Http
