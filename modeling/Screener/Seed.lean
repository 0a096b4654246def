namespace Screener

inductive SeedSource where
  /-- A file of records. -/
  | fixture
  /-- One request for each symbol. -/
  | quoteApi
deriving DecidableEq

namespace SeedSource

def all : List SeedSource := [fixture, quoteApi]

def name : SeedSource → String
  | fixture => "fixture"
  | quoteApi => "quote_api"

def ofName? (s : String) : Option SeedSource := all.find? (·.name = s)

end SeedSource

end Screener
