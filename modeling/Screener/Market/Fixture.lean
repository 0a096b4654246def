import Screener.Record

namespace Screener.Market

inductive Error where
  | missingFile
  | unreadable (e : Json.Error)

def Error.message : Error → String
  | missingFile => "Failed to read market data: No such file or directory (os error 2)"
  | unreadable e => "Failed to parse market data: " ++ e.message

def defaultSymbols : List String := [
  "AAPL", "MSFT", "GOOGL", "AMZN", "NVDA", "TSLA", "META", "BRK-B", "TSM", "UNH",
  "JNJ", "JPM", "V", "XOM", "LLY", "WMT", "PG", "MA", "AVGO", "HD",
  "CVX", "MRK", "KO", "PEP", "ABBV", "COST", "ADBE", "CSCO", "MCD", "TMO",
  "CRM", "PFE", "ACN", "CMCSA", "LIN", "AMD", "NFLX", "DHR", "ABT", "ORCL",
  "NKE", "TXN", "DIS", "PM", "WFC", "UPS", "BMY", "NEE", "QCOM", "UNP",
  "RTX", "HON", "MS", "BA", "INTC", "IBM", "LOW", "AMGN", "CAT", "SPGI",
  "GE", "INTU", "DE", "PLD", "SBUX", "GS", "COP", "BLK", "MDLZ", "MDT",
  "LMT", "T", "ISRG", "TJX", "ADP", "BKNG", "GILD", "MMC", "VRTX", "ADI",
  "C", "SYK", "AMT", "ELV", "CI", "AXP", "CB", "REGN", "LRCX",
  "PYPL", "BSX", "ZTS", "BDX", "ETN", "SLB", "FI", "EOG", "CME", "MU"]

/-- Records to choose from; of those with one symbol the last counts. -/
structure Fixture where
  records : List Record

namespace Fixture

def ofText (contents : String) : Except Error Fixture :=
  match Record.codec.list.readText contents with
  | .ok records => .ok ⟨records⟩
  | .error e => .error (.unreadable e)

def ofFile : Option String → Except Error Fixture
  | some contents => ofText contents
  | none => .error .missingFile

def lookup? (f : Fixture) (symbol : String) : Option Record :=
  f.records.reverse.find? (·.symbol = symbol)

/-- The records of the symbols, in the order asked. Symbols without one are skipped. -/
def fetch (f : Fixture) (symbols : List String) : List Record := symbols.filterMap f.lookup?

end Fixture

end Screener.Market
