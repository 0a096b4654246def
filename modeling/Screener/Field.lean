namespace Screener

inductive FieldKind where
  | text
  | number
  | integer
deriving DecidableEq

def FieldKind.name : FieldKind → String
  | text => "string"
  | number => "number"
  | integer => "integer"

inductive Field where
  | symbol
  | companyName
  | sector
  | industry
  | price
  | marketCap
  | volume
  | peRatio
  | dividendYield
deriving DecidableEq

namespace Field

def all : List Field :=
  [symbol, companyName, sector, industry, price, marketCap, volume, peRatio, dividendYield]

theorem mem_all (f : Field) : f ∈ all := by cases f <;> decide

def name : Field → String
  | symbol => "symbol"
  | companyName => "company_name"
  | sector => "sector"
  | industry => "industry"
  | price => "price"
  | marketCap => "market_cap"
  | volume => "volume"
  | peRatio => "pe_ratio"
  | dividendYield => "dividend_yield"

theorem name_injective {f g : Field} (h : f.name = g.name) : f = g := by
  cases f <;> cases g <;> first | rfl | exact absurd h (by decide)

def ofName? (s : String) : Option Field := all.find? (·.name = s)

theorem ofName?_name (f : Field) : ofName? f.name = some f := by cases f <;> decide

theorem ofName?_eq_some_iff {s : String} {f : Field} : ofName? s = some f ↔ s = f.name := by
  constructor
  · intro h
    have := List.find?_some (by simpa only [ofName?] using h)
    exact (of_decide_eq_true this).symm
  · rintro rfl
    exact ofName?_name f

def column (f : Field) : String := f.name

def kind : Field → FieldKind
  | symbol | companyName | sector | industry => .text
  | volume => .integer
  | price | marketCap | peRatio | dividendYield => .number

/-- What a search for text looks into: numbers are searched in their text form. -/
def searchTarget (f : Field) : String :=
  match f.kind with
  | .text => f.column
  | _ => "CAST(" ++ f.column ++ " AS VARCHAR)"

def description : Field → String
  | symbol => "Stock ticker symbol"
  | companyName => "Company name"
  | sector => "Business sector"
  | industry => "Industry type"
  | price => "Stock price"
  | marketCap => "Market capitalization"
  | volume => "Trading volume"
  | peRatio => "Price-to-earnings ratio"
  | dividendYield => "Dividend yield percentage"

end Field

end Screener
