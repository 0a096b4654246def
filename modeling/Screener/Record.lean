import Screener.Json.Codec

namespace Screener

structure Record where
  symbol : String
  companyName : String
  sector : Option String
  industry : Option String
  price : Double
  marketCap : Option Double
  volume : Option Int64
  peRatio : Option Double
  dividendYield : Option Double
  createdAt : Option Timestamp
deriving DecidableEq

namespace Record

def new (symbol companyName : String) (price : Double) : Record :=
  ⟨symbol, companyName, none, none, price, none, none, none, none, none⟩

def codec : Json.Codec Record :=
  (Json.Codec.record "Record" <|
    .cons (.required "symbol" .text) <|
      .cons (.required "company_name" .text) <|
        .cons (.defaulted "sector" (.optional .text) none) <|
          .cons (.defaulted "industry" (.optional .text) none) <|
            .cons (.required "price" .double) <|
              .cons (.defaulted "market_cap" (.optional .double) none) <|
                .cons (.defaulted "volume" (.optional .int64) none) <|
                  .cons (.defaulted "pe_ratio" (.optional .double) none) <|
                    .cons (.defaulted "dividend_yield" (.optional .double) none) <|
                      .cons (.defaulted "created_at" (.optional .timestamp) none) .none).via
    (fun (s, n, sec, ind, p, m, v, pe, d, c, _) => ⟨s, n, sec, ind, p, m, v, pe, d, c⟩)
    (fun r => (r.symbol, r.companyName, r.sector, r.industry, r.price, r.marketCap, r.volume,
      r.peRatio, r.dividendYield, r.createdAt, ()))

def withSector (r : Record) (name : String) : Record := { r with sector := some name }

def withIndustry (r : Record) (name : String) : Record := { r with industry := some name }

def withMarketCap (r : Record) (x : Double) : Record := { r with marketCap := some x }

def withVolume (r : Record) (n : Int64) : Record := { r with volume := some n }

def withPeRatio (r : Record) (x : Double) : Record := { r with peRatio := some x }

def withDividendYield (r : Record) (x : Double) : Record := { r with dividendYield := some x }

def columns : List String :=
  ["symbol", "company_name", "sector", "industry", "price", "market_cap", "volume", "pe_ratio",
    "dividend_yield", "created_at"]

end Record

end Screener
