import Screener.Http.Reply
import Screener.Market.Fixture
import Screener.Market.Template
import Screener.Market.Url

namespace Screener.Market

structure Quote where
  longName : Option String
  sector : Option String
  industry : Option String
  currentPrice : Option Double
  regularMarketPrice : Option Double
  previousClose : Option Double
  marketCap : Option Double
  volume : Option Int64
  trailingPE : Option Double
  dividendYield : Option Double

namespace Quote

def codec : Json.Codec Quote :=
  (Json.Codec.record "QuoteInfo" <|
    .cons (.nullable "longName" .text) <|
      .cons (.nullable "sector" .text) <|
        .cons (.nullable "industry" .text) <|
          .cons (.nullable "currentPrice" .double) <|
            .cons (.nullable "regularMarketPrice" .double) <|
              .cons (.nullable "previousClose" .double) <|
                .cons (.nullable "marketCap" .double) <|
                  .cons (.nullable "volume" .int64) <|
                    .cons (.nullable "trailingPE" .double) <|
                      .cons (.nullable "dividendYield" .double) .none).via
    (fun (n, s, i, c, r, p, m, v, t, d, _) => ⟨n, s, i, c, r, p, m, v, t, d⟩)
    (fun q => (q.longName, q.sector, q.industry, q.currentPrice, q.regularMarketPrice,
      q.previousClose, q.marketCap, q.volume, q.trailingPE, q.dividendYield, ()))

def unknown : String := "Unknown"

/-- The first price given of the current, the regular-market and the last closing one. -/
def price (q : Quote) : Double :=
  ((q.currentPrice.or q.regularMarketPrice).or q.previousClose).getD Double.zero

def toRecord (q : Quote) (symbol : String) : Record where
  symbol := symbol
  companyName := q.longName.getD unknown
  sector := some (q.sector.getD unknown)
  industry := some (q.industry.getD unknown)
  price := q.price
  marketCap := some (q.marketCap.getD Double.zero)
  volume := some (q.volume.getD 0)
  peRatio := q.trailingPE
  dividendYield := q.dividendYield
  createdAt := none

end Quote

def Quote.ofReply? (r : Http.Reply) : Option Quote :=
  if r.isError then none else (codec.readText r.body).toOption

/-- The record of a symbol, given the replies of all addresses; none for an address that cannot be
asked. -/
def fetchQuote? (reply? : String → Option Http.Reply) (template symbol : String) :
    Option Record := do
  let q ← Quote.ofReply? (← reply? (Template.address template symbol))
  some (q.toRecord symbol)

/-- The records of the symbols, in the order asked. A symbol that fails is skipped. -/
def fetchQuotes (reply? : String → Option Http.Reply) (template : String) (symbols : List String) :
    List Record :=
  symbols.filterMap (fetchQuote? reply? template)

end Screener.Market
