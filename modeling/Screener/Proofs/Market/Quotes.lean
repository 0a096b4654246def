import Screener.Market.Quote
import Screener.Proofs.Market.Addresses
import Screener.Proofs.Market.Fixtures
import Screener.Proofs.Settings.Faults

namespace Screener.Market

end Screener.Market
