import Mathlib.Data.List.Basic
import Screener.Market.Template

namespace Screener.Market.Template

end Screener.Market.Template
