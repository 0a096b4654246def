import Screener.Settings

namespace Screener

theorem Market.Template.occursIn_iff {part cs : List Char} :
    occursIn part cs = true ↔ part <:+: cs := by
  induction cs with
  | nil => rw [occursIn, List.isEmpty_iff, List.infix_nil]
  | cons c cs ih =>
    rw [occursIn, Bool.or_eq_true, List.isPrefixOf_iff_prefix, ih, List.infix_cons_iff]

namespace Settings

structure Valid (s : Settings) : Prop where
  model : s.model.timeout ≠ 0
  query : s.storage.queryTimeout ≠ 0
  fetch : s.storage.fetchTimeout ≠ 0
  address : s.storage.source = .quoteApi → ∃ url, s.storage.quoteAddress = some url ∧
    Market.Template.placeholder.toList <:+: url.toList

/-- The first fault: a timeout of zero, or no address for the quotes with a place for a symbol. -/
inductive FirstFault (s : Settings) : Error → Prop
  | model (h : s.model.timeout = 0) : FirstFault s (.noTimeout "llm.timeout_secs")
  | query (hmodel : s.model.timeout ≠ 0) (h : s.storage.queryTimeout = 0) :
    FirstFault s (.noTimeout "storage.query_timeout_secs")
  | fetch (hmodel : s.model.timeout ≠ 0) (hquery : s.storage.queryTimeout ≠ 0)
    (h : s.storage.fetchTimeout = 0) : FirstFault s (.noTimeout "storage.fetch_timeout_secs")
  | address (hmodel : s.model.timeout ≠ 0) (hquery : s.storage.queryTimeout ≠ 0)
    (hfetch : s.storage.fetchTimeout ≠ 0) (hsource : s.storage.source = .quoteApi)
    (h : ∀ url, s.storage.quoteAddress = some url →
      ¬ Market.Template.placeholder.toList <:+: url.toList) : FirstFault s .noQuoteAddress

theorem any_hasPlace_iff {address : Option String} :
    address.any Market.Template.hasPlace = true ↔ ∃ url, address = some url ∧
      Market.Template.placeholder.toList <:+: url.toList := by
  cases address <;> simp [Market.Template.hasPlace, Market.Template.occursIn_iff]

theorem Valid.check {s : Settings} (h : s.Valid) : s.check = .ok s := by
  have haddress : s.storage.source = .quoteApi →
      s.storage.quoteAddress.any Market.Template.hasPlace = true :=
    fun hsource => any_hasPlace_iff.mpr (h.address hsource)
  simpa [Settings.check, timeouts, h.model, h.query, h.fetch] using haddress

theorem FirstFault.check {s : Settings} {e : Error} (h : s.FirstFault e) : s.check = .error e := by
  cases h with
  | model h => simp [Settings.check, timeouts, h]
  | query hmodel h => simp [Settings.check, timeouts, hmodel, h]
  | fetch hmodel hquery h => simp [Settings.check, timeouts, hmodel, hquery, h]
  | address hmodel hquery hfetch hsource h =>
    have haddress : ¬ s.storage.quoteAddress.any Market.Template.hasPlace = true := by
      rw [any_hasPlace_iff]
      rintro ⟨url, hurl, hplace⟩
      exact h url hurl hplace
    simp [Settings.check, timeouts, hmodel, hquery, hfetch, hsource, haddress]

end Settings

end Screener
