/-
# `OrderEncoding.Encoders` — encoders neither change nor enlarge an order

Each encoder from the intent to what the exchange reads.  Where an intent has no side that is known, where the identifier of a futures
order is too long, or where a price or a volume is not positive, nothing is said beyond what is written here.
-/
import LiveTrader.Lib.UpperCase
import LiveTrader.OrderEncoding.Orders

namespace LiveTrader.OrderEncoding

open Lib Lib.Py Lib.Decimal

section encoders

variable {env : Env} {intent normalized : Fields} {rules : Rules}

/-! ## Sides -/

/-- A value that is there is read without the default. -/
theorem upperText_of_ne {value : Json} (h : upperText env value "" ≠ "") (default : String) :
    upperText env value default = upperText env value "" := by
  cases htruthy : value.truthy with
  | true => rw [upperText, upperText, textOr, textOr, orElse_of_truthy htruthy, orElse_of_truthy htruthy]
  | false =>
    refine absurd ?_ h
    rw [upperText, textOr, orElse_of_falsy htruthy]
    show upper (strip "") = ""
    decide

theorem sideKept : SideKept env intent (normalizeSide env (intent.at "side")) where
  sell h := by
    have hne : upperText env (intent.at "side") "" ≠ "" := by
      intro hempty
      rw [hempty] at h
      exact absurd h (by decide)
    rw [normalizeSide, upperText_of_ne hne, if_pos h]
  buy h := by
    have hnot : ∀ text ∈ buyTexts, text ≠ "" ∧ text ∉ sellTexts := by decide
    obtain ⟨hne, hsell⟩ := hnot _ h
    rw [normalizeSide, upperText_of_ne hne, if_neg hsell]

theorem upperText_str {text : String} (h : text ≠ "") (default : String) : upperText env (.str text) default = upper (strip text) := by
  have htruthy : (Json.str text).truthy = true := bne_iff_ne.mpr h
  rw [upperText, textOr, orElse_of_truthy htruthy, Env.str]

theorem textOr_str (text : String) : textOr env (.str text) "" = text := by
  by_cases h : text = ""
  · rw [h]
    rfl
  · have htruthy : (Json.str text).truthy = true := bne_iff_ne.mpr h
    rw [textOr, orElse_of_truthy htruthy, Env.str]

theorem normalizeSide_normalizeSide (value : Json) : normalizeSide env (.str (normalizeSide env value)) = normalizeSide env value := by
  have hsell : upper (strip "SELL") ∈ sellTexts := by decide
  have hbuy : upper (strip "BUY") ∉ sellTexts := by decide
  by_cases hsold : upperText env value "BUY" ∈ sellTexts
  · have hvalue : normalizeSide env value = "SELL" := if_pos hsold
    rw [hvalue, normalizeSide, upperText_str (by decide), if_pos hsell]
  · have hvalue : normalizeSide env value = "BUY" := if_neg hsold
    rw [hvalue, normalizeSide, upperText_str (by decide), if_neg hbuy]

/-! ## Numbers that were written -/

theorem exact_shortText {q : ℚ} (h : OnGrid 12 q) : Exact env (.str (shortText 12 q)) := by
  intro _
  obtain ⟨d, hd, hvalue⟩ := decimal?_shortText (by norm_num) h
  exact ⟨d, hd, hvalue ▸ h⟩

theorem decimalOrZero_shortText {q : ℚ} (h : OnGrid 12 q) : decimalOrZero env (.str (shortText 12 q)) = q := by
  rw [decimalOrZero, textOr, orElse_of_truthy (truthy_shortText h)]
  exact numberOf_shortText h

/-- A number that is written keeps an intent exact. -/
theorem ExactIntent.put (hexact : ExactIntent env intent) (key : String) {q : ℚ} (h : OnGrid 12 q) :
    ExactIntent env (intent.put key (.str (shortText 12 q))) := by
  intro key' hkey'
  by_cases hsame : key' = key
  · rw [hsame, Fields.at_put]
    exact exact_shortText h
  · rw [Fields.at_put_ne _ hsame]
    exact hexact key' hkey'

/-! ## Spot -/

/-- The type of an order whose rules were found. -/
theorem orderType_of_rules {symbol : String} {futures : Bool} {value : Json}
    (h : binanceSymbolRules env symbol futures (upperText env value "MARKET") = .ok rules) :
    upperText env value "MARKET" ∈ ["LIMIT", "MARKET"] := by
  obtain ⟨_, -, h⟩ := bind_eq_ok.mp h
  obtain ⟨_, htype, -⟩ := bind_eq_ok.mp h
  have htype := require_eq_ok.mp htype
  rw [upperText, upper_upper] at htype
  exact htype

/-- What the fitted intent still says of the order. -/
def keptKeys : List String := ["symbol", "side", "order_type", "price", "identifier", "new_client_order_id"]

/-- The order of an intent that was fitted, where its amount is the one that is wanted. -/
theorem spotKept_of (hat : ∀ key ∈ keptKeys, normalized.at key = intent.at key)
    (htype : upperText env (intent.at "order_type") "MARKET" ∈ ["LIMIT", "MARKET"]) (hexact : ExactIntent env normalized)
    {test : Bool} (hsend : (buildBinanceSpotOrderRequest env normalized test).canSend = true)
    (hquoted : ∀ quote, quoteOf env intent = some quote →
      usesQuote env normalized ∧ decimalOrZero env (quoteValue env normalized "BUY") = quote ∧ 0 < quote)
    (hsized : quoteOf env intent = none →
      ¬usesQuote env normalized ∧ Sized rules 0 (wantedOf env intent) (wantedOf env normalized)) :
    ∃ order, readBinance (buildBinanceSpotOrderRequest env normalized test) = some order ∧ SpotKept env intent rules order := by
  obtain ⟨hsymbol, hread⟩ := readBinance_spot hexact hsend
  have hidentifier : identifierOf env normalized = identifierOf env intent := by
    rw [identifierOf, identifierOf, hat "identifier" (by decide), hat "new_client_order_id" (by decide)]
  have hprice : priceOf env normalized = priceOf env intent := by
    rw [priceOf, priceOf, hat "price" (by decide)]
  rw [hat "symbol" (by decide)] at hsymbol hread
  rw [hat "side" (by decide), hat "order_type" (by decide), hidentifier, hprice] at hread
  refine ⟨_, hread, ?_⟩
  constructor
  all_goals dsimp only
  · exact ⟨rfl, hsymbol⟩
  · exact ⟨rfl, htype⟩
  · exact sideKept
  · intro quote hquote
    obtain ⟨huses, hvalue, hpos⟩ := hquoted quote hquote
    rw [if_pos huses, if_pos huses, hvalue]
    exact ⟨rfl, rfl, hpos⟩
  · intro hnone
    obtain ⟨hnot, hsize⟩ := hsized hnone
    rw [if_neg hnot, if_neg hnot]
    exact ⟨rfl, _, rfl, hsize⟩

/-- A market purchase that spends its notional. -/
theorem quotedIntent_kept (hexact : ExactIntent env intent) {symbol : String} {test : Bool}
    (htype : upperText env (intent.at "order_type") "MARKET" = "MARKET") (hside : normalizeSide env (intent.at "side") = "BUY")
    (hpos : 0 < decimalOrZero env (intent.at "notional"))
    (h : quotedIntent intent symbol rules (decimalOrZero env (intent.at "notional")) = .ok normalized)
    (hsend : (buildBinanceSpotOrderRequest env normalized test).canSend = true) :
    ∃ order, readBinance (buildBinanceSpotOrderRequest env normalized test) = some order ∧ SpotKept env intent rules order := by
  obtain ⟨_, -, h⟩ := bind_eq_ok.mp h
  have hnormalized := Except.ok.inj h
  have hgrid := onGrid_decimalOrZero (hexact "notional" (by decide))
  have hat : ∀ key, key ≠ "quote_order_qty" → normalized.at key = intent.at key := by
    intro key hne
    rw [← hnormalized, Fields.at_put_ne _ hne]
  have hexact' : ExactIntent env normalized := hnormalized ▸ hexact.put "quote_order_qty" hgrid
  have hquote : decimalOrZero env (quoteValue env normalized "BUY") = decimalOrZero env (intent.at "notional") := by
    have htruthy := truthy_shortText hgrid
    rw [quoteValue, ← hnormalized, Fields.at_put, orElse_of_truthy htruthy, orElse_of_truthy htruthy, decimalOrZero_shortText hgrid]
  have huses : usesQuote env normalized := by
    rw [usesQuote_iff hexact', hat "order_type" (by decide), hat "side" (by decide), hquote]
    exact ⟨htype, hside, hpos⟩
  have hquoteOf : quoteOf env intent = some (decimalOrZero env (intent.at "notional")) := by
    rw [quoteOf, if_pos ⟨htype, hside⟩, if_pos hpos]
  refine spotKept_of ?_ ?_ hexact' hsend ?_ ?_
  · intro key hkey
    have hkeys : ∀ key ∈ keptKeys, key ≠ "quote_order_qty" := by decide
    exact hat key (hkeys key hkey)
  · rw [htype]
    decide
  · intro quote hsome
    obtain rfl := Option.some.inj (hquoteOf.symm.trans hsome)
    exact ⟨huses, hquote, hpos⟩
  · intro hnone
    rw [hquoteOf] at hnone
    cases hnone

/-- An intent that is sized by its quantity. -/
theorem sizedIntent_kept (hexact : ExactIntent env intent) (hrules : rules.IsExact) {symbol : String} {test : Bool}
    (htype : upperText env (intent.at "order_type") "MARKET" ∈ ["LIMIT", "MARKET"])
    (hnot : ¬(upperText env (intent.at "order_type") "MARKET" = "MARKET" ∧ normalizeSide env (intent.at "side") = "BUY" ∧
      0 < decimalOrZero env (intent.at "notional")))
    (h : sizedIntent env intent symbol rules = .ok normalized)
    (hsend : (buildBinanceSpotOrderRequest env normalized test).canSend = true) :
    ∃ order, readBinance (buildBinanceSpotOrderRequest env normalized test) = some order ∧ SpotKept env intent rules order := by
  obtain ⟨q, hsized, hgrid, hnormalized⟩ := sizedIntent_eq_ok h
  have hgrid := hgrid hrules
  have hat : ∀ key, key ≠ "quantity" → key ≠ "qty" → normalized.at key = intent.at key := by
    intro key hquantity hqty
    rw [hnormalized, Fields.at_put_ne _ hqty, Fields.at_put_ne _ hquantity]
  have hexact' : ExactIntent env normalized := hnormalized ▸ (hexact.put "quantity" hgrid).put "qty" hgrid
  have hwanted : wantedOf env normalized = q := by
    have hquantity : normalized.at "quantity" = .str (shortText 12 q) := by
      rw [hnormalized, Fields.at_put_ne _ (by decide), Fields.at_put]
    rw [wantedOf, quantityValue, hquantity, orElse_of_truthy (truthy_shortText hgrid), decimalOrZero_shortText hgrid]
  have hquote : quoteValue env normalized "BUY" = quoteValue env intent "BUY" := by
    rw [quoteValue, hat "quote_order_qty" (by decide) (by decide), hat "quoteOrderQty" (by decide) (by decide),
      hat "order_type" (by decide) (by decide), hat "notional" (by decide) (by decide), quoteValue]
  have huses := usesQuote_iff hexact'
  rw [hat "order_type" (by decide) (by decide), hat "side" (by decide) (by decide), hquote] at huses
  refine spotKept_of ?_ htype hexact' hsend ?_ ?_
  · intro key hkey
    have hkeys : ∀ key ∈ keptKeys, key ≠ "quantity" ∧ key ≠ "qty" := by decide
    exact hat key (hkeys key hkey).1 (hkeys key hkey).2
  · intro quote hsome
    rw [quoteOf] at hsome
    split at hsome
    · next hbuy =>
      rw [if_neg fun hpos => hnot ⟨hbuy.1, hbuy.2, hpos⟩] at hsome
      split at hsome
      · next hpos =>
        obtain rfl := Option.some.inj hsome
        exact ⟨huses.mpr ⟨hbuy.1, hbuy.2, hpos⟩, by rw [hquote], hpos⟩
      · cases hsome
    · cases hsome
  · intro hnone
    rw [hwanted]
    refine ⟨?_, hsized⟩
    intro hspends
    obtain ⟨hmarket, hbuy, hpos⟩ := huses.mp hspends
    rw [quoteOf, if_pos ⟨hmarket, hbuy⟩, if_neg fun hnotional => hnot ⟨hmarket, hbuy, hnotional⟩, if_pos hpos] at hnone
    cases hnone

theorem spot_kept (hexact : ExactIntent env intent) (hrules : rules.IsExact) {test : Bool}
    (hfound : binanceSymbolRules env (upperText env (intent.at "symbol") "") false (upperText env (intent.at "order_type") "MARKET") =
      .ok rules)
    (h : normalizeBinanceSpotIntent env intent = .ok normalized)
    (hsend : (buildBinanceSpotOrderRequest env normalized test).canSend = true) :
    ∃ order, readBinance (buildBinanceSpotOrderRequest env normalized test) = some order ∧ SpotKept env intent rules order := by
  obtain ⟨rules', hfound', h⟩ := bind_eq_ok.mp h
  obtain rfl := Except.ok.inj (hfound.symm.trans hfound')
  dsimp only at h
  split at h
  · next hquoted => exact quotedIntent_kept hexact hquoted.1 hquoted.2.1 hquoted.2.2 h hsend
  · next hnot => exact sizedIntent_kept hexact hrules (orderType_of_rules hfound) hnot h hsend

/-! ## Futures -/

theorem at_put_eq (fields : Fields) (key key' : String) (value : Json) :
    (fields.put key value).at key' = if key' = key then value else fields.at key' := by
  by_cases hsame : key' = key
  · rw [if_pos hsame, hsame, Fields.at_put]
  · rw [if_neg hsame, Fields.at_put_ne _ hsame]

/-- What a futures intent is updated with, and what it keeps. -/
theorem futuresIntent_at {orderType : String} {q : ℚ} (h : normalized = (futuresUpdates env intent orderType q).foldl
    (fun fields entry => fields.put entry.1 entry.2) intent) :
    normalized.at "symbol" = .str (futuresSymbol env intent) ∧ normalized.at "side" = .str (normalizeSide env (intent.at "side")) ∧
      normalized.at "order_type" = .str orderType ∧ normalized.at "quantity" = .str (shortText 12 q) ∧
      normalized.at "qty" = .str (shortText 12 q) ∧
      ∀ key ∉ ["symbol", "side", "order_type", "quantity", "qty", "position_direction", "risk_reducing"],
        normalized.at key = intent.at key := by
  have hput : ∀ key, normalized.at key = if key = "risk_reducing" then .bool (isReducing intent)
      else if key = "position_direction" then .str (lower (positionDirection env intent))
      else if key = "qty" then .str (shortText 12 q) else if key = "quantity" then .str (shortText 12 q)
      else if key = "order_type" then .str orderType else if key = "side" then .str (normalizeSide env (intent.at "side"))
      else if key = "symbol" then .str (futuresSymbol env intent) else intent.at key := by
    intro key
    rw [h, futuresUpdates]
    simp only [List.foldl_cons, List.foldl_nil, at_put_eq]
  refine ⟨hput "symbol", hput "side", hput "order_type", hput "quantity", hput "qty", ?_⟩
  intro key hkey
  simp only [List.mem_cons, List.not_mem_nil, or_false, not_or] at hkey
  obtain ⟨hsymbol, hside, htype, hquantity, hqty, hdirection, hreducing⟩ := hkey
  rw [hput, if_neg hreducing, if_neg hdirection, if_neg hqty, if_neg hquantity, if_neg htype, if_neg hside, if_neg hsymbol]

theorem futures_kept (hexact : ExactIntent env intent) (hrules : rules.IsExact) {hedgeMode test : Bool}
    (hfound : binanceSymbolRules env (futuresSymbol env intent) true (upperText env (intent.at "order_type") "MARKET") = .ok rules)
    (h : normalizeBinanceFuturesIntent env intent = .ok normalized)
    (hsend : (buildBinanceFuturesOrderRequest env normalized hedgeMode test).canSend = true) :
    ∃ order, readBinance (buildBinanceFuturesOrderRequest env normalized hedgeMode test) = some order ∧
      FuturesKept env intent rules order := by
  obtain ⟨q, hsized, hgrid, htype, hnormalized⟩ := normalizeBinanceFuturesIntent_eq_ok hfound h
  have hgrid := hgrid hrules
  obtain ⟨hsymbolAt, hsideAt, htypeAt, hquantityAt, hqtyAt, hat⟩ := futuresIntent_at hnormalized
  have hexact' : ExactIntent env normalized := by
    intro key hkey
    by_cases hquantity : key = "quantity"
    · rw [hquantity, hquantityAt]
      exact exact_shortText hgrid
    by_cases hqty : key = "qty"
    · rw [hqty, hqtyAt]
      exact exact_shortText hgrid
    have hother : ∀ key ∈ numberKeys, key = "quantity" ∨ key = "qty" ∨
        key ∉ ["symbol", "side", "order_type", "quantity", "qty", "position_direction", "risk_reducing"] := by decide
    rw [hat key (((hother key hkey).resolve_left hquantity).resolve_left hqty)]
    exact hexact key hkey
  obtain ⟨hsymbol, hpositive, hread⟩ := readBinance_futures hexact' hsend
  have hsymbolRead : futuresSymbol env normalized = listedSymbol (futuresSymbol env intent) := by
    rw [futuresSymbol.eq_def env normalized, hsymbolAt, textOr_str]
  have htypeRead : upperText env (normalized.at "order_type") "MARKET" = upperText env (intent.at "order_type") "MARKET" := by
    have hne : upperText env (intent.at "order_type") "MARKET" ≠ "" := by
      intro hempty
      rw [hempty] at htype
      exact absurd htype (by decide)
    rw [htypeAt, upperText_str hne, upperText, upper_strip_upper_strip]
  have hwanted : wantedOf env normalized = q := by
    rw [wantedOf, quantityValue, hquantityAt, orElse_of_truthy (truthy_shortText hgrid), decimalOrZero_shortText hgrid]
  have hprice : priceOf env normalized = priceOf env intent := by
    rw [priceOf, priceOf, hat "price" (by decide)]
  have hidentifier : identifierOf env normalized = identifierOf env intent := by
    rw [identifierOf, identifierOf, hat "identifier" (by decide), hat "new_client_order_id" (by decide)]
  rw [hsymbolRead] at hsymbol
  rw [htypeRead, hprice] at hpositive
  rw [hsymbolRead, hsideAt, normalizeSide_normalizeSide, htypeRead, hwanted, hprice, hidentifier] at hread
  refine ⟨_, hread, ?_⟩
  constructor
  all_goals dsimp only
  · exact ⟨rfl, hsymbol⟩
  · exact ⟨rfl, orderType_of_rules hfound⟩
  · exact sideKept
  · exact ⟨rfl, q, rfl, hsized⟩
  · exact hpositive
  · intro hshort
    rw [List.take_of_length_le hshort, String.ofList_toList, ite_not]

/-! ## Upbit -/

theorem upbit_kept (hexact : ExactIntent env intent) {request : PreparedRequest} (h : buildUpbitOrderRequest env intent = .ok request)
    (hsend : request.canSend = true) : ∃ order, readUpbit request = some order ∧ UpbitKept env intent order := by
  obtain ⟨hsymbol, hread⟩ := readUpbit_built hexact h hsend
  refine ⟨_, hread, ?_⟩
  constructor
  all_goals dsimp only
  · exact ⟨rfl, hsymbol⟩
  · exact sideKept
  · intro hprice
    rw [if_pos hprice, if_pos hprice, if_neg fun hlimit => absurd (hprice.symm.trans hlimit) (by decide)]
    exact ⟨rfl, rfl, rfl⟩
  · intro hprice
    rw [if_neg hprice, if_neg hprice]
    exact ⟨rfl, rfl, rfl⟩
  · rw [ite_not]

end encoders

/-! ## Every encoder -/

/-- **What an exchange reads is the order of the intent**, for each of the three encoders. -/
theorem encoders_keep_orders (env : Env) (intent : Fields) (hexact : ExactIntent env intent) :
    (∀ (rules : Rules) (normalized : Fields) (test : Bool), rules.IsExact →
      binanceSymbolRules env (upperText env (intent.at "symbol") "") false (upperText env (intent.at "order_type") "MARKET") = .ok rules →
      normalizeBinanceSpotIntent env intent = .ok normalized →
      (buildBinanceSpotOrderRequest env normalized test).canSend = true →
      ∃ order, readBinance (buildBinanceSpotOrderRequest env normalized test) = some order ∧ SpotKept env intent rules order) ∧
    (∀ (rules : Rules) (normalized : Fields) (hedgeMode test : Bool), rules.IsExact →
      binanceSymbolRules env (futuresSymbol env intent) true (upperText env (intent.at "order_type") "MARKET") = .ok rules →
      normalizeBinanceFuturesIntent env intent = .ok normalized →
      (buildBinanceFuturesOrderRequest env normalized hedgeMode test).canSend = true →
      ∃ order, readBinance (buildBinanceFuturesOrderRequest env normalized hedgeMode test) = some order ∧
        FuturesKept env intent rules order) ∧
    ∀ request : PreparedRequest, buildUpbitOrderRequest env intent = .ok request → request.canSend = true →
      ∃ order, readUpbit request = some order ∧ UpbitKept env intent order := by
  refine ⟨?_, ?_, ?_⟩
  · intro rules normalized test hrules hfound hnormalized hsend
    exact spot_kept hexact hrules hfound hnormalized hsend
  · intro rules normalized hedgeMode test hrules hfound hnormalized hsend
    exact futures_kept hexact hrules hfound hnormalized hsend
  · intro request hbuilt hsend
    exact upbit_kept hexact hbuilt hsend

/-! ## Two intents -/

def filtersSample : Json := .arr [
  .obj [("filterType", .str "LOT_SIZE"), ("minQty", .str "0.001"), ("maxQty", .str "100"), ("stepSize", .str "0.001")],
  .obj [("filterType", .str "NOTIONAL"), ("minNotional", .str "5")]]

/-- An exchange that lists one symbol. -/
def Env.sample : Env where
  repr _ := "?"
  value name := if name = "UPBIT_BASE_URL" then "" else "key"
  exchangeInfo _ symbol := .ok [("ok", .bool true),
    ("json", .obj [("symbols", .arr [.obj [("symbol", .str symbol), ("filters", filtersSample)]])])]
  timestamp := 1

/-- A sale with a limit. -/
def saleSample : Fields :=
  [("symbol", .str "btcusdt"), ("side", .str "sell"), ("order_type", .str "limit"), ("quantity", .str "1.23456"),
    ("price", .str "50000.5"), ("identifier", .str "order-1")]

theorem exactIntent_sale : ExactIntent Env.sample saleSample := by
  intro key hkey
  simp only [numberKeys, List.mem_cons, List.not_mem_nil, or_false] at hkey
  rcases hkey with rfl | rfl | rfl | rfl | rfl | rfl
  · intro _
    exact ⟨⟨false, 123456, -5⟩, by decide +kernel, by decide +kernel⟩
  · intro h
    cases h
  · intro h
    cases h
  · intro _
    exact ⟨⟨false, 500005, -1⟩, by decide +kernel, by decide +kernel⟩
  · intro h
    cases h
  · intro h
    cases h

instance (rules : Rules) : Decidable rules.IsExact :=
  inferInstanceAs (Decidable (∀ d ∈ [rules.minQty, rules.maxQty, rules.stepSize, rules.minNotional], OnGrid 12 d.value))

theorem encoders_keep_orders_sample :
    (∃ rules normalized order, normalizeBinanceSpotIntent Env.sample saleSample = .ok normalized ∧
      readBinance (buildBinanceSpotOrderRequest Env.sample normalized false) = some order ∧ SpotKept Env.sample saleSample rules order) ∧
    (∃ rules normalized order, normalizeBinanceFuturesIntent Env.sample saleSample = .ok normalized ∧
      readBinance (buildBinanceFuturesOrderRequest Env.sample normalized true false) = some order ∧
      FuturesKept Env.sample saleSample rules order) ∧
    ∃ request order, buildUpbitOrderRequest Env.sample saleSample = .ok request ∧ readUpbit request = some order ∧
      UpbitKept Env.sample saleSample order := by
  obtain ⟨hspot, hfutures, hupbit⟩ := encoders_keep_orders Env.sample saleSample exactIntent_sale
  refine ⟨?_, ?_, ?_⟩
  · obtain ⟨rules, hfound, hrules⟩ : ∃ rules, binanceSymbolRules Env.sample "BTCUSDT" false "LIMIT" = .ok rules ∧ rules.IsExact := by
      decide +kernel
    obtain ⟨normalized, hnormalized, hsend⟩ : ∃ normalized, normalizeBinanceSpotIntent Env.sample saleSample = .ok normalized ∧
        (buildBinanceSpotOrderRequest Env.sample normalized false).canSend = true := by
      decide +kernel
    obtain ⟨order, hread, hkept⟩ := hspot rules normalized false hrules hfound hnormalized hsend
    exact ⟨rules, normalized, order, hnormalized, hread, hkept⟩
  · obtain ⟨rules, hfound, hrules⟩ : ∃ rules, binanceSymbolRules Env.sample "BTCUSDT" true "LIMIT" = .ok rules ∧ rules.IsExact := by
      decide +kernel
    obtain ⟨normalized, hnormalized, hsend⟩ : ∃ normalized, normalizeBinanceFuturesIntent Env.sample saleSample = .ok normalized ∧
        (buildBinanceFuturesOrderRequest Env.sample normalized true false).canSend = true := by
      decide +kernel
    obtain ⟨order, hread, hkept⟩ := hfutures rules normalized true false hrules hfound hnormalized hsend
    exact ⟨rules, normalized, order, hnormalized, hread, hkept⟩
  · obtain ⟨request, hbuilt, hsend⟩ : ∃ request, buildUpbitOrderRequest Env.sample saleSample = .ok request ∧
        request.canSend = true := by
      decide
    obtain ⟨order, hread, hkept⟩ := hupbit request hbuilt hsend
    exact ⟨request, order, hbuilt, hread, hkept⟩

/-- A market purchase with a quantity and an amount to spend. -/
def purchaseSample : Fields :=
  [("symbol", .str "BTCUSDT"), ("side", .str "BUY"), ("quantity", .str "1"), ("notional", .str "100")]

/-- **A market purchase that has a notional is no order of its quantity.** -/
theorem sample_spends_notional : ∃ normalized, normalizeBinanceSpotIntent Env.sample purchaseSample = .ok normalized ∧
    (buildBinanceSpotOrderRequest Env.sample normalized false).canSend = true ∧
    (readBinance (buildBinanceSpotOrderRequest Env.sample normalized false)).map Order.quantity = some none ∧
    (readBinance (buildBinanceSpotOrderRequest Env.sample normalized false)).map Order.quote = some (some 100) := by
  decide +kernel

end LiveTrader.OrderEncoding
