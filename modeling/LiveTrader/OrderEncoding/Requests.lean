/-
# `OrderEncoding.Requests` — requests for orders

An intent is a dictionary.  For Binance it is fitted to the rules of its symbol: a quantity is rounded down to the grid of the exchange, or
a market purchase keeps the amount it is to spend.

Decimals are exact, and a `float` is the number its text denotes.

The builders of Binance spot, Binance futures and Upbit, and what an exchange reads from their requests.  A request can be sent if nothing
blocks it.
-/
import LiveTrader.Lib.FixedText

namespace LiveTrader.OrderEncoding

open Lib Lib.Py Lib.Decimal

/-- What the encoders are given from outside. -/
structure Env where
  /-- `str` on a number with a point, on a list and on a dictionary. -/
  repr : Json → String
  /-- `env_value`. -/
  value : String → String
  /-- What `http_json` answers to a request for the rules of a symbol, at the futures or the spot exchange. -/
  exchangeInfo : Bool → String → Result Fields
  /-- `binance_timestamp_ms`. -/
  timestamp : ℤ

/-! ## Texts and numbers -/

/-- `str(value)`. -/
def Env.str (env : Env) : Json → String
  | .null => "None"
  | .bool b => if b then "True" else "False"
  | .int n => Int.repr n
  | .float q => if q = 0 then "0.0" else env.repr (.float q)
  | .str s => s
  | .arr items => if items.isEmpty then "[]" else env.repr (.arr items)
  | .obj fields => if fields.isEmpty then "\x7b\x7d" else env.repr (.obj fields)

section intents

variable (env : Env)

/-- `str(value or default)`. -/
def textOr (value : Json) (default : String) : String := env.str (value.orElse (.str default))

/-- `str(value or default).strip().upper()`. -/
def upperText (value : Json) (default : String) : String := upper (strip (textOr env value default))

/-- `text.removesuffix(".PERP").replace("-", "")`, of a text. -/
def plainSymbol (text : String) : String :=
  let kept := if ".PERP".toList.isSuffixOf text.toList then text.toList.take (text.toList.length - ".PERP".toList.length) else text.toList
  String.ofList (kept.filter (· ≠ '-'))

/-- The spelling of a symbol under which its rules are listed. -/
def listedSymbol (symbol : String) : String := plainSymbol (upper (strip symbol))

/-- The number that a text denotes; zero where it is none. -/
def numberOf (text : String) : ℚ :=
  match decimal? text with
  | some (.finite d) => d.value
  | _ => 0

/-- `_decimal_or_zero`. -/
def decimalOrZero (value : Json) : ℚ := numberOf (textOr env value "0")

/-- `normalize_price`. -/
def normalizePrice (value : Json) : ℚ := numberOf (uncommaed (env.str value))

/-- `normalize_decimal_text`. -/
def normalizeDecimalText (value : Json) : String := shortText 12 (normalizePrice env value)

/-- The texts of a sale. -/
def sellTexts : List String := ["SELL", "S", "ASK", "매도"]

/-- `normalize_side`. -/
def normalizeSide (value : Json) : String := if upperText env value "BUY" ∈ sellTexts then "SELL" else "BUY"

/-! ## `binance_symbol_rules` -/

/-- The rules are complete. -/
def Accepted (minQty maxQty stepSize minNotional : Dec) : Prop :=
  (0 ≤ minQty.value ∧ 0 ≤ maxQty.value ∧ 0 ≤ stepSize.value ∧ 0 ≤ minNotional.value) ∧
    0 < stepSize.value ∧ 0 < maxQty.value ∧ minQty.value ≤ maxQty.value

instance (minQty maxQty stepSize minNotional : Dec) : Decidable (Accepted minQty maxQty stepSize minNotional) :=
  inferInstanceAs (Decidable (_ ∧ _))

/-- The rules of a symbol. -/
structure Rules where
  minQty : Dec
  maxQty : Dec
  stepSize : Dec
  minNotional : Dec
  accepted : Accepted minQty maxQty stepSize minNotional

/-- Rules that are complete. -/
def rulesOf : DecimalNumber → DecimalNumber → DecimalNumber → DecimalNumber → Option Rules
  | .finite minQty, .finite maxQty, .finite stepSize, .finite minNotional =>
    if accepted : Accepted minQty maxQty stepSize minNotional then some { minQty, maxQty, stepSize, minNotional, accepted } else none
  | _, _, _, _ => none

/-- A filter under its type. -/
def addFilter (rows : Dict String Fields) (item : Json) : Dict String Fields :=
  match item with
  | .obj row => rows.set (textOr env (Fields.at row "filterType") "") row
  | _ => rows

/-- `by_type`. -/
def byType (filters : List Json) : Dict String Fields := filters.foldl (addFilter env) []

/-- `by_type.get(key) or other`. -/
def rowOr (rows : Dict String Fields) (key : String) (other : Fields) : Fields :=
  match rows.lookup key with
  | some row => if row.isEmpty then other else row
  | none => other

/-- `standard_lot`. -/
def standardLot (rows : Dict String Fields) : Fields := rowOr rows "LOT_SIZE" []

def lotOf (rows : Dict String Fields) (orderType : String) : Fields :=
  if orderType = "MARKET" then rowOr rows "MARKET_LOT_SIZE" (standardLot rows) else standardLot rows

/-- `Decimal(str(value or "0"))`. -/
def decimalNumber (value : Json) : Result DecimalNumber := orRaise .invalidOperation (decimal? (textOr env value "0"))

/-- A number that is finite and not negative. -/
def isAmount : DecimalNumber → Bool
  | .finite d => 0 ≤ d.value
  | .special => false

def isZero : DecimalNumber → Bool
  | .finite d => d.value = 0
  | .special => false

/-- The step of a lot, or else that of the standard lot. -/
def stepOf (rows : Dict String Fields) (symbol orderType : String) : Result DecimalNumber := do
  let step ← decimalNumber env ((lotOf rows orderType).at "stepSize")
  require (isAmount step = true) (.runtime ("Binance " ++ symbol ++ " 수량 간격이 유효하지 않습니다."))
  if isZero step then decimalNumber env ((standardLot rows).at "stepSize") else pure step

/-- `notional.get("minNotional", notional.get("notional", "0"))`. -/
def minNotionalOf (rows : Dict String Fields) : Json :=
  let notional := rowOr rows "NOTIONAL" (rowOr rows "MIN_NOTIONAL" [])
  (notional.lookup "minNotional").getD ((notional.lookup "notional").getD (.str "0"))

/-- The rules that filters make up. -/
def filterRules (filters : List Json) (symbol orderType : String) : Result Rules := do
  let rows := byType env filters
  let step ← stepOf env rows symbol orderType
  let minQty ← decimalNumber env ((lotOf rows orderType).at "minQty")
  let maxQty ← decimalNumber env ((lotOf rows orderType).at "maxQty")
  let minNotional ← decimalNumber env (minNotionalOf rows)
  orRaise (.runtime ("Binance " ++ symbol ++ " 거래 규칙이 불완전합니다.")) (rulesOf minQty maxQty step minNotional)

/-- A row of the symbol. -/
def isRowOf (symbol : String) : Json → Bool
  | .obj row => (Fields.at row "symbol").eq (.str symbol)
  | _ => false

/-- The only row of the symbol. -/
def exactRow (response : Fields) (symbol : String) : Option Fields :=
  let payload := (response.at "json").fields?.getD []
  match ((payload.at "symbols").items?.getD []).filter (isRowOf symbol) with
  | [.obj row] => if (response.at "ok").isTrue then some row else none
  | _ => none

/-- `binance_symbol_rules`. -/
def binanceSymbolRules (symbol : String) (futures : Bool) (orderType : String) : Result Rules := do
  let normalized := listedSymbol symbol
  require (normalized ≠ "") (.runtime "Binance symbol이 비어 있습니다.")
  require (upper orderType ∈ ["LIMIT", "MARKET"]) (.runtime "Binance 거래 규칙에는 정확한 MARKET/LIMIT 유형이 필요합니다.")
  let response ← env.exchangeInfo futures normalized
  let row ← orRaise (.runtime ("Binance " ++ normalized ++ " 정확한 거래 규칙 조회 실패")) (exactRow response normalized)
  filterRules env ((row.at "filters").items?.getD []) normalized (upper orderType)

/-! ## Fitted quantities -/

/-- `intent.get("quantity") or intent.get("qty")`. -/
def quantityValue (intent : Fields) : Json := (intent.at "quantity").orElse (intent.at "qty")

/-- A quantity, rounded down to the grid of the rules from an anchor on. -/
def fitted (rules : Rules) (anchor quantity : ℚ) : ℚ :=
  truncZ ((quantity - anchor) / rules.stepSize.value) * rules.stepSize.value + anchor

/-- What is ordered keeps the bounds of the rules; an order that reduces a position may be small. -/
def checkSize (name : String) (rules : Rules) (quantity price : ℚ) (reducing : Bool) : Result Unit := do
  require (¬(quantity ≤ 0 ∨ 0 < rules.minQty.value ∧ quantity < rules.minQty.value))
    (.runtime (name ++ " 주문 수량이 최소 수량보다 작습니다."))
  require (¬(0 < rules.maxQty.value ∧ rules.maxQty.value < quantity)) (.runtime (name ++ " 주문 수량이 최대 수량을 초과합니다."))
  require (¬(0 < rules.minNotional.value ∧ 0 < price ∧ quantity * price < rules.minNotional.value ∧ reducing = false))
    (.runtime (name ++ " 최소 주문금액 " ++ rules.minNotional.str ++ " USDT 미만입니다."))

/-! ## `normalize_binance_spot_intent` -/

/-- A market purchase keeps the amount it is to spend. -/
def quotedIntent (intent : Fields) (symbol : String) (rules : Rules) (notional : ℚ) : Result Fields := do
  require (¬(0 < rules.minNotional.value ∧ notional < rules.minNotional.value))
    (.runtime ("Binance " ++ symbol ++ " 최소 주문금액 " ++ rules.minNotional.str ++ " USDT 미만입니다."))
  pure (intent.put "quote_order_qty" (.str (shortText 12 notional)))

def sizedIntent (intent : Fields) (symbol : String) (rules : Rules) : Result Fields := do
  let wanted := decimalOrZero env (quantityValue intent)
  let quantity := if 0 < rules.stepSize.value then fitted rules 0 wanted else wanted
  checkSize ("Binance " ++ symbol) rules quantity (decimalOrZero env (intent.at "price")) false
  pure ((intent.put "quantity" (.str (shortText 12 quantity))).put "qty" (.str (shortText 12 quantity)))

def normalizeBinanceSpotIntent (intent : Fields) : Result Fields := do
  let symbol := upperText env (intent.at "symbol") ""
  let side := normalizeSide env (intent.at "side")
  let orderType := upperText env (intent.at "order_type") "MARKET"
  let rules ← binanceSymbolRules env symbol false orderType
  let notional := decimalOrZero env (intent.at "notional")
  if orderType = "MARKET" ∧ side = "BUY" ∧ 0 < notional then quotedIntent intent symbol rules notional
  else sizedIntent env intent symbol rules

/-! ## `normalize_binance_futures_intent` -/

/-- `intent.get("risk_reducing") is True or intent.get("reduce_only") is True`. -/
def isReducing (intent : Fields) : Bool := (intent.at "risk_reducing").isTrue || (intent.at "reduce_only").isTrue

/-- The direction of the position an intent is about. -/
def positionDirection (intent : Fields) : String :=
  if lower (strip (textOr env ((intent.at "position_direction").orElse (intent.at "positionDirection")) "")) = "short" then "SHORT"
  else "LONG"

/-- The symbol of a futures intent. -/
def futuresSymbol (intent : Fields) : String := listedSymbol (textOr env (intent.at "symbol") "")

/-- What a futures intent is updated with. -/
def futuresUpdates (intent : Fields) (orderType : String) (quantity : ℚ) : Fields :=
  [("symbol", .str (futuresSymbol env intent)), ("side", .str (normalizeSide env (intent.at "side"))), ("order_type", .str orderType),
    ("quantity", .str (shortText 12 quantity)), ("qty", .str (shortText 12 quantity)),
    ("position_direction", .str (lower (positionDirection env intent))), ("risk_reducing", .bool (isReducing intent))]

def normalizeBinanceFuturesIntent (intent : Fields) : Result Fields := do
  let symbol := futuresSymbol env intent
  let orderType := upperText env (intent.at "order_type") "MARKET"
  require (orderType ∈ ["MARKET", "LIMIT"]) (.runtime "Binance Futures 자동 주문은 MARKET/LIMIT만 허용합니다.")
  let rules ← binanceSymbolRules env symbol true orderType
  let wanted := decimalOrZero env (quantityValue intent)
  let quantity := if 0 < rules.stepSize.value ∧ rules.minQty.value ≤ wanted then fitted rules rules.minQty.value wanted else wanted
  checkSize ("Binance Futures " ++ symbol) rules quantity (decimalOrZero env (intent.at "price")) (isReducing intent)
  pure ((futuresUpdates env intent orderType quantity).foldl (fun fields entry => fields.put entry.1 entry.2) intent)

end intents

open Lib Lib.Py

/-! ## Requests for orders -/

structure PreparedRequest where
  provider : String
  method : String
  endpoint : String
  body : Option Fields
  query : Option Fields
  blockedReasons : List String

/-- `can_send`. -/
def PreparedRequest.canSend (request : PreparedRequest) : Bool := request.blockedReasons.isEmpty

section requests

variable (env : Env)

/-- `missing_env`. -/
def missingEnv (names : List String) : List String := names.filter fun name => env.value name = ""

/-- An entry of a dictionary, if its condition holds. -/
def entry (condition : Prop) [Decidable condition] (key : String) (value : Json) : Fields := if condition then [(key, value)] else []

/-- `str(intent.get("identifier") or intent.get("new_client_order_id") or "").strip()`. -/
def identifierOf (intent : Fields) : String := strip (textOr env ((intent.at "identifier").orElse (intent.at "new_client_order_id")) "")

/-- `normalize_decimal_text(intent.get("quantity") or intent.get("qty") or 0)`. -/
def quantityText (intent : Fields) : String := normalizeDecimalText env ((quantityValue intent).orElse (.int 0))

/-- `normalize_decimal_text(intent.get("price") or 0)`. -/
def priceText (intent : Fields) : String := normalizeDecimalText env ((intent.at "price").orElse (.int 0))

/-- The signature of a query, as it is shown. -/
def signature : Fields := [("signature", .str (if env.value "BINANCE_API_SECRET" = "" then "" else "***"))]

/-! ## `build_binance_spot_order_request` -/

/-- A character of `[A-Za-z0-9_-]`. -/
def isIdentifierChar (c : Char) : Bool :=
  ('A' ≤ c && c ≤ 'Z') || ('a' ≤ c && c ≤ 'z') || ('0' ≤ c && c ≤ '9') || c = '_' || c = '-'

/-- `re.fullmatch(r"[A-Za-z0-9_-]{1,36}", text)`. -/
def isClientOrderId (text : String) : Bool :=
  1 ≤ text.toList.length && text.toList.length ≤ 36 && text.toList.all isIdentifierChar

/-- The amount that a purchase of an intent is to spend. -/
def quoteValue (intent : Fields) (side : String) : Json :=
  ((intent.at "quote_order_qty").orElse (intent.at "quoteOrderQty")).orElse
    (if side = "BUY" ∧ upperText env (intent.at "order_type") "MARKET" = "MARKET" then intent.at "notional" else .int 0)

/-- `quote_order_quantity`. -/
def quoteText (intent : Fields) (side : String) : String := normalizeDecimalText env (quoteValue env intent side)

/-- `uses_quote_order_quantity`. -/
def usesQuote (intent : Fields) : Prop :=
  upperText env (intent.at "order_type") "MARKET" = "MARKET" ∧ normalizeSide env (intent.at "side") = "BUY" ∧
    0 < numberOf (quoteText env intent (normalizeSide env (intent.at "side")))

instance (intent : Fields) : Decidable (usesQuote env intent) := inferInstanceAs (Decidable (_ ∧ _))

/-- The query of a spot order. -/
def spotQuery (intent : Fields) : Fields :=
  let side := normalizeSide env (intent.at "side")
  let orderType := upperText env (intent.at "order_type") "MARKET"
  let identifier := identifierOf env intent
  [("symbol", .str (upperText env (intent.at "symbol") "")), ("side", .str side), ("type", .str orderType)] ++
    entry (usesQuote env intent) "quoteOrderQty" (.str (quoteText env intent side)) ++
    entry (¬usesQuote env intent) "quantity" (.str (quantityText env intent)) ++
    entry (identifier ≠ "" ∧ isClientOrderId identifier = true) "newClientOrderId" (.str identifier) ++
    [("timestamp", .int env.timestamp)] ++
    entry (orderType = "LIMIT") "timeInForce" (.str (textOr env (intent.at "time_in_force") "GTC")) ++
    entry (orderType = "LIMIT") "price" (.str (priceText env intent)) ++ signature env

def buildBinanceSpotOrderRequest (intent : Fields) (test : Bool) : PreparedRequest where
  provider := "binance"
  method := "POST"
  endpoint := if test then "/api/v3/order/test" else "/api/v3/order"
  body := none
  query := some (spotQuery env intent)
  blockedReasons := missingEnv env ["BINANCE_API_KEY", "BINANCE_API_SECRET"] ++
    blocker (identifierOf env intent ≠ "" ∧ isClientOrderId (identifierOf env intent) = false) "newClientOrderId" ++
    blocker (upperText env (intent.at "symbol") "" = "") "symbol" ++
    blocker (¬usesQuote env intent ∧ numberOf (quantityText env intent) ≤ 0) "quantity"

/-! ## `build_binance_futures_order_request` -/

/-- The query of a futures order. -/
def futuresQuery (intent : Fields) (hedgeMode : Bool) : Fields :=
  let orderType := upperText env (intent.at "order_type") "MARKET"
  let identifier := identifierOf env intent
  [("symbol", .str (futuresSymbol env intent)), ("side", .str (normalizeSide env (intent.at "side"))), ("type", .str orderType),
      ("quantity", .str (quantityText env intent)),
      ("positionSide", .str (if hedgeMode then positionDirection env intent else "BOTH"))] ++
    entry (hedgeMode = false ∧ isReducing intent = true) "reduceOnly" (.str "true") ++
    entry (identifier ≠ "") "newClientOrderId" (.str (String.ofList (identifier.toList.take 36))) ++
    entry (orderType = "LIMIT") "timeInForce" (.str (upperText env (intent.at "time_in_force") "GTC")) ++
    entry (orderType = "LIMIT") "price" (.str (priceText env intent)) ++ [("timestamp", .int env.timestamp)] ++ signature env

def buildBinanceFuturesOrderRequest (intent : Fields) (hedgeMode test : Bool) : PreparedRequest where
  provider := "binance-futures"
  method := "POST"
  endpoint := if test then "/fapi/v1/order/test" else "/fapi/v1/order"
  body := none
  query := some (futuresQuery env intent hedgeMode)
  blockedReasons := (missingEnv env ["BINANCE_API_KEY", "BINANCE_API_SECRET"] ++ blocker (futuresSymbol env intent = "") "symbol" ++
    blocker (numberOf (quantityText env intent) ≤ 0) "quantity" ++
    blocker (upperText env (intent.at "order_type") "MARKET" ∉ ["MARKET", "LIMIT"]) "order_type" ++
    blocker (upperText env (intent.at "order_type") "MARKET" = "LIMIT" ∧ numberOf (priceText env intent) ≤ 0) "price").eraseDups

/-! ## `build_upbit_order_request` -/

/-- The price of an order at Upbit; one of type `price` spends it. -/
def upbitAmounts (intent : Fields) (ordType : String) : Fields :=
  if ordType = "price" then
    [("price", .str (normalizeDecimalText env (((intent.at "price").orElse (intent.at "notional")).orElse (.int 0))))]
  else [("volume", .str (quantityText env intent))] ++ entry (ordType = "limit") "price" (.str (priceText env intent))

/-- `str(intent.get("order_type") or "limit").strip().lower()`. -/
def upbitType (intent : Fields) : String := lower (strip (textOr env (intent.at "order_type") "limit"))

/-- `str(intent.get("market") or intent.get("symbol") or "").strip().upper()`. -/
def upbitMarket (intent : Fields) : String := upperText env ((intent.at "market").orElse (intent.at "symbol")) ""

/-- `str(intent.get("identifier") or "").strip()`. -/
def upbitIdentifier (intent : Fields) : String := strip (textOr env (intent.at "identifier") "")

/-- `_official_upbit_mutation_base_url`. -/
def officialUpbitMutationBaseUrl : Result Unit :=
  require (strip (orElse (env.value "UPBIT_BASE_URL") "https://api.upbit.com") = "https://api.upbit.com")
    (.runtime "ordinary Upbit mutation origin must be exact official production URL")

/-- The body of an order at Upbit. -/
def upbitBody (intent : Fields) : Fields :=
  let identifier := upbitIdentifier env intent
  [("market", .str (upbitMarket env intent)), ("side", .str (if normalizeSide env (intent.at "side") = "BUY" then "bid" else "ask")),
      ("ord_type", .str (upbitType env intent))] ++
    entry (identifier ≠ "") "identifier" (.str identifier) ++ upbitAmounts env intent (upbitType env intent)

def buildUpbitOrderRequest (intent : Fields) : Result PreparedRequest := do
  officialUpbitMutationBaseUrl env
  pure
    { provider := "upbit"
      method := "POST"
      endpoint := "/v1/orders"
      body := some (upbitBody env intent)
      query := none
      blockedReasons := missingEnv env ["UPBIT_ACCESS_KEY", "UPBIT_SECRET_KEY"] ++ blocker (upbitMarket env intent = "") "market" }

end requests

/-! ## What an exchange reads -/

/-- An order as an exchange reads it. -/
structure Order where
  symbol : String
  side : String
  orderType : String
  quantity : Option ℚ
  /-- The amount that a purchase spends. -/
  quote : Option ℚ
  price : Option ℚ
  clientOrderId : Option String
  deriving DecidableEq

/-- A text under a key. -/
def textAt (fields : Fields) (key : String) : Option String :=
  match fields.lookup key with
  | some (.str text) => some text
  | _ => none

/-- The value of a finite number. -/
def finiteValue : DecimalNumber → Option ℚ
  | .finite d => some d.value
  | .special => none

/-- A number under a key. -/
def numberAt (fields : Fields) (key : String) : Option ℚ := ((textAt fields key).bind decimal?).bind finiteValue

/-- What Binance reads. -/
def readBinance (request : PreparedRequest) : Option Order := do
  let query ← request.query
  let symbol ← textAt query "symbol"
  let side ← textAt query "side"
  let orderType ← textAt query "type"
  some ⟨symbol, side, orderType, numberAt query "quantity", numberAt query "quoteOrderQty", numberAt query "price",
    textAt query "newClientOrderId"⟩

/-- The side of a bid or an ask. -/
def upbitSide : String → Option String
  | "bid" => some "BUY"
  | "ask" => some "SELL"
  | _ => none

/-- What Upbit reads. -/
def readUpbit (request : PreparedRequest) : Option Order := do
  let body ← request.body
  let symbol ← textAt body "market"
  let side ← (textAt body "side").bind upbitSide
  let orderType ← textAt body "ord_type"
  some ⟨symbol, side, orderType, numberAt body "volume", if orderType = "price" then numberAt body "price" else none,
    if orderType = "price" then none else numberAt body "price", textAt body "identifier"⟩

end LiveTrader.OrderEncoding
