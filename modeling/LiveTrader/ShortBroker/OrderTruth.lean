/-
# `ShortBroker.OrderTruth` — the exact read of an order

`get_order` reads one order of an exchange and joins it with its trades: the quantity, the price and the commissions are those of the trades.
Whatever does not agree makes the answer unknown.  Decimals are computed in the context of 28 digits.  A read of the exchange is an answer;
those of Binance are counted within a call, as a later one may say something else.
-/
import LiveTrader.ShortBroker.Sizing

namespace LiveTrader.ShortBroker.OrderTruth

open Lib Lib.Py Lib.Decimal

/-! ## Texts -/

/-- `re.fullmatch(r"[1-9][0-9]*", text)`. -/
def isPositiveId (text : String) : Bool :=
  match text.toList with
  | [] => false
  | c :: cs => ('1' ≤ c && c ≤ '9') && cs.all fun d => '0' ≤ d && d ≤ '9'

/-- `re.fullmatch(r"[.A-Z:/a-z0-9_-]{1,36}", text)`. -/
def isClientId (text : String) : Bool :=
  1 ≤ text.toList.length && text.toList.length ≤ 36 &&
    text.toList.all fun c => ('A' ≤ c && c ≤ 'Z') || ('a' ≤ c && c ≤ 'z') || ('0' ≤ c && c ≤ '9') || c ∈ ['.', ':', '/', '_', '-']

/-- The functions of the language. -/
structure TextEnv extends Env where
  /-- `text.isdigit()`. -/
  isdigit : String → Bool
  /-- An empty value is no order id. -/
  repr_empty : ∀ {value : Json}, value.truthy = false → isPositiveId (repr value) = false

section read

variable (env : TextEnv)

/-- `str(value or "")`. -/
def textOf (value : Json) : String := env.str (value.orElse (.str ""))

/-- `text.removesuffix(suffix)`. -/
def withoutSuffix (suffix text : String) : String :=
  if suffix.toList.isSuffixOf text.toList then String.ofList (text.toList.take (text.toList.length - suffix.toList.length)) else text

/-- The asset that is traded. -/
def baseAsset (symbol : String) : String := withoutSuffix "USDT" symbol

/-! ## A row -/

/-- A number, as a row says it or as it is computed. -/
inductive Amount where
  | said (value : Json)
  | computed (value : ℚ)

/-- What is known of an order. -/
structure Known where
  symbol : String
  brokerOrderId : String
  clientOrderId : String
  status : String
  side : String
  /-- Not a key where it is `null`. -/
  positionSide : Json
  quantity : Option ℚ
  filledQuantity : Amount
  remainingQuantity : Amount
  fillPrice : Amount
  feeNative : Amount
  baseCommissionQuantity : ℚ
  externalCommissionQuantities : Dict String ℚ
  externalCommissionNative : Dict String ℚ

/-- The three exchanges with rows of their own. -/
inductive Provider where
  | binance
  | binanceFutures
  | upbit
  deriving DecidableEq

/-- `provider in {"binance", "binance-futures"}`. -/
def Provider.isBinance : Provider → Bool
  | .upbit => false
  | _ => true

/-- `BUY` for a bid, `SELL` for an ask. -/
def sideOf (row : Fields) : String :=
  let side := upper (textOf env (row.at "side"))
  if side = "BID" then "BUY" else if side = "ASK" then "SELL" else side

/-- The quantity of a row, if it has one. -/
def quantityOf (row : Fields) (provider : Provider) (filled : ℚ) : Result (Option ℚ) :=
  match row.at (if provider.isBinance then "origQty" else "volume") with
  | .null => pure none
  | value => do
    let quantity ← positiveNumber env.toEnv value
    require (0 ≤ filled ∧ filled ≤ quantity) (blocked "ORDER_TRUTH_QUANTITY_INVALID")
    pure (some quantity)

/-- What remains of it. -/
def remainingOf (row : Fields) (provider : Provider) (quantity : Option ℚ) (filled : ℚ) : Result Amount :=
  match if provider.isBinance then quantity else none with
  | some quantity => pure (.computed (ctx 28 (quantity - filled)))
  | none =>
    match row.at "remaining_volume" with
    | .null => pure (.said .null)
    | value => do
      let remaining ← number env.toEnv value
      pure (.computed remaining)

/-- `_order`, with the quantity that was filled. -/
def orderOf (row : Fields) (provider : Provider) : Result (Known × ℚ) := do
  let filled ← number env.toEnv (executedOf row)
  let quantity ← quantityOf env row provider filled
  let remaining ← remainingOf env row provider quantity filled
  pure ({
    symbol := textOf env ((row.at "symbol").orElse (row.at "market"))
    brokerOrderId := textOf env ((row.at "orderId").orElse (row.at "uuid"))
    clientOrderId := textOf env ((row.at "clientOrderId").orElse (row.at "identifier"))
    status := upper (env.str ((row.at "status").orElse ((row.at "state").orElse (.str "UNKNOWN"))))
    side := sideOf env row
    positionSide := if provider = .binanceFutures then row.at "positionSide" else .null
    quantity := quantity
    filledQuantity := .computed filled
    remainingQuantity := remaining
    fillPrice := .said (.str (env.str ((row.at "avgPrice").orElse ((row.at "price").orElse (.str "0")))))
    feeNative := .said (row.at "paid_fee")
    baseCommissionQuantity := 0
    externalCommissionQuantities := []
    externalCommissionNative := [] }, filled)

/-! ## Reads -/

/-- What the readers answer. -/
structure World where
  /-- `self._binance`, at each of its calls. -/
  binance : ℕ → String → Fields → Result Json
  /-- `self._upbit("/v1/order", …)`. -/
  upbit : Fields → Result Json
  /-- The orders of the day, and the ambiguous ids. -/
  kis : Result (List Fields × List Json)

variable (world : World)

/-- `/fapi/v1/order` or `/api/v3/order`. -/
def orderPath (provider : Provider) : String := if provider = .binanceFutures then "/fapi/v1/order" else "/api/v3/order"

/-! ## Commissions -/

/-- What was paid so far. -/
structure Fees where
  native : ℚ
  base : ℚ
  quantities : Dict String ℚ
  natives : Dict String ℚ

/-- A sum that goes on. -/
def addTo (totals : Dict String ℚ) (asset : String) (amount : ℚ) : Dict String ℚ :=
  totals.set asset (ctx 28 (totals.get asset 0 + amount))

/-- The quote of an asset. -/
def rateOf (n : ℕ) (asset : String) : Result ℚ := do
  let ticker ← world.binance n "/api/v3/ticker/price" [("symbol", .str (asset ++ "USDT"))]
  let ticker ← ticker.fields
  require ((ticker.at "symbol").eq (.str (asset ++ "USDT")) = true) (blocked "COMMISSION_CONVERSION_SYMBOL_MISMATCH")
  positiveNumber env.toEnv (ticker.at "price")

/-- The commission in the asset that is traded. -/
def Fees.addBase (fees : Fees) (futures : Bool) (symbol asset : String) (fee : ℚ) : Fees :=
  if futures = false ∧ asset = baseAsset symbol then { fees with base := ctx 28 (fees.base + fee) } else fees

/-- The commission in another asset, converted. -/
def Fees.addOther (fees : Fees) (futures : Bool) (symbol asset : String) (fee converted : ℚ) : Fees :=
  if futures = false ∧ asset ≠ baseAsset symbol then
    { fees with
      native := ctx 28 (fees.native + converted)
      quantities := addTo fees.quantities asset fee
      natives := addTo fees.natives asset converted }
  else { fees with native := ctx 28 (fees.native + converted) }

/-- The commission of one trade, and the next call of the exchange. -/
def addFee (futures : Bool) (symbol : String) (n : ℕ) (fees : Fees) (row : Fields) : Result (ℕ × Fees) := do
  let fee ← number env.toEnv (row.at "commission")
  let asset := textOf env (row.at "commissionAsset")
  require (0 ≤ fee ∧ (fee ≠ 0 → asset ≠ "")) (blocked "OWNED_TRADE_COMMISSION_INVALID")
  if asset = "USDT" then
    pure (n, { fees.addBase futures symbol asset fee with native := ctx 28 (fees.native + fee) })
  else if fee = 0 then pure (n, fees.addBase futures symbol asset fee)
  else do
    let rate ← rateOf env world n asset
    pure (n + 1, (fees.addBase futures symbol asset fee).addOther futures symbol asset fee (ctx 28 (fee * rate)))

/-- The commissions of the trades. -/
def addFees (futures : Bool) (symbol : String) : ℕ → Fees → List Fields → Result Fees
  | _, fees, [] => pure fees
  | n, fees, row :: rows => do
    let next ← addFee env world futures symbol n fees row
    addFees futures symbol next.1 next.2 rows

/-! ## Trades -/

/-- The trades of the order. -/
def ownTrades (symbol orderId : String) (trades : List Fields) : List Fields :=
  trades.filter fun row => env.str (row.at "orderId") = orderId && (row.at "symbol").eq (.str symbol)

/-- A trade has an id. -/
def hasTradeId (row : Fields) : Bool :=
  match row.at "id" with
  | .bool _ => false
  | value => env.isdigit (env.str value)

/-- The ids are there, and no two are the same. -/
def TradeIds (rows : List Fields) : Prop :=
  (∀ row ∈ rows, hasTradeId env row = true) ∧ (rows.map fun row => env.str (row.at "id")).Nodup

instance (rows : List Fields) : Decidable (TradeIds env rows) := inferInstanceAs (Decidable (_ ∧ _))

/-- The quantity and the price of a trade. -/
def lotOf (row : Fields) : Result (ℚ × ℚ) := do
  let quantity ← positiveNumber env.toEnv (row.at "qty")
  let price ← positiveNumber env.toEnv (row.at "price")
  pure (quantity, price)

/-- `/userTrades` or `/myTrades`. -/
def tradesPath (provider : Provider) : String := if provider = .binanceFutures then "/fapi/v1/userTrades" else "/api/v3/myTrades"

/-- The trades of a filled order, joined with its row. -/
def joinTrades (provider : Provider) (symbol orderId : String) (known : Known) (filled : ℚ) : Result Known := do
  let trades ← world.binance 1 (tradesPath provider)
    [("symbol", .str symbol), ("orderId", .str orderId), ("limit", .int 1000)]
  let trades ← orRaise (blocked "OWNED_TRADES_INCOMPLETE") trades.items?
  require (trades.length < 1000) (blocked "OWNED_TRADES_INCOMPLETE")
  let trades ← trades.mapM Json.fields
  let selected := ownTrades env symbol orderId trades
  require (TradeIds env selected) (blocked "OWNED_TRADE_IDENTITY_CONFLICT")
  let lots ← selected.mapM (lotOf env)
  require (ctxSum 28 (lots.map Prod.fst) = filled) (blocked "OWNED_TRADE_QUANTITY_MISMATCH")
  let fees ← addFees env world (provider = .binanceFutures) symbol 2 ⟨0, 0, [], []⟩ selected
  pure { known with
    fillPrice := .computed (ctx 28 (ctxSum 28 (lots.map fun lot => ctx 28 (lot.1 * lot.2)) / filled))
    feeNative := .computed fees.native
    baseCommissionQuantity := fees.base
    externalCommissionQuantities := fees.quantities
    externalCommissionNative := fees.natives }

/-! ## `get_order` -/

/-- A field of the claim that is given is that of the order. -/
def AgreesWith (claimed found : Json) : Prop := isSome claimed = true → claimed.eq found = true

instance (claimed found : Json) : Decidable (AgreesWith claimed found) := inferInstanceAs (Decidable (_ → _))

/-- A reservation without a broker id is that of an order whose reply was lost. -/
def lostQuery (claim : Fields) (symbol : String) : Result Fields := do
  let client := textOf env (claim.at "clientOrderId")
  let side ← (claim.at "side").isOneOf ["BUY", "SELL"]
  let position ← (claim.at "positionSide").isOneOf ["BOTH", "LONG", "SHORT"]
  require ((claim.at "status").eq (.str "UNKNOWN") = true ∧ isClientId client = true ∧ side = true ∧ position = true)
    (blocked "EXACT_UNKNOWN_RESERVATION_REQUIRED")
  let _ ← positiveNumber env.toEnv (claim.at "quantity")
  pure [("symbol", .str symbol), ("origClientOrderId", .str client)]

/-- What the order is asked for by. -/
def orderQuery (claim : Fields) (symbol orderId : String) : Result Fields :=
  if orderId ≠ "" then pure [("symbol", .str symbol), ("orderId", .str orderId)] else lostQuery env claim symbol

/-- `claim.get("actualClientOrderId")` of an execution that was reported, or `claim.get("clientOrderId")`. -/
def expectedClient (claim : Fields) : Json :=
  if (claim.at "externalExecution").isTrue then claim.at "actualClientOrderId" else claim.at "clientOrderId"

/-- The quantity of the claim of a future is that of the order. -/
def checkQuantity (provider : Provider) (claim : Fields) (quantity : Option ℚ) : Result Unit :=
  if provider = .binanceFutures ∧ isSome (claim.at "quantity") = true then do
    let claimed ← positiveNumber env.toEnv (claim.at "quantity")
    require (quantity = some claimed) (blocked "ORDER_TRUTH_QUANTITY_MISMATCH")
  else pure ()

/-- `isinstance(value, bool)`. -/
def isBool : Json → Bool
  | .bool _ => true
  | _ => false

/-- The row of an order of Binance is that of the claim. -/
def checkClaim (provider : Provider) (claim : Fields) (known : Known) : Result Unit := do
  require (AgreesWith (claim.at "side") (.str known.side) ∧ AgreesWith (claim.at "positionSide") known.positionSide)
    (blocked "ORDER_TRUTH_SIDE_MISMATCH")
  require ((expectedClient claim).truthy = true → (expectedClient claim).eq (.str known.clientOrderId) = true)
    (blocked "ORDER_TRUTH_CLIENT_ID_MISMATCH")
  checkQuantity env provider claim known.quantity

/-- An order of Binance. -/
def binanceOrder (provider : Provider) (claim : Fields) (symbol orderId : String) : Result Known := do
  let query ← orderQuery env claim symbol orderId
  let raw ← world.binance 0 (orderPath provider) query
  let raw ← orRaise (blocked "ORDER_TRUTH_ID_MISMATCH") raw.fields?
  require ((raw.at "symbol").eq (.str symbol) = true ∧ (orderId ≠ "" → env.str (raw.at "orderId") = orderId) ∧
    isBool (raw.at "orderId") = false ∧ isPositiveId (env.str (raw.at "orderId")) = true) (blocked "ORDER_TRUTH_ID_MISMATCH")
  let order ← orderOf env raw provider
  checkClaim env provider claim order.1
  if order.2 = 0 then pure order.1 else joinTrades env world provider symbol (env.str (raw.at "orderId")) order.1 order.2

/-- The trades of a filled order of Upbit, which are in its row. -/
def joinFunds (raw : Fields) (known : Known) (filled : ℚ) : Result Known := do
  let trades ← orRaise (blocked "OWNED_TRADES_INCOMPLETE") (raw.at "trades").items?
  let trades ← trades.mapM Json.fields
  let volumes ← trades.mapM fun row => number env.toEnv (row.at "volume")
  require (ctxSum 28 volumes = filled) (blocked "OWNED_TRADES_INCOMPLETE")
  let funds ← trades.mapM fun row => number env.toEnv (row.at "funds")
  pure { known with fillPrice := .computed (ctx 28 (ctxSum 28 funds / filled)) }

/-- A row that is not filled is taken as it is. -/
def joinIfFilled (raw : Fields) (order : Known × ℚ) : Result Known :=
  if order.2 = 0 then pure order.1 else joinFunds env raw order.1 order.2

/-- `FILLED` for `DONE`, `CANCELED` for `CANCEL`. -/
def upbitStatus (status : String) : String :=
  if status = "DONE" then "FILLED" else if status = "CANCEL" then "CANCELED" else status

/-- An order of Upbit. -/
def upbitOrder (symbol orderId : String) : Result Known := do
  let raw ← world.upbit [("uuid", .str orderId)]
  let raw ← orRaise (blocked "ORDER_TRUTH_ID_MISMATCH") raw.fields?
  require (env.str (raw.at "uuid") = orderId ∧ (raw.at "market").eq (.str symbol) = true) (blocked "ORDER_TRUTH_ID_MISMATCH")
  let order ← orderOf env raw .upbit
  let known ← joinIfFilled env raw order
  pure { known with status := upbitStatus known.status }

/-- The order of KIS that the claim names. -/
def isKisMatch (symbol orderId : String) (row : Fields) : Bool :=
  env.str (row.at "broker_order_id") = orderId && withoutSuffix ".KQ" (withoutSuffix ".KS" (env.str (row.at "symbol"))) = symbol

/-- An order of KIS. -/
def kisOrder (symbol orderId : String) : Result Known := do
  let raw ← world.kis
  match raw.1.filter (isKisMatch env symbol orderId) with
  | [row] => do
    require (∀ id ∈ raw.2, id.eq (.str orderId) = false) (blocked "EXACT_KIS_ORDER_TRUTH_REQUIRED")
    let state ← row.item "state"
    let filled ← row.item "filled_quantity"
    let price ← row.item "average_fill_price"
    let remaining ← row.item "remaining_quantity"
    let side ← row.item "side"
    let _ ← row.item "order_date"
    let _ ← row.item "organization_no"
    pure {
      symbol := symbol
      brokerOrderId := orderId
      clientOrderId := ""
      status := upper (env.str state)
      side := upper (env.str side)
      positionSide := .null
      quantity := none
      filledQuantity := .said (.str (env.str filled))
      remainingQuantity := .said (.str (env.str remaining))
      fillPrice := .said (.str (env.str price))
      feeNative := .said .null
      baseCommissionQuantity := 0
      externalCommissionQuantities := []
      externalCommissionNative := [] }
  | _ => .error (blocked "EXACT_KIS_ORDER_TRUTH_REQUIRED")

/-- What the claim names is read from its exchange. -/
def readOrder (route : Route) (claim : Fields) : Result Known := do
  let orderId := textOf env (claim.at "brokerOrderId")
  let symbol := textOf env (claim.at "symbol")
  require (symbol ≠ "" ∧ (orderId ≠ "" ∨ route = .binanceUsdmFutures)) (blocked "EXACT_OWNED_ORDER_REQUIRED")
  match route with
  | .binanceSpot => binanceOrder env world .binance claim symbol orderId
  | .binanceUsdmFutures => binanceOrder env world .binanceFutures claim symbol orderId
  | .upbitKrwSpot => upbitOrder env world symbol orderId
  | .kisKrCash => kisOrder env world symbol orderId

/-- An answer of `get_order`. -/
inductive Answer where
  | unknown
  | known (order : Known)

/-- `get_order`. -/
def getOrder (route : Route) (claim : Fields) : Answer :=
  match readOrder env world route claim with
  | .ok order => .known order
  | .error _ => .unknown

end read

end LiveTrader.ShortBroker.OrderTruth
