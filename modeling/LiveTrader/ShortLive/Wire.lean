/-
# `ShortLive.Wire` — the requests of a dispatch

`_exact_native` compares a payload with the order it was built from.  A protection is compared as a whole: `protection_native` says what
its payload is.

`validate_short_live_prepared_request` compares a request that is about to be sent with the reserved order, by the encoding of its
exchange.  Within a dispatch its calls, and those of the two checks before it, may come in any order (`Dispatch.run`).

A URL stands as `urlsplit` and `parse_qsl` read it.
-/
import LiveTrader.Lib.DecimalFormat
import LiveTrader.ShortLive.Authority

namespace LiveTrader.ShortLive

open Lib Lib.Py

section native

variable (env : Env)

/-! ## Numbers and texts -/

/-- A number that `Decimal(str(value))` reads, finite and positive. -/
def positive? (value : Json) : Option Dec :=
  match value with
  | .null | .bool _ => none
  | value =>
    match decimal? (env.str value) with
    | some (.finite d) => if 0 < d.value then some d else none
    | _ => none

/-- `_finite_positive`. -/
def finitePositive (value : Json) : Result ℚ :=
  orRaise (.runtime "SHORT_LIVE_NATIVE_FINITE_NUMBER_REQUIRED") ((positive? env value).map Dec.value)

/-- `_finite_positive(a) == _finite_positive(b)`, or an error. -/
def sameNumber (a b : Json) (error : Error) : Result Unit := do
  let x ← finitePositive env a
  let y ← finitePositive env b
  require (x = y) error

/-- `re.fullmatch('[…]{low,high}', text)`. -/
def fullmatch (allowed : Char → Bool) (low high : ℕ) (text : String) : Bool :=
  low ≤ text.toList.length && text.toList.length ≤ high && text.toList.all allowed

/-- `str(value or "")`. -/
def Env.text (value : Json) : String := env.str (value.orElse (.str ""))

/-- A key that may be missing, with a default. -/
def getOr (d : Fields) (key : String) (default : Json) : Json := (d.lookup key).getD default

/-! ## Protections -/

/-- A value is one of the texts; what is not hashable raises. -/
def oneOf (value : Json) (texts : List String) : Result Bool := value.isOneOf texts

def isDigit (c : Char) : Bool := '0' ≤ c && c ≤ '9'

def isCapital (c : Char) : Bool := 'A' ≤ c && c ≤ 'Z'

def isLetter (c : Char) : Bool := isCapital c || ('a' ≤ c && c ≤ 'z')

/-- `isinstance(value, bool)`. -/
def isBool : Json → Bool
  | .bool _ => true
  | _ => false

/-- `value is None`. -/
def isNone : Json → Bool
  | .null => true
  | _ => false

/-- `exact_algo_id`. -/
def exactAlgoId (value : Json) : Result String := do
  let text := env.text value
  require (isBool value = false ∧ fullmatch isDigit 1 20 text = true ∧ text.toList.head? ≠ some '0')
    (.value "EXACT_PROTECTION_ALGO_ID_REQUIRED")
  pure text

/-- `exact_client_algo_id`. -/
def exactClientAlgoId (value : Json) : Result String :=
  match value with
  | .str text =>
    if fullmatch (fun c => isLetter c || isDigit c || c ∈ ['.', '_', ':', '/', '-']) 1 36 text then .ok text
    else .error (.value "EXACT_PROTECTION_CLIENT_ID_REQUIRED")
  | _ => .error (.value "EXACT_PROTECTION_CLIENT_ID_REQUIRED")

/-- The fields of every protection. -/
def protectionBase (order : Fields) (clientAlgoId : String) : Fields :=
  [("broker_id", .str "binance-futures"), ("symbol", order.at "symbol"), ("operation", order.at "operation"),
    ("session_id", order.at "sessionId"), ("manifest_hash", order.at "manifestHash"),
    ("execution_purpose", .str "FUNCTIONAL_TEST_ONLY"), ("client_algo_id", .str clientAlgoId), ("risk_reducing", .bool true)]

/-- `protection_native`. -/
def protectionNative (order : Fields) : Result Fields := do
  let known ← oneOf (order.at "operation") ["PROTECT", "CANCEL_PROTECTION"]
  require ((order.at "route").eq (.str "BINANCE_USDM_FUTURES") = true ∧ known = true ∧ (order.at "riskReducing").isTrue = true ∧
    (order.at "sessionId").truthy = true ∧ (order.at "manifestHash").truthy = true ∧ (order.at "accountId").truthy = true ∧
    fullmatch (fun c => isCapital c || isDigit c || c = '_') 2 40 (env.text (order.at "symbol")) = true)
    (.value "EXACT_PROTECTION_RESERVATION_REQUIRED")
  let clientAlgoId ← exactClientAlgoId (order.at "clientAlgoId")
  let base := protectionBase order clientAlgoId
  if (order.at "operation").eq (.str "CANCEL_PROTECTION") then do
    let algoId ← exactAlgoId env (order.at "algoId")
    pure (base ++ [("algo_id", .str algoId)])
  else do
    let direction ← oneOf (order.at "positionDirection") ["long", "short"]
    let mode ← oneOf (order.at "positionMode") ["ONE_WAY", "HEDGE"]
    let side := if (order.at "positionDirection").eq (.str "short") then "BUY" else "SELL"
    require (direction = true ∧ mode = true ∧ (order.at "side").eq (.str side) = true) (.value "PROTECTION_CLOSE_DIRECTION_REQUIRED")
    let trigger ← orRaise (.value "PROTECTION_POSITIVE_NUMBER_REQUIRED") (positive? env (order.at "triggerPrice"))
    pure (base ++ [("side", .str side), ("position_direction", order.at "positionDirection"),
      ("position_mode", order.at "positionMode"), ("trigger_price", .str trigger.fixed), ("order_type", .str "STOP_MARKET"),
      ("close_position", .bool true), ("working_type", .str "MARK_PRICE"), ("price_protect", .bool false)])

/-! ## `_exact_native` -/

/-- `_PROVIDERS`. -/
def providers : Dict String String :=
  [("KIS_KR_CASH", "kis"), ("UPBIT_KRW_SPOT", "upbit"), ("BINANCE_SPOT", "binance"), ("BINANCE_USDM_FUTURES", "binance-futures")]

def providerOf (route : String) : String := providers.get route ""

/-- `order.get("operation") == operation`. -/
def isOperation (order : Fields) (operation : String) : Bool := (order.at "operation").eq (.str operation)

/-- `order.get("operation") in {"PROTECT", "CANCEL_PROTECTION"}`, or an error. -/
def isProtection (order : Fields) : Result Bool := oneOf (order.at "operation") ["PROTECT", "CANCEL_PROTECTION"]

/-- `value is (order.get("riskReducing") is True)`. -/
def isReducing (value : Json) (order : Fields) : Bool :=
  match value with
  | .bool b => b = (order.at "riskReducing").isTrue
  | _ => false

/-- The order type of a payload. -/
def nativeOrderType (route : String) (order : Fields) : String :=
  if route = "KIS_KR_CASH" then "00" else if isOperation order "EMERGENCY_CLOSE" then "MARKET" else "LIMIT"

/-- The side that closes a position. -/
def closingSide (order : Fields) : String := if (order.at "positionDirection").eq (.str "short") then "BUY" else "SELL"

/-- An entry of a futures order has the leverage that is reserved for it. -/
def sameLeverage (route : String) (order native : Fields) : Result Unit :=
  if route = "BINANCE_USDM_FUTURES" ∧ (order.at "riskReducing").isTrue = false ∧ isNone (order.at "leverage") = false then
    sameNumber env (native.at "expected_leverage") (order.at "leverage") (.runtime "SHORT_LIVE_NATIVE_LEVERAGE_CHANGED")
  else .ok ()

/-- The payload of an order that is placed. -/
def exactPlacement (route : String) (order native : Fields) : Result Unit := do
  let changed : Error := .runtime "SHORT_LIVE_NATIVE_RESERVED_ORDER_CHANGED"
  require ((native.at "side").eq (order.at "side") = true) changed
  sameNumber env (native.at "quantity") (order.at "quantity") changed
  sameNumber env (native.at "price") (order.at "referencePrice") changed
  require ((native.at "identifier").eq (order.at "clientOrderId") = true ∧
    (native.at "new_client_order_id").eq (order.at "clientOrderId") = true ∧
    (native.at "session_id").eq (order.at "sessionId") = true ∧ (native.at "manifest_hash").eq (order.at "manifestHash") = true ∧
    (native.at "execution_purpose").eq (.str "FUNCTIONAL_TEST_ONLY") = true ∧
    (native.at "order_type").eq (.str (nativeOrderType route order)) = true ∧
    isReducing (native.at "risk_reducing") order = true ∧ isReducing (native.at "reduce_only") order = true ∧
    (native.at "position_direction").eq (getOr order "positionDirection" (.str "long")) = true) changed
  let quantity ← finitePositive env (native.at "quantity")
  let price ← finitePositive env (native.at "price")
  require (route = "KIS_KR_CASH" → quantity.den = 1 ∧ price.den = 1)
    (.runtime "SHORT_LIVE_DOMESTIC_INTEGER_QUANTITY_PRICE_REQUIRED")
  require (route = "BINANCE_USDM_FUTURES" → (native.at "position_mode").eq (order.at "positionMode") = true)
    (.runtime "SHORT_LIVE_NATIVE_POSITION_MODE_CHANGED")
  sameLeverage env route order native
  require (isOperation order "EMERGENCY_CLOSE" = true → route = "BINANCE_USDM_FUTURES" ∧ (order.at "riskReducing").isTrue = true ∧
    ((order.at "positionDirection").eq (.str "long") = true ∨ (order.at "positionDirection").eq (.str "short") = true) ∧
    (order.at "side").eq (.str (closingSide order)) = true) (.runtime "SHORT_LIVE_EMERGENCY_CLOSE_DIRECTION_REQUIRED")

/-- `_exact_native`, for an order of the route. -/
def exactNativeOf (route : String) (order native : Fields) : Result Unit := do
  require ((native.at "broker_id").eq (.str (providerOf route)) = true ∧ (native.at "symbol").eq (order.at "symbol") = true ∧
    (order.at "accountId").truthy = true) (.runtime "SHORT_LIVE_NATIVE_ROUTE_SYMBOL_ACCOUNT_CHANGED")
  require (route = "KIS_KR_CASH" → fullmatch isDigit 6 6 (env.str (order.at "symbol")) = true ∧
    (native.at "asset").eq (.str "KR_STOCK") = true) (.runtime "SHORT_LIVE_DOMESTIC_ASSET_BINDING_REQUIRED")
  let protection ← isProtection order
  if protection then do
    let exact ← (protectionNative env order).mapError fun error =>
      match error with
      | .value _ => .runtime "SHORT_LIVE_PROTECTION_RESERVATION_INVALID"
      | error => error
    require (Json.eq (.obj native) (.obj exact) = true) (.runtime "SHORT_LIVE_PROTECTION_NATIVE_CHANGED")
  else if isOperation order "CANCEL" then
    require ((order.at "brokerOrderId").truthy = true ∧ env.str (native.at "broker_order_id") = env.str (order.at "brokerOrderId"))
      (.runtime "SHORT_LIVE_NATIVE_CANCEL_ID_CHANGED")
  else exactPlacement env route order native

/-- `_exact_native`. -/
def exactNative (order : Fields) (native : Json) : Result Unit := do
  let native ← native.fields
  match order.at "route" with
  | .str route => exactNativeOf env route order native
  | _ => .error (.key "route")

/-- The environment in which the comparison is this one. -/
def Env.withNative (env : Env) : Env := { env with exactNative := ShortLive.exactNative env }

end native

/-! ## Requests -/

structure Url where
  scheme : String
  netloc : String
  path : String
  query : List (String × String)
  fragment : String

structure PreparedRequest where
  provider : String
  method : String
  url : Url
  endpoint : String
  headers : Dict String String
  body : Option Fields

/-- `query.get(key)`. -/
def queryAt (query : List (String × String)) (key : String) : Json :=
  match query.lookup key with
  | some text => .str text
  | none => .null

/-- `prepared.body or {}`. -/
def PreparedRequest.fields (request : PreparedRequest) : Fields := request.body.getD []

/-- `query.get(key)`, of the request. -/
def PreparedRequest.queryAt (request : PreparedRequest) (key : String) : Json := ShortLive.queryAt request.url.query key

/-- `expected_hosts`. -/
def expectedHosts : Dict String String :=
  [("KIS_KR_CASH", "openapi.koreainvestment.com:9443"), ("BINANCE_SPOT", "api.binance.com"),
    ("BINANCE_USDM_FUTURES", "fapi.binance.com"), ("UPBIT_KRW_SPOT", "api.upbit.com")]

/-- The official host of a route. -/
def hostOf (route : String) : String := expectedHosts.get route ""

section wire

variable (env : Env) (route : String) (order : Fields) (request : PreparedRequest)

/-! ## The encodings -/

/-- The provider and the origin, which no later check looks at. -/
def checkOrigin : Result Unit := do
  require (request.provider = providerOf route) (.runtime "SHORT_LIVE_WIRE_PROVIDER_CHANGED")
  require (request.url.scheme = "https" ∧ request.url.netloc = hostOf route ∧ request.url.path = request.endpoint ∧
    request.url.fragment = "") (.runtime "SHORT_LIVE_OFFICIAL_WIRE_ORIGIN_REQUIRED")
  require (request.url.query.map Prod.fst).Nodup (.runtime "SHORT_LIVE_DUPLICATE_WIRE_QUERY")

/-- The parameters of a signed request that are not those of its order. -/
def signingKeys : List String := ["timestamp", "signature", "recvWindow"]

/-- `unsigned`. -/
def unsigned : Fields :=
  (request.url.query.filter fun entry => entry.1 ∉ signingKeys).map fun entry => (entry.1, .str entry.2)

/-- `order["positionDirection"].upper()` in a hedged account, else `BOTH`. -/
def protectedSide : Result String := do
  let mode ← order.item "positionMode"
  if mode.eq (.str "HEDGE") then do
    let direction ← order.item "positionDirection"
    match direction with
    | .str text => .ok (upper text)
    | _ => .error (.type "str expected")
  else .ok "BOTH"

/-- The parameters of a protection that is placed. -/
def protectionParameters (symbol side trigger positionSide clientAlgoId : Json) : Fields :=
  [("algoType", .str "CONDITIONAL"), ("symbol", symbol), ("side", side), ("type", .str "STOP_MARKET"), ("triggerPrice", trigger),
    ("positionSide", positionSide), ("closePosition", .str "true"), ("workingType", .str "MARK_PRICE"), ("priceProtect", .str "false"),
    ("clientAlgoId", clientAlgoId)]

/-- The parameters that an order expects. -/
def expectedProtection : Result Fields := do
  let symbol ← order.item "symbol"
  let side ← order.item "side"
  let trigger ← order.item "triggerPrice"
  let positionSide ← protectedSide order
  let clientAlgoId ← order.item "clientAlgoId"
  pure (protectionParameters symbol side (.str (env.str trigger)) (.str positionSide) clientAlgoId)

/-- The trigger price of a request is that of the order, in whatever spelling. -/
def sameTrigger (expected : Fields) : Result Fields :=
  if ((unsigned request).lookup "triggerPrice").isSome then do
    sameNumber env ((unsigned request).at "triggerPrice") (expected.at "triggerPrice")
      (.runtime "SHORT_LIVE_PROTECTION_TRIGGER_CHANGED")
    pure ((unsigned request).put "triggerPrice" (expected.at "triggerPrice"))
  else .ok (unsigned request)

/-- A protection that is placed or cancelled. -/
def protectionWire : Result Unit := do
  let cancel := isOperation order "CANCEL_PROTECTION"
  require (route = "BINANCE_USDM_FUTURES" ∧ request.endpoint = "/fapi/v1/algoOrder" ∧
    request.method = (if cancel then "DELETE" else "POST") ∧ request.fields.isEmpty = true)
    (.runtime "SHORT_LIVE_PROTECTION_WIRE_CHANGED")
  if cancel then do
    let algoId ← order.item "algoId"
    require (Json.eq (.obj [("algoId", .str (env.str algoId))]) (.obj (unsigned request)) = true)
      (.runtime "SHORT_LIVE_PROTECTION_RESERVED_WIRE_CHANGED")
  else do
    let expected ← expectedProtection env order
    let sent ← sameTrigger env request expected
    require (Json.eq (.obj expected) (.obj sent) = true) (.runtime "SHORT_LIVE_PROTECTION_RESERVED_WIRE_CHANGED")

/-- The transaction of a side. -/
def kisTransaction (side : Json) : String := if side.eq (.str "BUY") then "TTTC0012U" else "TTTC0011U"

/-- `order.get("operation") in {"CANCEL", "CANCEL_PROTECTION"}`, where no protection is meant. -/
def isCancel : Bool := isOperation order "CANCEL"

/-- The endpoint of a domestic order. -/
def kisEndpoint (cancel : Bool) : String :=
  "/uapi/domestic-stock/v1/trading/" ++ (if cancel then "order-rvsecncl" else "order-cash")

def kisWire : Result Unit := do
  let body := request.fields
  require (request.method = "POST" ∧ request.endpoint = kisEndpoint (isCancel order) ∧ (body.at "ORD_DVSN").eq (.str "00") = true)
    (.runtime "SHORT_LIVE_KIS_DOMESTIC_LIMIT_WIRE_REQUIRED")
  if isCancel order then do
    let changed : Error := .runtime "SHORT_LIVE_KIS_OWNED_CANCEL_WIRE_CHANGED"
    require (env.str (body.at "ORGN_ODNO") = env.str (order.at "brokerOrderId") ∧
      env.str (body.at "KRX_FWDG_ORD_ORGNO") = env.str (order.at "organizationNo") ∧
      (body.at "RVSE_CNCL_DVSN_CD").eq (.str "02") = true) changed
    sameNumber env (body.at "ORD_QTY") (order.at "remainingQuantity") changed
  else do
    let changed : Error := .runtime "SHORT_LIVE_KIS_RESERVED_WIRE_CHANGED"
    let symbol ← order.item "symbol"
    require ((body.at "PDNO").eq symbol = true) changed
    let quantity ← order.item "quantity"
    sameNumber env (body.at "ORD_QTY") quantity changed
    let price ← order.item "referencePrice"
    sameNumber env (body.at "ORD_UNPR") price changed
    let side ← order.item "side"
    require (request.headers.lookup "tr_id" = some (kisTransaction side)) changed

def binanceEndpoint : String := if route = "BINANCE_USDM_FUTURES" then "/fapi/v1/order" else "/api/v3/order"

/-- The price of a limit order; a market order has none. -/
def binancePrice (emergency : Bool) : Result Unit :=
  if emergency then
    require (∀ key ∈ ["price", "timeInForce", "closePosition"], request.url.query.lookup key = none)
      (.runtime "SHORT_LIVE_BINANCE_RESERVED_WIRE_CHANGED")
  else do
    let price ← order.item "referencePrice"
    sameNumber env (request.queryAt "price") price (.runtime "SHORT_LIVE_BINANCE_RESERVED_WIRE_CHANGED")

/-- The position side that is reserved. -/
def reservedSide : String :=
  if (order.at "positionMode").eq (.str "HEDGE") then upper (env.str (getOr order "positionDirection" (.str "long"))) else "BOTH"

/-- The position side of a futures order, and its reduction. -/
def futuresSide : Result Unit :=
  let hedge := (order.at "positionMode").eq (.str "HEDGE")
  if route = "BINANCE_USDM_FUTURES" then
    require (request.url.query.lookup "positionSide" = some (reservedSide env order) ∧
      ¬(hedge = true ∧ (request.url.query.lookup "reduceOnly").isSome = true) ∧
      (hedge = false → (order.at "riskReducing").isTrue = true → request.url.query.lookup "reduceOnly" = some "true"))
      (.runtime "SHORT_LIVE_FUTURES_OWNED_SIDE_WIRE_CHANGED")
  else .ok ()

def binanceWire : Result Unit := do
  let symbol ← order.item "symbol"
  require (request.endpoint = binanceEndpoint route ∧ request.method = (if isCancel order then "DELETE" else "POST") ∧
    (request.queryAt "symbol").eq symbol = true) (.runtime "SHORT_LIVE_BINANCE_ORDER_WIRE_CHANGED")
  if isCancel order then do
    let brokerOrderId ← order.item "brokerOrderId"
    require (request.url.query.lookup "orderId" = some (env.str brokerOrderId)) (.runtime "SHORT_LIVE_BINANCE_OWNED_CANCEL_CHANGED")
  else do
    let changed : Error := .runtime "SHORT_LIVE_BINANCE_RESERVED_WIRE_CHANGED"
    let emergency := isOperation order "EMERGENCY_CLOSE"
    let clientOrderId ← order.item "clientOrderId"
    require ((request.queryAt "newClientOrderId").eq clientOrderId = true) changed
    let side ← order.item "side"
    require ((request.queryAt "side").eq side = true ∧
      request.url.query.lookup "type" = some (if emergency then "MARKET" else "LIMIT")) changed
    let quantity ← order.item "quantity"
    sameNumber env (request.queryAt "quantity") quantity changed
    binancePrice env order request emergency
    futuresSide env route order request

/-- The side of an order as Upbit spells it. -/
def upbitSide (side : Json) : String := if side.eq (.str "BUY") then "bid" else "ask"

def upbitWire : Result Unit := do
  let body := request.fields
  require (request.endpoint = "/v1/order" ∨ isCancel order = false ∧ request.endpoint = "/v1/orders")
    (.runtime "SHORT_LIVE_UPBIT_ORDER_WIRE_CHANGED")
  if isCancel order then do
    let brokerOrderId ← order.item "brokerOrderId"
    require (request.method = "DELETE" ∧ request.url.query.lookup "uuid" = some (env.str brokerOrderId))
      (.runtime "SHORT_LIVE_UPBIT_OWNED_CANCEL_CHANGED")
  else do
    let changed : Error := .runtime "SHORT_LIVE_UPBIT_RESERVED_WIRE_CHANGED"
    require (request.method = "POST") changed
    let symbol ← order.item "symbol"
    let clientOrderId ← order.item "clientOrderId"
    require ((body.at "market").eq symbol = true ∧ (body.at "identifier").eq clientOrderId = true ∧
      (body.at "ord_type").eq (.str "limit") = true) changed
    let side ← order.item "side"
    require ((body.at "side").eq (.str (upbitSide side)) = true) changed
    let quantity ← order.item "quantity"
    sameNumber env (body.at "volume") quantity changed
    let price ← order.item "referencePrice"
    sameNumber env (body.at "price") price changed

/-- The request is that of the reserved order. -/
def checkWire (exchange : String) : Result Unit := do
  let protection ← isProtection order
  checkOrigin route request
  if protection then protectionWire env route order request
  else if exchange = "KIS" then kisWire env order request
  else if exchange = "BINANCE" then binanceWire env route order request
  else upbitWire env order request

/-- The operation under which a request of an order is sent. -/
def operationOf : String :=
  if isOperation order "CANCEL_PROTECTION" then "FUTURES_CANCEL_PROTECTION"
  else if isOperation order "PROTECT" then "FUTURES_PROTECT"
  else if isOperation order "CANCEL" then "CANCEL_ORDER" else "PLACE_ORDER"

end wire

/-! ## The calls of a dispatch -/

structure Dispatch where
  context : Context
  wireMutationAttempted : Bool := false

/-- A call in a dispatch, with the owners that its check reads and the answer of the guard. -/
inductive Call where
  /-- `validate_short_live_native_payload`. -/
  | native (payload : Json) (owners : Active) (guard : Result Json)
  /-- `validate_short_live_normalized_payload`. -/
  | normalized (payload : Json)
  /-- `validate_short_live_prepared_request`. -/
  | prepared (request : PreparedRequest) (consume : Bool) (owners : Active) (guard : Result Json)

namespace Dispatch

variable (env : Env)

/-- `check_short_live_authority`, called in the dispatch. -/
def check (d : Dispatch) (owners : Active) (operation : Option String) (guard : Result Json) : Result Bool :=
  checkShortLiveAuthority env owners (some d.context) d.context.thread d.context.exchange operation guard

def enterRouter (d : Dispatch) (payload : Json) (owners : Active) (guard : Result Json) : Result Dispatch := do
  let digest ← env.digest payload
  require (d.context.routerEntered = false ∧ digest = d.context.nativeHash)
    (.runtime "SHORT_LIVE_NATIVE_PAYLOAD_CHANGED_OR_REUSED")
  let _ ← d.check env owners none guard
  pure { d with context := { d.context with routerEntered := true } }

def prepare (d : Dispatch) (request : PreparedRequest) (consume : Bool) (owners : Active) (guard : Result Json) : Result Dispatch :=
  if upper request.method = "GET" then .ok d
  else do
    let _ ← d.check env owners (some (operationOf d.context.order)) guard
    checkWire env d.context.route d.context.order request d.context.exchange
    require (consume = true → d.wireMutationAttempted = false) (.runtime "SHORT_LIVE_MUTATION_ALREADY_ATTEMPTED")
    pure { d with wireMutationAttempted := d.wireMutationAttempted || consume }

def call (d : Dispatch) : Call → Result Dispatch
  | .native payload owners guard => d.enterRouter env payload owners guard
  | .normalized payload => do
    exactNative env d.context.order payload
    pure d
  | .prepared request consume owners guard => d.prepare env request consume owners guard

/-- The dispatch after a call; one that raises changes nothing. -/
def after (d : Dispatch) (call : Call) : Dispatch :=
  match d.call env call with
  | .ok d' => d'
  | .error _ => d

/-- The request that a call passes for sending. -/
def sentBy (d : Dispatch) (call : Call) : Option PreparedRequest :=
  match call, d.call env call with
  | .prepared request true _ _, .ok _ => if upper request.method = "GET" then none else some request
  | _, _ => none

/-- The requests that are passed for sending in a run of calls. -/
def sent : Dispatch → List Call → List PreparedRequest
  | _, [] => []
  | d, call :: calls => (d.sentBy env call).toList ++ sent (d.after env call) calls

end Dispatch

end LiveTrader.ShortLive
