/-
# `ShortLive.Decoded` — what an exchange reads from a request

Each exchange reads an order from its own place: KIS from the body and the transaction header, Binance from the parameters of the query,
with those of the body behind them, Upbit from the body.  A request carries the reserved order if what is read from it is what was
reserved (`Faithful`).

A request that passes the checks carries the order unless nothing compares the transaction of a KIS cancellation, the reserved side is
neither of the two, or a parameter that the order leaves open is in the body of a Binance request (`Unambiguous`).
-/
import LiveTrader.ShortLive.Wire

namespace LiveTrader.ShortLive

open Lib Lib.Py

/-! ## Orders as they are read -/

/-- An order as an exchange reads it; a value is there where the exchange carries it. -/
inductive Wire where
  | place (symbol side : Json) (quantity : ℚ) (price : Option ℚ) (clientOrderId positionSide : Option Json)
  | cancel (symbol : Option Json) (brokerOrderId : String) (organizationNo : Option String) (quantity : Option ℚ)
  | protect (symbol side : Json) (trigger : ℚ) (positionSide clientAlgoId : Json)
  | cancelProtection (algoId : String)

section decode

variable (env : Env) (route : String) (request : PreparedRequest)

/-- A positive number. -/
def positive (value : Json) : Option ℚ := (positive? env value).map Dec.value

/-- The side of a KIS transaction. -/
def kisSide : Option String → Option String
  | some "TTTC0012U" => some "BUY"
  | some "TTTC0011U" => some "SELL"
  | _ => none

/-- The transaction of a cancellation at KIS. -/
def kisCancellation : String := "TTTC0013U"

def decodeKis : Option Wire :=
  let body := request.fields
  if request.method = "POST" ∧ request.endpoint = kisEndpoint false ∧ (body.at "ORD_DVSN").eq (.str "00") = true then do
    let side ← kisSide (request.headers.lookup "tr_id")
    let quantity ← positive env (body.at "ORD_QTY")
    let price ← positive env (body.at "ORD_UNPR")
    some (.place (body.at "PDNO") (.str side) quantity (some price) none none)
  else if request.method = "POST" ∧ request.endpoint = kisEndpoint true ∧ (body.at "RVSE_CNCL_DVSN_CD").eq (.str "02") = true ∧
      request.headers.lookup "tr_id" = some kisCancellation then do
    let quantity ← positive env (body.at "ORD_QTY")
    some (.cancel none (env.str (body.at "ORGN_ODNO")) (some (env.str (body.at "KRX_FWDG_ORD_ORGNO"))) (some quantity))
  else none

/-- A parameter; that of the query stands before that of the body. -/
def parameter (key : String) : Json :=
  match request.url.query.lookup key with
  | some text => .str text
  | none => request.fields.at key

/-- The price of an order of a type. -/
def binancePriceOf (orderType : Json) : Option (Option ℚ) :=
  if orderType.eq (.str "MARKET") then some none
  else if orderType.eq (.str "LIMIT") then (positive env (parameter request "price")).map some
  else none

def decodeOrder : Option Wire := do
  let quantity ← positive env (parameter request "quantity")
  let price ← binancePriceOf env request (parameter request "type")
  some (.place (parameter request "symbol") (parameter request "side") quantity price (some (parameter request "newClientOrderId"))
    (if route = "BINANCE_USDM_FUTURES" then some (parameter request "positionSide") else none))

def decodeProtection : Option Wire := do
  let trigger ← positive env (parameter request "triggerPrice")
  some (.protect (parameter request "symbol") (parameter request "side") trigger (parameter request "positionSide")
    (parameter request "clientAlgoId"))

def decodeBinance : Option Wire :=
  if request.endpoint = binanceEndpoint route then
    if request.method = "POST" then decodeOrder env route request
    else if request.method = "DELETE" then
      some (.cancel (some (parameter request "symbol")) (env.str (parameter request "orderId")) none none)
    else none
  else if route = "BINANCE_USDM_FUTURES" ∧ request.endpoint = "/fapi/v1/algoOrder" then
    if request.method = "POST" then decodeProtection env request
    else if request.method = "DELETE" then some (.cancelProtection (env.str (parameter request "algoId")))
    else none
  else none

/-- The side of an order at Upbit. -/
def upbitSideOf (side : Json) : Option String :=
  if side.eq (.str "bid") then some "BUY" else if side.eq (.str "ask") then some "SELL" else none

def decodeUpbit : Option Wire :=
  let body := request.fields
  if request.method = "POST" ∧ (body.at "ord_type").eq (.str "limit") = true then do
    let side ← upbitSideOf (body.at "side")
    let quantity ← positive env (body.at "volume")
    let price ← positive env (body.at "price")
    some (.place (body.at "market") (.str side) quantity (some price) (some (body.at "identifier")) none)
  else if request.method = "DELETE" then some (.cancel none (env.str (request.queryAt "uuid")) none none)
  else none

/-- What the exchange of a route reads. -/
def decode : Option Wire :=
  if route = "KIS_KR_CASH" then decodeKis env request
  else if route = "UPBIT_KRW_SPOT" then decodeUpbit env request
  else decodeBinance env route request

end decode

/-! ## The reserved order -/

/-- What a reserved order is for. -/
inductive Kind where
  | place | cancel | protect | cancelProtection
  deriving DecidableEq

def kindOf (order : Fields) : Kind :=
  if isOperation order "CANCEL_PROTECTION" then .cancelProtection
  else if isOperation order "PROTECT" then .protect
  else if isOperation order "CANCEL" then .cancel else .place

/-- What is read is the reserved order. -/
def Carries (env : Env) (order : Fields) : Wire → Prop
  | .place symbol side quantity price clientOrderId positionSide => kindOf order = .place ∧
      symbol.eq (order.at "symbol") = true ∧ side.eq (order.at "side") = true ∧
      positive env (order.at "quantity") = some quantity ∧
      price = (if isOperation order "EMERGENCY_CLOSE" then none else positive env (order.at "referencePrice")) ∧
      (∀ id ∈ clientOrderId, id.eq (order.at "clientOrderId") = true) ∧
      (∀ side ∈ positionSide, side = .str (reservedSide env order))
  | .cancel symbol brokerOrderId organizationNo quantity => kindOf order = .cancel ∧
      (∀ s ∈ symbol, s.eq (order.at "symbol") = true) ∧ brokerOrderId = env.str (order.at "brokerOrderId") ∧
      (∀ number ∈ organizationNo, number = env.str (order.at "organizationNo")) ∧
      (∀ q ∈ quantity, positive env (order.at "remainingQuantity") = some q)
  | .protect symbol side trigger positionSide clientAlgoId => kindOf order = .protect ∧
      symbol.eq (order.at "symbol") = true ∧ side.eq (order.at "side") = true ∧
      positive env (order.at "triggerPrice") = some trigger ∧ positionSide = .str (reservedSide env order) ∧
      clientAlgoId.eq (order.at "clientAlgoId") = true
  | .cancelProtection algoId => kindOf order = .cancelProtection ∧ algoId = env.str (order.at "algoId")

/-- The endpoints of the orders of a route. -/
def endpointsOf (route : String) : List String :=
  if route = "KIS_KR_CASH" then [kisEndpoint false, kisEndpoint true]
  else if route = "UPBIT_KRW_SPOT" then ["/v1/order", "/v1/orders"]
  else if route = "BINANCE_USDM_FUTURES" then ["/fapi/v1/order", "/fapi/v1/algoOrder"] else ["/api/v3/order"]

/-- A request to the official host and an order endpoint of the route, which carries the reserved order. -/
structure Faithful (env : Env) (route : String) (order : Fields) (request : PreparedRequest) : Prop where
  https : request.url.scheme = "https"
  host : request.url.netloc = hostOf route
  path : request.url.path = request.endpoint
  endpoint : request.endpoint ∈ endpointsOf route
  carries : ∃ wire, decode env route request = some wire ∧ Carries env order wire

/-- The parameters of a Binance order that are compared as they are, though they may be missing on both sides. -/
def comparedKeys : Kind → List String
  | .place => ["symbol", "side", "newClientOrderId"]
  | .cancel => ["symbol"]
  | .protect | .cancelProtection => []

/-- A cancellation at KIS has the transaction of one, an order that KIS or Upbit places is a purchase or a sale, and what the query of a
Binance order leaves out is not in its body. -/
structure Unambiguous (route : String) (order : Fields) (request : PreparedRequest) : Prop where
  cancellation : route = "KIS_KR_CASH" → kindOf order = .cancel → request.headers.lookup "tr_id" = some kisCancellation
  side : route ∈ ["KIS_KR_CASH", "UPBIT_KRW_SPOT"] → kindOf order = .place →
    (order.at "side").eq (.str "BUY") = true ∨ (order.at "side").eq (.str "SELL") = true
  parameters : route ∈ ["BINANCE_SPOT", "BINANCE_USDM_FUTURES"] → ∀ key ∈ comparedKeys (kindOf order),
    request.url.query.lookup key = none → request.fields.at key = .null

section lemmas

variable {env : Env} {order : Fields} {request : PreparedRequest}

/-! ## Values -/

theorem finitePositive_eq_ok {value : Json} {q : ℚ} : finitePositive env value = .ok q ↔ positive env value = some q := orRaise_eq_ok

theorem sameNumber_eq_ok {a b : Json} {error : Error} :
    sameNumber env a b error = .ok () ↔ ∃ q, positive env a = some q ∧ positive env b = some q := by
  constructor
  · intro h
    obtain ⟨x, hx, h⟩ := bind_eq_ok.mp h
    obtain ⟨y, hy, h⟩ := bind_eq_ok.mp h
    have heq := require_eq_ok.mp h
    exact ⟨x, finitePositive_eq_ok.mp hx, heq ▸ finitePositive_eq_ok.mp hy⟩
  · rintro ⟨q, ha, hb⟩
    exact bind_eq_ok.mpr ⟨q, finitePositive_eq_ok.mpr ha, bind_eq_ok.mpr ⟨q, finitePositive_eq_ok.mpr hb, require_true rfl⟩⟩

theorem eq_self_str (s : String) : (Json.str s).eq (.str s) = true := by
  rw [Json.eq]
  exact beq_self_eq_true s

theorem str_eq_iff {value : Json} {s : String} : (Json.str s).eq value = true ↔ value = .str s :=
  ⟨Json.str_eq, by rintro rfl; exact eq_self_str s⟩

theorem eq_str_iff {value : Json} {s : String} : value.eq (.str s) = true ↔ value = .str s :=
  ⟨Json.eq_str, by rintro rfl; exact eq_self_str s⟩

theorem isOperation_iff {operation : String} : isOperation order operation = true ↔ order.at "operation" = .str operation := eq_str_iff

theorem isProtection_eq_ok {protection : Bool} (h : isProtection order = .ok protection) :
    protection = true ↔ isOperation order "PROTECT" = true ∨ isOperation order "CANCEL_PROTECTION" = true := by
  rw [isOperation_iff, isOperation_iff]
  rw [isProtection, oneOf] at h
  cases hvalue : order.at "operation" with
  | str s =>
    rw [hvalue] at h
    obtain rfl := Except.ok.inj h
    simp only [List.mem_cons, List.not_mem_nil, or_false, decide_eq_true_eq, Json.str.injEq]
  | null | bool | int | float =>
    rw [hvalue] at h
    obtain rfl := Except.ok.inj h
    simp only [Bool.false_eq_true, reduceCtorEq, or_self]
  | arr | obj =>
    rw [hvalue] at h
    cases h

theorem kindOf_cases (hprotection : isProtection order = .ok false) : kindOf order = if isCancel order then .cancel else .place := by
  have hnone := (isProtection_eq_ok hprotection).not.mp Bool.false_ne_true
  rw [not_or] at hnone
  rw [kindOf, if_neg hnone.2, if_neg hnone.1]
  rfl

/-- A parameter of the query is read from there. -/
theorem parameter_of_lookup {key text : String} (h : request.url.query.lookup key = some text) : parameter request key = .str text := by
  rw [parameter, h]

theorem queryAt_of_lookup {key text : String} (h : request.url.query.lookup key = some text) : request.queryAt key = .str text := by
  rw [PreparedRequest.queryAt, queryAt, h]

/-- A parameter that is not left out is read from the query. -/
theorem parameter_of_queryAt {key : String} (h : request.queryAt key ≠ .null) : parameter request key = request.queryAt key := by
  rw [parameter]
  rw [PreparedRequest.queryAt, queryAt] at h ⊢
  cases hlookup : request.url.query.lookup key with
  | none =>
    rw [hlookup] at h
    exact absurd rfl h
  | some text => rfl

/-- A value that is read carries what was compared exactly if what the query leaves out is not in the body. -/
theorem parameter_eq_iff {key : String} {value : Json} (h : (request.queryAt key).eq value = true) :
    (parameter request key).eq value = true ↔ (request.url.query.lookup key = none → request.fields.at key = .null) := by
  rw [PreparedRequest.queryAt, queryAt] at h
  rw [parameter]
  cases hlookup : request.url.query.lookup key with
  | some text =>
    rw [hlookup] at h
    exact iff_of_true h fun hnone => absurd hnone (Option.some_ne_none text)
  | none =>
    rw [hlookup] at h
    have hnull : value = .null := by
      cases value with
      | null => rfl
      | bool | int | float | str | arr | obj => simp [Json.eq, Json.numbersEq, Json.number?] at h
    rw [hnull]
    constructor
    · intro heq _
      cases hfield : request.fields.at key with
      | null => rfl
      | bool | int | float | str | arr | obj =>
        rw [hfield] at heq
        simp [Json.eq, Json.numbersEq, Json.number?] at heq
    · intro hbody
      rw [hbody rfl]
      rw [Json.eq]

theorem positive_ne_null {value : Json} {q : ℚ} (h : positive env value = some q) : value ≠ .null := by
  rintro rfl
  cases h

end lemmas

end LiveTrader.ShortLive
