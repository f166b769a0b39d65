/-
# `OrderDispatch.Router` — an order on its way to the broker

A response is read twice by different rules.  The shared coordinator records a status
(`result`): whatever it cannot read is `UNKNOWN`, and only an explicit code is a rejection.  The
dispatch reads the status code and the attempts (`classify`): what is left over is a rejection.

`place_order` of each route calls its transport inside of the shared coordinator and of the
boundary of the route.  What the transport, the coordinator and the boundaries do is given
(`Attempt`); any of them may raise anything.  Two of the translations on the way turn an exception
into the one that says that the broker was not ready.
-/
import LiveTrader.Lib.DecimalText

namespace LiveTrader.OrderDispatch

open Lib Lib.Py

/-! ## Exceptions -/

/-- What a call on the way of an order raises. -/
inductive Raised where
  /-- `BrokerNotReadyError`. -/
  | notReady (reason : String)
  /-- `CoordinationError`. -/
  | coordination (code : String)
  /-- `KisOrderAuthorityError`, `BinanceOrderAuthorityError` or `UpbitOrderAuthorityError`. -/
  | authority (broker reason : String)
  /-- `sqlite3.Error`. -/
  | sqlite (reason : String)
  /-- Any other `Exception`. -/
  | error (e : Error)
  /-- A `BaseException` that is no `Exception`. -/
  | exit (name : String)
  deriving DecidableEq

/-- What a call returns, unless it raises. -/
abbrev Answer (α : Type) := Except Raised α

/-- An exception of the language. -/
def Answer.of {α : Type} : Result α → Answer α
  | .ok a => .ok a
  | .error e => .error (.error e)

/-- `int` and `float` of texts, `str` of values, and the rounding of large integers. -/
structure Env where
  /-- `str(value)` of a value that is no text. -/
  repr : Json → String
  /-- `int(text)`. -/
  int : String → Option ℤ
  /-- `int(safe_float(text, 0.0))`. -/
  truncated : String → Result ℤ
  /-- `int(float(n))` of an integer that is no float. -/
  rounded : ℤ → Result ℤ

/-- `str(value)`. -/
def Env.str (env : Env) : Json → String
  | .str s => s
  | v => env.repr v

/-- `str(value or "")`. -/
def Env.text (env : Env) (value : Json) : String := if value.truthy then env.str value else ""

/-- `int(safe_float(value, 0.0))`. -/
def Env.count (env : Env) : Json → Result ℤ
  | .bool b => .ok (if b then 1 else 0)
  | .int n => if n.natAbs ≤ 2 ^ 53 then .ok n else env.rounded n
  | .float q => .ok (q.num.tdiv q.den)
  | .str s => env.truncated s
  | _ => .ok 0

/-- `int(value)`, or nothing where it raises. -/
def Env.code (env : Env) : Json → Option ℤ
  | .bool b => some (if b then 1 else 0)
  | .int n => some n
  | .float q => some (q.num.tdiv q.den)
  | .str s => env.int s
  | _ => none

/-- A dictionary, or an empty one. -/
def dictOr : Json → Fields
  | .obj d => d
  | _ => []

/-- The first of these fields that says something. -/
def firstOf (d : Fields) : List String → Json
  | [] => .str ""
  | key :: keys => (d.at key).orElse (firstOf d keys)

/-! ## The coordinator -/

/-- `_UPBIT_ORDER_REJECTIONS`. -/
def upbitOrderRejections : List String :=
  ["create_ask_error", "create_bid_error", "insufficient_funds_ask", "insufficient_funds_bid", "under_min_total_ask",
    "under_min_total_bid", "validation_error", "invalid_parameter", "invalid_post_only"]

/-- `explicit_upbit_order_rejection`. -/
def explicitUpbitOrderRejection (body : Fields) : Result Bool :=
  match body.at "error" with
  | .obj error => (Fields.at error "name").isOneOf upbitOrderRejections
  | _ => .ok false

def binanceRejections : List ℤ := [-1013, -1021, -1100, -1101, -1102, -1111, -2010, -2015]

/-- `response.get("code") in {…}`. -/
def isBinanceRejection : Json → Result Bool
  | .int n => .ok (n ∈ binanceRejections)
  | .float q => .ok (binanceRejections.any fun n => (n : ℚ) = q)
  | .arr _ | .obj _ => .error (.type "unhashable type")
  | _ => .ok false

/-- The codes and the names that say that there is no order. -/
def explicitRejection (env : Env) (response : Fields) : Result Bool := do
  let binance ← isBinanceRejection (response.at "code")
  if binance then return true
  let upbit ← explicitUpbitOrderRejection response
  if upbit then return true
  match response.lookup "rt_cd" with
  | some code => pure (env.str code ≠ "0")
  | none => pure false

/-- `mapped` of `_result`. -/
def mappedState (state : String) : String :=
  if state ∈ ["NEW", "WAIT", "WATCH", "PENDING"] then "ACKNOWLEDGED"
  else if state ∈ ["PARTIAL_FILLED", "PARTIALLY_FILLED"] then "PARTIALLY_FILLED"
  else if state ∈ ["FILLED", "DONE"] then "FILLED"
  else if state ∈ ["CANCELED", "CANCEL"] then "CANCELED"
  else if state ∈ ["REJECTED", "EXPIRED"] then state
  else "ACKNOWLEDGED"

/-- The status of an order that the broker's own payload gives. -/
def payloadResult (env : Env) (payload : Fields) : Result (String × String) := do
  let output := dictOr (payload.at "output")
  let orderId := env.text ((firstOf payload ["orderId", "uuid", "algoId"]).orElse (output.at "ODNO"))
  let state := upper (env.text (firstOf payload ["status", "state"]))
  if orderId ≠ "" then return (mappedState state, orderId)
  let rejected ← explicitRejection env payload
  pure (if rejected then "REJECTED" else "UNKNOWN", "")

/-- A status code that says nothing about the order. -/
def codeUnknown (env : Env) : Json → Bool
  | .null => false
  | value =>
    match env.code value with
    | none => true
    | some code => code = 0 || 500 ≤ code

/-- The status that a response gives. -/
def fieldsResult (env : Env) (response : Fields) : Result (String × String) :=
  if (response.at "outcomeAmbiguous").isTrue = true ∨ (response.at "redirectBlocked").isTrue = true then .ok ("UNKNOWN", "")
  else if codeUnknown env (response.at "statusCode") = true then .ok ("UNKNOWN", "")
  else if (response.lookup "ok").isSome = true then
    match response.at "json" with
    | .obj payload => payloadResult env payload
    | _ => .ok ("UNKNOWN", "")
  else payloadResult env response

/-- `_result` of `order_coordination`. -/
def result (env : Env) : Json → Result (String × String)
  | .obj response => fieldsResult env response
  | _ => .ok ("UNKNOWN", "")

/-! ## The dispatch -/

/-- What the dispatch makes of an order. -/
inductive Outcome where
  | acknowledged (brokerOrderId : String)
  | missingId
  | ambiguous (attempts : ℤ)
  | network
  | rejected (reason : String)
  | adapterBlocked (reason : String)
  | unknown
  | escaped (e : Raised)
  deriving DecidableEq

/-- The id of the order in the payload of a response. -/
def brokerOrderIdOf (env : Env) (payload : Fields) : Result String :=
  let id := firstOf payload ["uuid", "orderId", "clientOrderId"]
  if id.truthy then .ok (env.text id)
  else do
    let output ← ((payload.at "output").orElse (.obj [])).fields
    pure (env.text (output.at "ODNO"))

/-- The classification of a response by `dispatch_live_order_with_checkpoint`. -/
def classify (env : Env) (response : Fields) : Result Outcome := do
  let brokerOrderId ← brokerOrderIdOf env (dictOr (response.at "json"))
  if (response.at "ok").isTrue then
    return if brokerOrderId ≠ "" then .acknowledged brokerOrderId else .missingId
  let attempts := env.count (response.at "physicalAttemptCount")
  if (response.at "outcomeAmbiguous").isTrue then return .ambiguous (← attempts)
  let attempts ← attempts
  if 0 < attempts then return .ambiguous attempts
  let code ← env.count (response.at "statusCode")
  if code = 0 then return .network
  let text := (response.at "text").orElse (.str "broker-rejected")
  return .rejected (String.ofList ((env.str text).toList.take 500))

/-- What is made of a response, or of an exception on the way. -/
def conclude (env : Env) : Answer Json → Outcome
  | .ok response =>
    match classify env (dictOr response) with
    | .ok outcome => outcome
    | .error _ => .unknown
  | .error (.notReady reason) => .adapterBlocked reason
  | .error (.exit name) => .escaped (.exit name)
  | .error _ => .unknown

/-- The order is acknowledged, or kept for the reconciliation. -/
def Outcome.kept : Outcome → Bool
  | .rejected _ | .adapterBlocked _ | .escaped _ => false
  | _ => true

/-! ## What is given -/

/-- What the transport does with the request. -/
inductive Reply where
  | returned (response : Json)
  | raised (e : Raised) (sent : Bool)

/-- The answers to one call of `place_order`, in the order of the calls. -/
structure Attempt where
  /-- All that comes before the coordinator: consent, the request, tokens, reads and the boundary. -/
  prepare : Option Raised := none
  /-- The reservation of the coordinator and the registration. -/
  reserve : Option Raised := none
  begun : Answer Bool := .ok true
  reply : Reply
  /-- `record_result` and the response of the retirement journal. -/
  record : Option Raised := none
  note : Option Raised := none
  /-- The boundary of the route is left. -/
  leave : Option Raised := none
  /-- The authenticated preflight of the route is left. -/
  deauthenticate : Option Raised := none
  /-- The client id of a request. -/
  clientOrderId : String := ""
  /-- `kisOrderAccountBinding` of the request that was sent. -/
  binding : Json := .null
  /-- `_kis_environment_order_account_binding`, read afterwards. -/
  environment : Json := .null
  /-- The boundaries of the dispatch are left. -/
  release : Option Raised := none

/-! ## Translations -/

/-- `except CoordinationError as exc: raise BrokerNotReadyError(exc.code)`. -/
def uncoordinated : Raised → Raised
  | .coordination code => .notReady code
  | e => e

/-- `except KisOrderAuthorityError as exc: raise BrokerNotReadyError(str(exc))`, and its siblings. -/
def unauthorized (broker : String) : Raised → Raised
  | .authority b reason => if b = broker then .notReady reason else .authority b reason
  | e => e

/-- A block is left; what is raised then replaces all else. -/
def leaving {α : Type} (leave : Option Raised) (answer : Answer α) : Answer α :=
  match leave with
  | some e => .error e
  | none => answer

/-- A call that returns nothing. -/
def calling : Option Raised → Answer Unit
  | some e => .error e
  | none => .ok ()

/-! ## The coordinator -/

/-- What comes of `place_order`. -/
structure Placement where
  /-- The transport was called. -/
  reached : Bool
  answer : Answer Json

def Placement.translate (f : Raised → Raised) (p : Placement) : Placement :=
  { p with answer := p.answer.mapError f }

/-- What the coordinator makes of the call of the transport: it records the result, and the journal
the response. -/
def coordinated (env : Env) (a : Attempt) : Answer Json → Answer Json
  | .error e => .error (a.record.getD e)
  | .ok response => do
    let _ ← Answer.of (result env response)
    calling a.record
    calling a.note
    pure response

/-- `dispatch` of `order_coordination`, with what the call of the transport gives. -/
def coordinate (env : Env) (a : Attempt) (submitted : Answer Json) : Placement :=
  match a.reserve, a.begun with
  | some e, _ => ⟨false, .error e⟩
  | none, .error e => ⟨false, .error e⟩
  | none, .ok false => ⟨false, .error (.coordination "COORDINATION_ALREADY_SUBMITTED_RECONCILE_ONLY")⟩
  | none, .ok true => ⟨true, coordinated env a submitted⟩

/-- `_coordinated_send`. -/
def coordinatedSend (env : Env) (a : Attempt) (submitted : Answer Json) : Placement :=
  (coordinate env a submitted).translate uncoordinated

/-- What the call of the transport gives. -/
def Reply.answer : Reply → Answer Json
  | .returned response => .ok response
  | .raised e _ => .error e

/-- The response names an order and the client id of the request. -/
def tossAccepts (clientOrderId : String) : Json → Bool
  | .obj result => (Fields.at result "orderId").truthy && (Fields.at result "clientOrderId").eq (.str clientOrderId)
  | _ => false

/-- `submit_toss`. -/
def submitToss (a : Attempt) : Answer Json := do
  let result ← a.reply.answer
  if tossAccepts a.clientOrderId result then
    pure (.obj [("ok", .bool true), ("json", result)])
  else .error (.notReady "TOSS_ORDER_ACK_IDENTITY_UNKNOWN")

/-! ## Routes -/

/-- An item of a list that is made a dictionary; a key that is no text is read by nobody. -/
def pairOf : Json → Answer (Option (String × Json))
  | .arr [.str key, value] => .ok (some (key, value))
  | .arr [.arr _, _] | .arr [.obj _, _] => .error (.error (.type "unhashable type"))
  | .arr [_, _] => .ok none
  | .obj [(key, _), (value, _)] => .ok (some (key, .str value))
  | .str s =>
    match s.toList with
    | [key, value] => .ok (some (String.singleton key, .str (String.singleton value)))
    | _ => .error (.error (.value "dictionary update sequence element has the wrong length"))
  | .arr _ | .obj _ => .error (.error (.value "dictionary update sequence element has the wrong length"))
  | _ => .error (.error (.type "cannot convert dictionary update sequence element"))

/-- `dict(value)`. -/
def dictOf : Json → Answer Fields
  | .obj d => .ok d
  | .arr items => do
    let pairs ← items.mapM pairOf
    pure (pairs.foldl (fun d pair => match pair with | some (key, value) => d.put key value | none => d) [])
  | .str "" => .ok []
  | .str _ => .error (.error (.value "dictionary update sequence element has the wrong length"))
  | _ => .error (.error (.type "object is not iterable"))

/-- The response of the KIS route, with the account that it was sent for. -/
def withBinding (a : Attempt) (response : Json) : Answer Json := do
  let d ← dictOf response
  pure (.obj (d.put "kisOrderAccountBinding" a.binding))

/-- The names of the exchanges with an authority error of their own. -/
def authorityOf (brokerId : String) : String :=
  if brokerId = "binance-futures" then "binance" else brokerId

/-- `LiveBrokerRouter.place_order`; the id of a payload is in lower case. -/
def placeOrder (env : Env) (brokerId : String) (a : Attempt) : Placement :=
  if brokerId = "toss" then
    match a.prepare with
    | some e => ⟨false, .error e⟩
    | none => coordinatedSend env a (submitToss a)
  else if brokerId = "kis" then
    let sent : Placement :=
      match a.prepare with
      | some e => ⟨false, .error e⟩
      | none =>
        let sent := coordinatedSend env a a.reply.answer
        { sent with answer := leaving a.deauthenticate (leaving a.leave sent.answer >>= withBinding a) }
    sent.translate (unauthorized "kis")
  else if brokerId ∈ ["binance", "binance-futures", "upbit"] then
    match a.prepare with
    | some e => ⟨false, .error e⟩
    | none =>
      let sent := coordinatedSend env a a.reply.answer
      { sent with answer := leaving a.leave sent.answer : Placement }.translate (unauthorized (authorityOf brokerId))
  else ⟨false, .error (.notReady ("지원하지 않는 broker_id입니다: " ++ brokerId))⟩

/-! ## The account of a KIS order -/

/-- `_KIS_ORDER_ACCOUNT_BINDING_KEYS`. -/
def kisOrderAccountBindingKeys : List String :=
  ["schemaVersion", "accountCanoHash", "accountProductCode", "accountFingerprint", "credentialConfigurationHash",
    "environmentRevision"]

def isText (check : String → Bool) : Json → Bool
  | .str s => check s
  | _ => false

/-- `_normalize_kis_order_account_binding`. -/
def normalizeKisOrderAccountBinding : Json → Option Fields
  | .obj (d : Fields) =>
    if (d.map Prod.fst).all (kisOrderAccountBindingKeys.contains ·) ∧
        kisOrderAccountBindingKeys.all (fun key => (d.lookup key).isSome) ∧
        (Fields.at d "schemaVersion").eq (.str "kis-order-account-binding/v1") = true ∧
        isText isHash (Fields.at d "accountCanoHash") = true ∧ isText isHash (Fields.at d "accountFingerprint") = true ∧
        isText isHash (Fields.at d "credentialConfigurationHash") = true ∧
        isText (isNumeral 2 2) (Fields.at d "accountProductCode") = true ∧ isText isHash (Fields.at d "environmentRevision") = true then
      some d
    else none
  | _ => none

/-- `_kis_order_account_binding_matches`, of two bindings in order. -/
def kisOrderAccountBindingMatches (left right : Fields) : Bool :=
  kisOrderAccountBindingKeys.all fun key => (left.at key).eq (right.at key)

/-- The account that the response names is the one of the environment. -/
def sameAccount (env : Env) (environment : Json) (response : Fields) : Bool :=
  match normalizeKisOrderAccountBinding environment with
  | none => false
  | some current =>
    let named := (dictOr (response.at "kisOrderAccountBinding")).put "environmentRevision"
      (.str (env.text (current.at "environmentRevision")))
    match normalizeKisOrderAccountBinding (.obj named) with
    | none => false
    | some named => kisOrderAccountBindingMatches named current

/-- The response of a KIS order; without its account it is ambiguous. -/
def bindAccount (env : Env) (a : Attempt) (response : Json) : Answer Json :=
  let d := dictOr response
  if sameAccount env a.environment d = true then .ok response
  else do
    let attempts ← Answer.of (env.count (d.at "physicalAttemptCount"))
    pure (.obj ((((((d.put "ok" (.bool false)).put "outcomeAmbiguous" (.bool true)).put "physicalAttemptCount"
      (.int (max 1 attempts))).put "retryAllowed" (.bool false)).put "accountBindingError"
        (.str "kis-order-ack-account-binding-missing-or-changed"))))

/-- The response that the dispatch classifies. -/
def sendOrder (env : Env) (brokerId : String) (a : Attempt) : Placement :=
  let placed := placeOrder env brokerId a
  let bound := if brokerId = "kis" then placed.answer >>= bindAccount env a else placed.answer
  { placed with answer := leaving a.release bound }

end LiveTrader.OrderDispatch
