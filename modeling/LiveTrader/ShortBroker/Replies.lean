/-
# `ShortBroker.Replies` — what the adapter makes of replies and observations

`_normalize_reply` flattens the replies of three exchanges by a chain of tests, the first of which
decides.  `_read_claim_truth` joins the one exact read of an order with its claim.  A row is a
dictionary as the reader gives it; whether it is fresh is a part of the answer (`Observed`).

`refusesReply` and `endsUnfilled` say what a reply or a row states, for the log; no function of the
adapter uses them.
-/
import LiveTrader.Lib.Json
import Mathlib.Algebra.Order.Ring.Rat

namespace LiveTrader.ShortBroker

open Lib Lib.Py

/-! ## Values -/

inductive Exchange where
  | kis
  | upbit
  | binance
  deriving DecidableEq, Repr

/-- `ROUTES`. -/
inductive Route where
  | kisKrCash
  | upbitKrwSpot
  | binanceSpot
  | binanceUsdmFutures
  deriving DecidableEq, Repr

def Route.exchange : Route → Exchange
  | .kisKrCash => .kis
  | .upbitKrwSpot => .upbit
  | .binanceSpot | .binanceUsdmFutures => .binance

structure Env where
  /-- `str` on a value that is not a text. -/
  repr : Json → String
  /-- `Decimal(str(value))`, where it is finite. -/
  decimal : Json → Option ℚ

variable (env : Env)

/-- `str(value)`. -/
def Env.str : Json → String
  | .str text => text
  | value => env.repr value

def blocked (code : String) : Error := .value code

/-- `number(value)`. -/
def number : Json → Result ℚ
  | .null | .bool _ => .error (blocked "NUMBER_UNKNOWN")
  | value =>
    match env.decimal value with
    | some amount => .ok amount
    | none => .error (blocked "NUMBER_INVALID")

/-- `number(value, positive=True)`. -/
def positiveNumber (value : Json) : Result ℚ := do
  let amount ← number env value
  require (0 < amount) (blocked "NUMBER_INVALID")
  pure amount

/-- `value is not None`. -/
def isSome : Json → Bool
  | .null => false
  | _ => true

/-! ## Orders and claims -/

/-- The fields of a reserved order that decide about its dispatch. -/
structure Order where
  clientOrderId : String
  symbol : String
  side : String
  /-- `number(order["quantity"])`. -/
  quantity : ℚ
  riskReducing : Bool
  /-- `order.get("positionDirection", "long")`. -/
  positionDirection : Json

inductive Status where
  | unknown
  | accepted
  | part
  | filled
  | canceled
  | rejected
  /-- What an external execution was reported with. -/
  | reported (value : Json)

structure Claim where
  status : Status
  symbol : String
  side : String
  quantity : ℚ
  brokerOrderId : String
  positionSide : String
  externalExecution : Bool

/-! ## Replies -/

/-- `_UPBIT_ORDER_REJECTIONS`. -/
def upbitOrderRejections : List String :=
  ["create_ask_error", "create_bid_error", "insufficient_funds_ask", "insufficient_funds_bid", "under_min_total_ask",
    "under_min_total_bid", "validation_error", "invalid_parameter", "invalid_post_only"]

structure Reply where
  status : Status
  brokerOrderId : String

def Reply.unknown : Reply := ⟨.unknown, ""⟩

def Reply.rejected : Reply := ⟨.rejected, ""⟩

/-- `response.get("json", response)`. -/
def bodyOf (response : Fields) : Json := (response.lookup "json").getD (.obj response)

/-- The reply does not say what became of the order. -/
def ambiguous (response : Fields) : Result Bool :=
  if (response.at "outcomeAmbiguous").isTrue || (response.at "redirectBlocked").isTrue then .ok true
  else if isSome (response.at "statusCode") then do
    let code ← number env (response.at "statusCode")
    pure (code = 0 || 500 ≤ code)
  else .ok false

/-- `rt_cd` is there and not `"0"`. -/
def refusedByKis (body : Fields) : Bool := isSome (body.at "rt_cd") && env.str (body.at "rt_cd") != "0"

/-- A negative code of Binance, with its value. -/
def negativeCode (body : Fields) : Result (Option ℚ) :=
  if isSome (body.at "code") then do
    let code ← number env (body.at "code")
    pure (if code < 0 then some code else none)
  else .ok none

/-- The codes after which the outcome is unknown. -/
def timeoutCodes : List ℚ := [-1006, -1007]

/-- `explicit_upbit_order_rejection`. -/
def explicitUpbitOrderRejection (body : Fields) : Result Bool :=
  match body.at "error" with
  | .obj error => (Fields.at error "name").isOneOf upbitOrderRejections
  | _ => .ok false

def outputOf (body : Fields) : Fields :=
  match body.at "output" with
  | .obj output => output
  | _ => []

def brokerIdOf (body : Fields) : String :=
  env.str ((body.at "orderId").orElse ((body.at "uuid").orElse
    (((outputOf body).at "ODNO").orElse (((outputOf body).at "odno").orElse (.str "")))))

/-- `body.get("clientOrderId") or body.get("identifier")`, if it is there, is another one. -/
def otherClientId (body : Fields) (clientOrderId : String) : Bool :=
  let clientId := (body.at "clientOrderId").orElse (body.at "identifier")
  isSome clientId && env.str clientId != clientOrderId

def stateOf (body : Fields) : String :=
  upper (env.str ((body.at "status").orElse ((body.at "state").orElse (.str "ACCEPTED"))))

/-- `body.get("executedQty", body.get("executed_volume", 0))`. -/
def executedOf (body : Fields) : Json :=
  (body.lookup "executedQty").getD ((body.lookup "executed_volume").getD (.int 0))

/-- `paid_fee`, which must be a number. -/
def checkFee (body : Fields) : Result Unit :=
  if isSome (body.at "paid_fee") then do
    let _ ← number env (body.at "paid_fee")
    pure ()
  else .ok ()

/-- The state of an order that the reply identifies. -/
def orderReply (body : Fields) (order : Order) : Result Reply := do
  let filled ← number env (executedOf body)
  checkFee env body
  let state := stateOf env body
  pure ⟨if state ∈ ["FILLED", "DONE"] ∧ filled = order.quantity then .filled
    else if state ∈ ["REJECTED", "EXPIRED"] then .rejected else .accepted, brokerIdOf env body⟩

/-- The tests after the error codes. -/
def identifiedReply (response body : Fields) (order : Order) : Result Reply :=
  if (response.at "ok").isFalse then .ok .unknown
  else if brokerIdOf env body = "" then .ok .unknown
  else if otherClientId env body order.clientOrderId then .ok .unknown
  else orderReply env body order

/-- `_normalize_reply`. -/
def normalizeReply (response : Json) (order : Order) : Result Reply :=
  match response with
  | .obj response =>
    match bodyOf response with
    | .obj body => do
      let unclear ← ambiguous env response
      if unclear then .ok .unknown
      else if refusedByKis env body then .ok .rejected
      else
        match ← negativeCode env body with
        | some code => .ok (if code ∈ timeoutCodes then .unknown else .rejected)
        | none => do
          let refused ← explicitUpbitOrderRejection body
          if refused then .ok .rejected else identifiedReply env response body order
    | _ => .ok .unknown
  | _ => .ok .unknown

/-! ## Observations -/

/-- A row of the order reader, and whether its `observedAt` is within thirty seconds. -/
structure Observed where
  row : Fields
  fresh : Bool

/-- `value == text`. -/
def equals (value : Json) (text : String) : Bool :=
  match value with
  | .str other => other == text
  | _ => false

/-- `row.get("brokerOrderId") or ""`, as a text. -/
def rowBrokerId (row : Fields) : String := env.str ((row.at "brokerOrderId").orElse (.str ""))

/-- The row is about the order of the claim. -/
def exactRow (claim : Claim) (clientId : String) (row : Fields) : Bool :=
  (row.at "known").isTrue && rowBrokerId env row != "" &&
    (claim.brokerOrderId = "" || rowBrokerId env row = claim.brokerOrderId) &&
    equals (row.at "symbol") claim.symbol &&
    (!isSome (row.at "clientOrderId") || equals (row.at "clientOrderId") "" || equals (row.at "clientOrderId") clientId)

/-- What the futures route asks in addition. -/
def exactFuturesRow (claim : Claim) (clientId : String) (row : Fields) : Result Bool :=
  if claim.externalExecution then .error (.key "positionSide")
  else if equals (row.at "side") claim.side && equals (row.at "positionSide") claim.positionSide then
    if claim.brokerOrderId = "" then
      if equals (row.at "clientOrderId") clientId then do
        let quantity ← positiveNumber env (row.at "quantity")
        pure (quantity = claim.quantity)
      else .ok false
    else .ok true
  else .ok false

/-- What the route asks in addition. -/
def exactOnRoute (route : Route) (claim : Claim) (clientId : String) (row : Fields) : Result Bool :=
  if route = .binanceUsdmFutures then exactFuturesRow env claim clientId row else .ok true

def Status.isUnknown : Status → Bool
  | .unknown => true
  | _ => false

/-- `_read_claim_truth`: the row, whose broker id becomes that of the claim. -/
def readClaimTruth (route : Route) (claim : Claim) (clientId : String) (answer : Result Observed) : Result Fields := do
  require (claim.brokerOrderId ≠ "" ∨ (route = .binanceUsdmFutures ∧ claim.status.isUnknown = true))
    (blocked "ORDER_REPLY_UNKNOWN")
  let observed ← answer
  require (exactRow env claim clientId observed.row = true) (blocked "EXACT_OWNED_ORDER_TRUTH_REQUIRED")
  let exact ← exactOnRoute env route claim clientId observed.row
  require (exact = true) (blocked "EXACT_OWNED_ORDER_TRUTH_REQUIRED")
  require (observed.fresh = true) (blocked "OBSERVATION_STALE")
  require (equals (observed.row.at "status") "UNKNOWN" = false) (blocked "OWNED_ORDER_STATE_UNKNOWN")
  pure observed.row

/-- `str(row.get("status") or "UNKNOWN").upper()`. -/
def rowState (row : Fields) : String := upper (env.str ((row.at "status").orElse (.str "UNKNOWN")))

/-- `_ACTIVE`. -/
def active : List String :=
  ["NEW", "OPEN", "WAIT", "WATCH", "ACCEPTED", "PARTIALLY_FILLED", "PENDING_CANCEL", "UNKNOWN"]

/-- The state that `observe_order` reports. -/
def observedStatus (state : String) (filled quantity : ℚ) : Status :=
  if state = "FILLED" ∧ filled = quantity then .filled
  else if state ∈ ["CANCELED", "CANCELLED", "EXPIRED"] then .canceled
  else if state = "REJECTED" then .rejected
  else if state ∈ "PARTIAL" :: active ∧ 0 < filled then .part
  else if state ∈ active then .accepted
  else .unknown

/-- The quantity that the last row of the order has shown. -/
def shownQuantity (fillRows : Dict String Fields) (clientId : String) : Result ℚ :=
  match fillRows.lookup clientId with
  | none => .ok 0
  | some row => number env ((row.lookup "filledQuantity").getD (.int 0))

/-- What `observe_order` reads off a row: the status and the executed quantity. -/
def observeRow (route : Route) (claim : Claim) (fillRows : Dict String Fields) (clientId : String) (row : Fields) :
    Result (Status × ℚ) := do
  let filled ← number env (row.at "filledQuantity")
  require (¬ (route = .binanceSpot ∧ 0 < filled ∧ (row.at "baseCommissionKnown").isTrue = false))
    (blocked "ACTUAL_BASE_COMMISSION_UNKNOWN")
  let shown ← shownQuantity env fillRows clientId
  require (shown ≤ filled ∧ filled ≤ claim.quantity) (blocked "CUMULATIVE_FILL_CHANGED")
  let status := observedStatus (rowState env row) filled claim.quantity
  require (status.isUnknown = false) (blocked "EXACT_ORDER_STATE_UNKNOWN")
  pure (status, filled)

/-- The row is final, and nothing is executed. -/
def finalUnfilled (row : Fields) : Result Bool := do
  let final ← (row.at "status").isOneOf ["REJECTED", "CANCELED", "EXPIRED"]
  if final then do
    let filled ← number env (row.at "filledQuantity")
    pure (filled = 0)
  else pure false

/-- The row is `FILLED` with the whole quantity. -/
def completelyFilled (row : Fields) (quantity : ℚ) : Result Bool :=
  if equals (row.at "status") "FILLED" then do
    let filled ← number env (row.at "filledQuantity")
    pure (filled = quantity)
  else .ok false

/-- The status that `submit` gives an order after its first observation. -/
def firstStatus (row : Fields) (quantity : ℚ) : Result Status := do
  let complete ← completelyFilled env row quantity
  if complete then pure .filled
  else do
    let unfilled ← finalUnfilled env row
    pure (if unfilled then .rejected else .accepted)

/-! ## What is stated -/

/-- The executed quantity that a reply states. -/
def statedReply : Json → Option ℚ
  | .obj response =>
    match bodyOf response with
    | .obj body => (number env (executedOf body)).toOption
    | _ => none
  | _ => none

/-- A code that refuses the order. -/
def refusesByCode (body : Fields) : Bool :=
  match negativeCode env body with
  | .ok (some code) => code ∉ timeoutCodes
  | _ => false

/-- The reply shows this order in a final state that it did not reach by executions. -/
def refusesByState (response body : Fields) (clientOrderId : String) : Bool :=
  !(response.at "ok").isFalse && brokerIdOf env body != "" && !otherClientId env body clientOrderId &&
    stateOf env body ∈ ["REJECTED", "EXPIRED"]

/-- The reply refuses the order, by a code or by its state. -/
def refusesReply (clientOrderId : String) : Json → Bool
  | .obj response =>
    match bodyOf response with
    | .obj body =>
      !(ambiguous env response).toOption.any (· = true) &&
        (refusedByKis env body || refusesByCode env body ||
          (explicitUpbitOrderRejection body).toOption.any (· = true) || refusesByState env response body clientOrderId)
    | _ => false
  | _ => false

/-- The row shows the order as final, with nothing executed. -/
def endsUnfilled (row : Fields) : Bool :=
  rowState env row ∈ ["REJECTED", "CANCELED", "CANCELLED", "EXPIRED"] && (number env (row.at "filledQuantity")).toOption = some 0

/-! ## Rejections -/

/-- A reply says nothing, refuses the order by a code, or identifies it and gives its state. -/
theorem normalizeReply_cases {response : Json} {order : Order} {reply : Reply}
    (h : normalizeReply env response order = .ok reply) : reply = .unknown ∨ ∃ fields body, response = .obj fields ∧
      bodyOf fields = .obj body ∧ ambiguous env fields = .ok false ∧
      (reply = .rejected ∧ (refusedByKis env body || refusesByCode env body ||
          (explicitUpbitOrderRejection body).toOption.any (· = true)) = true ∨
        (Fields.at fields "ok").isFalse = false ∧ brokerIdOf env body ≠ "" ∧
          otherClientId env body order.clientOrderId = false ∧ orderReply env body order = .ok reply) := by
  cases response with
  | obj fields =>
    rw [normalizeReply] at h
    cases hbody : bodyOf fields with
    | obj body =>
      rw [hbody] at h
      obtain ⟨unclear, hunclear, h⟩ := bind_eq_ok.mp h
      cases unclear with
      | true => exact .inl (Except.ok.inj h).symm
      | false =>
        simp only [Bool.false_eq_true, if_false] at h
        cases hkis : refusedByKis env body with
        | true =>
          rw [hkis] at h
          refine .inr ⟨fields, body, rfl, hbody, hunclear, .inl ⟨(Except.ok.inj h).symm, ?_⟩⟩
          rw [hkis, Bool.true_or, Bool.true_or]
        | false =>
          rw [hkis] at h
          simp only [Bool.false_eq_true, if_false] at h
          obtain ⟨code, hcode, h⟩ := bind_eq_ok.mp h
          cases code with
          | some code =>
            dsimp only at h
            by_cases htimeout : code ∈ timeoutCodes
            · rw [if_pos htimeout] at h
              exact .inl (Except.ok.inj h).symm
            · rw [if_neg htimeout] at h
              refine .inr ⟨fields, body, rfl, hbody, hunclear, .inl ⟨(Except.ok.inj h).symm, ?_⟩⟩
              have hrefuses : refusesByCode env body = true := by
                rw [refusesByCode, hcode]
                exact decide_eq_true htimeout
              rw [hrefuses, Bool.or_true, Bool.true_or]
          | none =>
            obtain ⟨refused, hrefused, h⟩ := bind_eq_ok.mp h
            cases refused with
            | true =>
              refine .inr ⟨fields, body, rfl, hbody, hunclear, .inl ⟨(Except.ok.inj h).symm, ?_⟩⟩
              rw [hrefused]
              exact Bool.or_true _
            | false =>
              simp only [Bool.false_eq_true, if_false] at h
              rw [identifiedReply] at h
              split at h
              · exact .inl (Except.ok.inj h).symm
              · next hok =>
                split at h
                · exact .inl (Except.ok.inj h).symm
                · next hid =>
                  split at h
                  · exact .inl (Except.ok.inj h).symm
                  · next hclient =>
                    exact .inr ⟨fields, body, rfl, hbody, hunclear,
                      .inr ⟨Bool.eq_false_iff.mpr hok, hid, Bool.eq_false_iff.mpr hclient, h⟩⟩
    | _ =>
      rw [hbody] at h
      exact .inl (Except.ok.inj h).symm
  | _ => exact .inl (Except.ok.inj h).symm

theorem orderReply_cases {body : Fields} {order : Order} {reply : Reply} (h : orderReply env body order = .ok reply) :
    (reply.status = .filled ∧ number env (executedOf body) = .ok order.quantity) ∨
      (reply.status = .rejected ∧ stateOf env body ∈ ["REJECTED", "EXPIRED"]) ∨ reply.status = .accepted := by
  obtain ⟨filled, hread, h⟩ := bind_eq_ok.mp h
  obtain ⟨-, -, h⟩ := bind_eq_ok.mp h
  obtain rfl := Except.ok.inj h
  dsimp only
  split
  · next hcomplete =>
    rw [hread, hcomplete.2]
    exact .inl ⟨rfl, rfl⟩
  · split
    · next hstate => exact .inr (.inl ⟨rfl, hstate⟩)
    · exact .inr (.inr rfl)

/-- A reply that is taken for a rejection refuses the order. -/
theorem refuses_of_rejected {response : Json} {order : Order} {reply : Reply}
    (h : normalizeReply env response order = .ok reply) (hrejected : reply.status = .rejected) :
    refusesReply env order.clientOrderId response = true := by
  rcases normalizeReply_cases env h with rfl | ⟨fields, body, rfl, hbody, hclear, hreply⟩
  · cases hrejected
  · rw [refusesReply, hbody]
    dsimp only
    rw [hclear, Bool.and_eq_true]
    refine ⟨rfl, ?_⟩
    rcases hreply with ⟨-, hcode⟩ | ⟨hok, hid, hclient, hstate⟩
    · rw [hcode, Bool.true_or]
    · have hfinal : refusesByState env fields body order.clientOrderId = true := by
        rcases orderReply_cases env hstate with ⟨hfilled, -⟩ | ⟨-, hstate⟩ | haccepted
        · rw [hrejected] at hfilled
          cases hfilled
        · rw [refusesByState, hok, hclient]
          simp [hid, hstate]
        · rw [hrejected] at haccepted
          cases haccepted
      rw [hfinal, Bool.or_true]

/-- A reply that is taken for a complete fill states the whole quantity. -/
theorem stated_of_filled {response : Json} {order : Order} {reply : Reply}
    (h : normalizeReply env response order = .ok reply) (hfilled : reply.status = .filled) :
    statedReply env response = some order.quantity := by
  rcases normalizeReply_cases env h with rfl | ⟨fields, body, rfl, hbody, -, ⟨rfl, -⟩ | ⟨-, -, -, hstate⟩⟩
  · cases hfilled
  · cases hfilled
  · rcases orderReply_cases env hstate with ⟨-, hread⟩ | ⟨hrejected, -⟩ | haccepted
    · rw [statedReply, hbody]
      dsimp only
      rw [hread]
      rfl
    · rw [hfilled] at hrejected
      cases hrejected
    · rw [hfilled] at haccepted
      cases haccepted

theorem normalizeReply_ne_reported {response : Json} {order : Order} {reply : Reply}
    (h : normalizeReply env response order = .ok reply) (value : Json) : reply.status ≠ .reported value := by
  intro hvalue
  rcases normalizeReply_cases env h with rfl | ⟨fields, body, rfl, -, -, ⟨rfl, -⟩ | ⟨-, -, -, hstate⟩⟩
  · cases hvalue
  · cases hvalue
  · rcases orderReply_cases env hstate with ⟨hother, -⟩ | ⟨hother, -⟩ | hother
    · rw [hvalue] at hother
      cases hother
    · rw [hvalue] at hother
      cases hother
    · rw [hvalue] at hother
      cases hother

theorem upper_of_final : ∀ text ∈ ["REJECTED", "CANCELED", "EXPIRED"],
    text ≠ "" ∧ upper text ∈ ["REJECTED", "CANCELED", "CANCELLED", "EXPIRED"] := by
  decide

/-- What `submit` makes of the first row says what the row says. -/
theorem firstStatus_cases {row : Fields} {quantity : ℚ} {status : Status} (h : firstStatus env row quantity = .ok status) :
    (status = .filled ∧ number env (row.at "filledQuantity") = .ok quantity) ∨
      (status = .rejected ∧ endsUnfilled env row = true) ∨ status = .accepted := by
  obtain ⟨complete, hcomplete, h⟩ := bind_eq_ok.mp h
  cases complete with
  | true =>
    obtain rfl := Except.ok.inj h
    refine .inl ⟨rfl, ?_⟩
    rw [completelyFilled] at hcomplete
    split at hcomplete
    · obtain ⟨filled, hread, hcomplete⟩ := bind_eq_ok.mp hcomplete
      rw [hread, of_decide_eq_true (Except.ok.inj hcomplete)]
    · cases hcomplete
  | false =>
    refine .inr ?_
    obtain ⟨unfilled, hunfilled, h⟩ := bind_eq_ok.mp h
    cases unfilled with
    | false => exact .inr (Except.ok.inj h).symm
    | true =>
      refine .inl ⟨(Except.ok.inj h).symm, ?_⟩
      obtain ⟨final, hfinal, hunfilled⟩ := bind_eq_ok.mp hunfilled
      cases final with
      | false => cases hunfilled
      | true =>
        obtain ⟨filled, hread, hunfilled⟩ := bind_eq_ok.mp hunfilled
        rw [endsUnfilled, hread, of_decide_eq_true (Except.ok.inj hunfilled)]
        cases hstatus : row.at "status" with
        | str text =>
          rw [hstatus] at hfinal
          have hmem : text ∈ ["REJECTED", "CANCELED", "EXPIRED"] := of_decide_eq_true (Except.ok.inj hfinal)
          obtain ⟨hne, hupper⟩ := upper_of_final text hmem
          have htext : env.str ((Json.str text).orElse (.str "UNKNOWN")) = text := by
            rw [Json.orElse, if_pos (by rw [Json.truthy]; exact bne_iff_ne.mpr hne), Env.str]
          rw [rowState, hstatus, htext, Bool.and_eq_true]
          exact ⟨decide_eq_true hupper, rfl⟩
        | _ =>
          rw [hstatus] at hfinal
          cases hfinal

/-- What `observe_order` makes of a row says what the row says. -/
theorem observeRow_cases {route : Route} {claim : Claim} {fillRows : Dict String Fields} {clientId : String} {row : Fields}
    {status : Status} {filled : ℚ} (h : observeRow env route claim fillRows clientId row = .ok (status, filled)) :
    number env (row.at "filledQuantity") = .ok filled ∧ ((status = .filled ∧ filled = claim.quantity) ∨
      status = .canceled ∨ (status = .rejected ∧ rowState env row = "REJECTED") ∨ status = .part ∨ status = .accepted) := by
  obtain ⟨filled', hread, h⟩ := bind_eq_ok.mp h
  obtain ⟨-, -, h⟩ := bind_eq_ok.mp h
  obtain ⟨shown, -, h⟩ := bind_eq_ok.mp h
  obtain ⟨-, -, h⟩ := bind_eq_ok.mp h
  obtain ⟨_, hknown, h⟩ := bind_eq_ok.mp h
  obtain ⟨rfl, rfl⟩ := Prod.mk.inj (Except.ok.inj h)
  refine ⟨hread, ?_⟩
  rw [require_eq_ok] at hknown
  rw [observedStatus] at hknown ⊢
  split
  · next hcomplete => exact .inl ⟨rfl, hcomplete.2⟩
  · next hincomplete =>
    rw [if_neg hincomplete] at hknown
    split
    · exact .inr (.inl rfl)
    · next hcanceled =>
      rw [if_neg hcanceled] at hknown
      split
      · next hrejected => exact .inr (.inr (.inl ⟨rfl, hrejected⟩))
      · next hrejected =>
        rw [if_neg hrejected] at hknown
        split
        · exact .inr (.inr (.inr (.inl rfl)))
        · next hpart =>
          rw [if_neg hpart] at hknown
          split
          · exact .inr (.inr (.inr (.inr rfl)))
          · next hactive =>
            rw [if_neg hactive] at hknown
            cases hknown

/-- The row of a claim is that of the answer. -/
theorem readClaimTruth_eq_ok {route : Route} {claim : Claim} {clientId : String} {answer : Result Observed} {row : Fields}
    (h : readClaimTruth env route claim clientId answer = .ok row) : ∃ observed, answer = .ok observed ∧ observed.row = row := by
  obtain ⟨-, -, h⟩ := bind_eq_ok.mp h
  obtain ⟨observed, hobserved, h⟩ := bind_eq_ok.mp h
  obtain ⟨-, -, h⟩ := bind_eq_ok.mp h
  obtain ⟨exact', -, h⟩ := bind_eq_ok.mp h
  obtain ⟨-, -, h⟩ := bind_eq_ok.mp h
  obtain ⟨-, -, h⟩ := bind_eq_ok.mp h
  obtain ⟨-, -, h⟩ := bind_eq_ok.mp h
  exact ⟨observed, hobserved, Except.ok.inj h⟩

end LiveTrader.ShortBroker
