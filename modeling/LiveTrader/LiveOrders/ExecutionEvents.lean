/-
# `LiveOrders.ExecutionEvents` — broker events applied to local orders

`apply_execution_events_to_local_orders` takes the events of all streams in the order they
arrive.  An event is applied to the first local order it matches and, where the order has one,
to its managed order in the OMS; the branch is chosen by the state that the event names.

The OMS is not part of this repository: its operations on a managed order, which change it in
place and may raise, are given (`Oms`).  Amounts are exact numbers.
-/
import LiveTrader.Lib.Json

namespace LiveTrader.LiveOrders

open Lib Lib.Py

/-! ## The OMS -/

/-- What is read of a managed order. -/
structure Managed where
  status : String
  /-- `intent.quantity`. -/
  quantity : ℚ
  filledQuantity : ℚ := 0
  averageFillPrice : ℚ := 0
  fee : ℚ := 0
  deriving DecidableEq

/-- A managed order after an operation, and the text of the `ValueError` where it raises. -/
abbrev Outcome := Managed × Option String

/-- The operations of `OrderManagementSystem` on one of its orders. -/
structure Oms where
  terminal : Managed → Bool
  acknowledge : Managed → String → Outcome
  /-- The quantity, the price, the fee and the broker's order id. -/
  applyFill : Managed → ℚ → ℚ → ℚ → String → Outcome
  markUnknown : Managed → String → Outcome
  reconcileUnknown : Managed → Fields → Outcome
  transition : Managed → String → String → Fields → Outcome

/-- What the orders are read with. -/
structure Env where
  /-- `float(value)`, or nothing where it raises. -/
  float : Json → Option ℚ
  /-- `str(value)` of a value that is no text. -/
  repr : Json → String
  isdigit : String → Bool
  /-- The tolerance of `_positive_watermark_delta`. -/
  tolerance : ℚ

/-- `safe_float(value, 0.0)`. -/
def Env.safeFloat (env : Env) (value : Json) : ℚ := (env.float value).getD 0

/-- `str(value or "")`. -/
def Env.text (env : Env) (value : Json) : String :=
  match value.orElse (.str "") with
  | .str s => s
  | v => env.repr v

/-! ## Which order an event is about -/

/-- `raw` where it is a dictionary. -/
def rawOf (item : Fields) : Fields :=
  match item.at "raw" with
  | .obj raw => raw
  | _ => []

/-- `_kis_order_key`. -/
def kisOrderKey (env : Env) (item : Fields) : String :=
  let raw := rawOf item
  let read (key : String) : String := strip (env.text ((item.at key).orElse (raw.at key)))
  let brokerOrderId := read "broker_order_id"
  let orderDate := read "order_date"
  let organizationNo := upper (read "organization_no")
  let explicit := read "broker_order_key"
  if explicit ≠ "" then
    match explicit.splitOn ":" with
    | [date, org, id] =>
      let date := strip date
      let org := upper (strip org)
      let id := strip id
      if date.length ≠ 8 ∨ env.isdigit date = false ∨ org = "" ∨ id = "" ∨ (brokerOrderId ≠ "" ∧ brokerOrderId ≠ id) ∨
          (orderDate ≠ "" ∧ orderDate ≠ date) ∨ (organizationNo ≠ "" ∧ organizationNo ≠ org) then ""
      else date ++ ":" ++ org ++ ":" ++ id
    | _ => ""
  else if orderDate.length = 8 ∧ env.isdigit orderDate = true ∧ organizationNo ≠ "" ∧ brokerOrderId ≠ "" then
    orderDate ++ ":" ++ organizationNo ++ ":" ++ brokerOrderId
  else ""

/-- `execution_event_matches_local_order`. -/
def executionEventMatchesLocalOrder (env : Env) (ambiguous : List String) (event order : Fields) : Bool :=
  let brokerId := lower (strip (env.text (event.at "broker_id")))
  if brokerId = "kis" then
    let brokerOrderId := strip (env.text (event.at "broker_order_id"))
    if brokerOrderId = "" ∨ brokerOrderId ∈ ambiguous then false
    else
      let eventKey := kisOrderKey env event
      let orderKey := kisOrderKey env order
      eventKey ≠ "" ∧ orderKey ≠ "" ∧ eventKey = orderKey
  else
    let identifiers := [strip (env.text (event.at "order_id")), strip (env.text (event.at "broker_order_id")),
      strip (env.text ((rawOf event).at "identifier"))]
    let known := (["order_id", "oms_order_id", "broker_order_id", "idempotency_key"] : List String).map fun key =>
      strip (env.text (order.at key))
    identifiers.any fun id => id ≠ "" ∧ id ≠ "-" ∧ id ∈ known

/-! ## What an event adds -/

/-- `_event_contract_value`. -/
def eventContractValue (event raw : Fields) (key : String) : Json :=
  match raw.lookup key with
  | some value => value
  | none => event.at key

/-- `value not in {None, ""}`. -/
def isGiven : Json → Result Bool
  | .null => .ok false
  | .str s => .ok (s ≠ "")
  | .arr _ => .error (.type "unhashable type: 'list'")
  | .obj _ => .error (.type "unhashable type: 'dict'")
  | _ => .ok true

/-- `_positive_watermark_delta`. -/
def positiveWatermarkDelta (env : Env) (total previous : ℚ) : ℚ :=
  let difference := total - previous
  let tolerance := max env.tolerance (|total| * env.tolerance)
  if tolerance < difference then difference else 0

/-- A mode of the contract, or `delta`. -/
def contractMode (env : Env) (event : Fields) (key fallback : String) : String :=
  lower (strip (env.text ((eventContractValue event (rawOf event) key).orElse (.str fallback))))

/-- `execution_event_uses_cumulative_watermark`. -/
def usesCumulativeWatermark (env : Env) (event : Fields) : Result Bool :=
  if lower (strip (env.text (event.at "broker_id"))) = "upbit" then .ok true
  else if contractMode env event "quantity_mode" "" = "cumulative" then .ok true
  else isGiven (eventContractValue event (rawOf event) "cumulative_quantity")

/-- What is booked of a quantity: the managed order's, or the order's. -/
def booked (env : Env) (order : Fields) (managed : Option Managed) (read : Managed → ℚ) (key : String) : ℚ :=
  max 0 (match managed with
    | some m => read m
    | none => env.safeFloat (order.at key))

/-- The quantity and the price beyond the watermark. -/
def watermarkFill (env : Env) (event order : Fields) (managed : Option Managed) (quantity price : ℚ) : Result (ℚ × ℚ) := do
  let raw := rawOf event
  let previousQuantity := booked env order managed (·.filledQuantity) "filled_quantity"
  let previousAveragePrice := booked env order managed (·.averageFillPrice) "average_fill_price"
  let value := eventContractValue event raw "cumulative_quantity"
  if (← isGiven value) then
    let cumulativeQuantity := max 0 (env.safeFloat value)
    let watermarkDelta := positiveWatermarkDelta env cumulativeQuantity previousQuantity
    if contractMode env event "quantity_mode" "delta" = "cumulative" then
      let cumulativeAveragePrice := max 0 (env.safeFloat (eventContractValue event raw "cumulative_average_price"))
      let deltaNotional := cumulativeQuantity * cumulativeAveragePrice - previousQuantity * previousAveragePrice
      if 0 < watermarkDelta ∧ 0 < cumulativeAveragePrice ∧ 0 < deltaNotional then
        pure (watermarkDelta, deltaNotional / watermarkDelta)
      else pure (watermarkDelta, price)
    else pure (min quantity watermarkDelta, price)
  else pure (quantity, price)

/-- The fee beyond the watermark. -/
def watermarkFee (env : Env) (event order : Fields) (managed : Option Managed) (fee : ℚ) : Result ℚ := do
  let value := eventContractValue event (rawOf event) "cumulative_fee"
  if (← isGiven value) then
    let cumulativeFee := max 0 (env.safeFloat value)
    let watermarkDelta := positiveWatermarkDelta env cumulativeFee (booked env order managed (·.fee) "fee")
    pure (if contractMode env event "fee_mode" "delta" = "cumulative" then watermarkDelta else min fee watermarkDelta)
  else pure fee

/-- A fill that an event adds. -/
structure Increment where
  quantity : ℚ
  price : ℚ
  fee : ℚ
  deriving DecidableEq

/-- `execution_event_increment`. -/
def executionEventIncrement (env : Env) (event order : Fields) (managed : Option Managed) : Result Increment := do
  let quantity := max 0 (env.safeFloat (event.at "quantity"))
  let price := max 0 (env.safeFloat (event.at "price"))
  let fee := max 0 (env.safeFloat (event.at "fee"))
  if (← usesCumulativeWatermark env event) then
    let (quantity, price) ← watermarkFill env event order managed quantity price
    let fee ← watermarkFee env event order managed fee
    pure { quantity, price, fee }
  else pure { quantity, price, fee }

/-- `has_fill_delta`. -/
def Increment.isFill (inc : Increment) : Bool := 0 < inc.quantity && 0 < inc.price

/-- What is written back into an event with a watermark. -/
def reportIncrement (env : Env) (event : Fields) (inc : Increment) : Fields :=
  let raw := rawOf event
  ((((((((event.put "reported_quantity" (.float (env.safeFloat (event.at "quantity")))).put
    "reported_fee" (.float (env.safeFloat (event.at "fee")))).put
    "reported_cumulative_quantity" (eventContractValue event raw "cumulative_quantity")).put
    "reported_cumulative_fee" (eventContractValue event raw "cumulative_fee")).put
    "quantity" (.float inc.quantity)).put
    "price" (.float inc.price)).put
    "fee" (.float inc.fee)).put
    "applied_quantity_mode" (.str "incremental"))

/-- The state that an event names. -/
def stateName (env : Env) (event : Fields) : String :=
  let raw := rawOf event
  let name := lower (strip (env.text ((event.at "state").orElse (event.at "status"))))
  let rawName := lower (strip (env.text ((raw.at "state").orElse (raw.at "status"))))
  if name = "unknown" ∧ rawName ≠ "" then rawName else name

/-- `fill_states`. -/
def fillStates : List String := ["partial", "partially_filled", "partially-filled", "filled", "done", "executed"]

/-- The states of a `final_fill`. -/
def finalStates : List String := ["filled", "done", "executed"]

def acknowledgedStates : List String := ["accepted", "acknowledged", "new", "open"]

def endStates : List String := ["rejected", "expired", "failed", "canceled"]

/-! ## The branches -/

/-- `order["reconciliation_warning"] = str(exc)`, where there is an exception. -/
def warn (order : Fields) : Option String → Fields
  | some message => order.put "reconciliation_warning" (.str message)
  | none => order

/-- `state`, `queue_state` and `reason` of an order. -/
def setState (order : Fields) (state queueState reason : String) : Fields :=
  ((order.put "state" (.str state)).put "queue_state" (.str queueState)).put "reason" (.str reason)

/-- `str(order.get("state") or "").lower()`. -/
def localState (env : Env) (order : Fields) : String := lower (env.text (order.at "state"))

/-- A fill is booked on the order. -/
def bookFill (env : Env) (order : Fields) (inc : Increment) : Fields :=
  let previousQuantity := env.safeFloat (order.at "filled_quantity")
  let previousNotional := env.safeFloat (order.at "average_fill_price") * previousQuantity
  let nextQuantity := previousQuantity + inc.quantity
  ((order.put "filled_quantity" (.float nextQuantity)).put
    "average_fill_price" (.float ((previousNotional + inc.quantity * inc.price) / nextQuantity))).put
    "fee" (.float (env.safeFloat (order.at "fee") + inc.fee))

/-- The amounts of the managed order. -/
def mirror (order : Fields) (m : Managed) : Fields :=
  ((order.put "filled_quantity" (.float m.filledQuantity)).put "average_fill_price" (.float m.averageFillPrice)).put
    "fee" (.float m.fee)

/-- A fill in the OMS: an order that is being submitted is acknowledged first. -/
def fillManaged (oms : Oms) (m : Managed) (brokerOrderId : String) (inc : Increment) : Outcome :=
  match (if m.status = "SUBMITTING" ∧ brokerOrderId ≠ "" then oms.acknowledge m brokerOrderId else (m, none) : Outcome) with
  | (m, some message) => (m, some message)
  | (m, none) =>
    let remaining := max 0 (m.quantity - m.filledQuantity)
    let appliedQuantity := min inc.quantity remaining
    if inc.isFill ∧ 0 < appliedQuantity then oms.applyFill m appliedQuantity inc.price inc.fee brokerOrderId
    else (m, none)

/-- A managed order whose final fill leaves it open. -/
def leaveUnknown (oms : Oms) (m : Managed) : Outcome :=
  if oms.terminal m = false ∧ m.status ≠ "UNKNOWN" then oms.markUnknown m "broker final fill quantity mismatch"
  else (m, none)

def finalFillMismatch : String := "브로커는 FILLED를 보고했지만 누적 체결 수량이 원 주문 수량과 일치하지 않습니다."

/-- An order with a fill, and its managed order. -/
def applyFillEvent (env : Env) (oms : Oms) (order : Fields) (managed : Option Managed) (brokerOrderId : String)
    (inc : Increment) (finalFill : Bool) : Fields × Option Managed :=
  let order := if inc.isFill then bookFill env order inc else order
  let filled (order : Fields) : Fields :=
    if finalFill then setState order "filled" "completed" "broker-filled"
    else setState order "partially_filled" "submitted" "broker-partially-filled"
  match managed with
  | none => (filled order, none)
  | some m =>
    let (m, raised) := fillManaged oms m brokerOrderId inc
    let order := mirror (warn order raised) m
    if finalFill ∧ m.status ≠ "FILLED" then
      let order := order.put "reconciliation_warning" (.str finalFillMismatch)
      let (m, raised) := leaveUnknown oms m
      (setState (warn order raised) "unknown" "reconcile_required" "broker-final-fill-quantity-mismatch", some m)
    else (filled order, some m)

/-- A cancel was requested and is not resolved. -/
def cancelReconciliationPending (env : Env) (order : Fields) : Bool :=
  localState env order ∈ ["cancel_pending", "unknown_cancel_result"] || (order.at "cancel_request_id").truthy

/-- A managed order that the broker has acknowledged. -/
def acknowledgeManaged (oms : Oms) (m : Managed) (brokerOrderId : String) : Outcome :=
  if m.status = "SUBMITTING" then oms.acknowledge m brokerOrderId
  else if m.status = "UNKNOWN" then
    oms.reconcileUnknown m [("brokerOrderId", .str brokerOrderId), ("status", .str "ACKNOWLEDGED")]
  else (m, none)

/-- An order that the broker reports as active. -/
def applyAcknowledgement (env : Env) (oms : Oms) (order : Fields) (managed : Option Managed) (brokerOrderId : String) :
    Fields × Option Managed :=
  if cancelReconciliationPending env order then
    -- an active snapshot after a cancel request is no proof that the cancel failed
    (((order.put "queue_state" (.str "reconcile_required")).put "reason" (.str "broker-active-after-cancel-request")).put
      "cancel_reconciliation" (.str "broker-still-active"), managed)
  else
    let acknowledged (order : Fields) : Fields := setState order "acknowledged" "submitted" "broker-acknowledged"
    match managed with
    | none => (acknowledged order, none)
    | some m =>
      if oms.terminal m then (acknowledged order, some m)
      else
        let (m, raised) := acknowledgeManaged oms m brokerOrderId
        (acknowledged (warn order raised), some m)

/-- The status in the OMS for the end that an event names. -/
def endTarget (name : String) : String :=
  if name = "expired" then "EXPIRED" else if name = "canceled" then "CANCELED" else "REJECTED"

/-- `filled_truth`. -/
def filledTruth (env : Env) (order : Fields) (managed : Option Managed) : Bool :=
  localState env order = "filled" || managed.any (·.status = "FILLED")

/-- The managed order at the end that an event names. -/
def endManaged (oms : Oms) (m : Managed) (name eventId : String) : Outcome :=
  if oms.terminal m then (m, none)
  else oms.transition m (endTarget name) ("broker event " ++ name) [("eventId", .str eventId)]

/-- An order that the broker reports as rejected, failed, expired or canceled. -/
def applyEnd (env : Env) (oms : Oms) (order : Fields) (managed : Option Managed) (name eventId : String) :
    Fields × Option Managed :=
  if name = "canceled" ∧ filledTruth env order managed = true then
    -- a late cancel event can race with the final fill, and the fill wins
    ((setState order "filled" "completed" "broker-filled-cancel-race").put
      "cancel_reconciliation" (.str "filled-truth-prevailed"), managed)
  else
    let state := if name = "rejected" ∨ name = "failed" then "broker_rejected" else name
    let queueState := if name = "canceled" then "canceled" else "failed"
    match managed with
    | none => (setState order state queueState ("broker-" ++ name), none)
    | some m =>
      let (m, raised) := endManaged oms m name eventId
      (setState (warn order raised) state queueState ("broker-" ++ name), some m)

/-- The branch of the state that an event names, or none where it is about no state. -/
def applyState (env : Env) (oms : Oms) (order : Fields) (managed : Option Managed) (name brokerOrderId eventId : String)
    (inc : Increment) : Option (Fields × Option Managed) :=
  let finalFill : Bool := name ∈ finalStates
  if name ∈ fillStates ∧ (inc.isFill = true ∨ finalFill = true) then
    some (applyFillEvent env oms order managed brokerOrderId inc finalFill)
  else if name ∈ acknowledgedStates then some (applyAcknowledgement env oms order managed brokerOrderId)
  else if name ∈ endStates then some (applyEnd env oms order managed name eventId)
  else none

/-! ## One event -/

structure World where
  orders : List Fields
  /-- `LIVE_OMS.orders`. -/
  managed : Dict String Managed := []
  /-- `_kis_ambiguous_broker_order_ids()`. -/
  ambiguous : List String := []

namespace World

def order (w : World) (i : ℕ) : Fields := w.orders.getD i []

/-- The managed order of a local order. -/
def managedOf (env : Env) (w : World) (order : Fields) : Option Managed :=
  w.managed.lookup (env.text (order.at "oms_order_id"))

def setOrder (w : World) (i : ℕ) (order : Fields) : World := { w with orders := w.orders.set i order }

/-- The managed order of a local order has changed. -/
def setManaged (w : World) (omsOrderId : String) : Option Managed → World
  | some m => { w with managed := w.managed.set omsOrderId m }
  | none => w

/-- The first local order that an event matches. -/
def target (env : Env) (w : World) (event : Fields) : Option ℕ :=
  w.orders.findIdx? (executionEventMatchesLocalOrder env w.ambiguous event)

end World

/-- `broker_order_id` of an event, or of its order. -/
def brokerOrderIdOf (env : Env) (event order : Fields) : String :=
  strip (env.text ((event.at "broker_order_id").orElse (order.at "broker_order_id")))

/-- The order with its broker's identifier. -/
def identified (order : Fields) (brokerOrderId : String) : Fields :=
  if brokerOrderId ≠ "" then order.put "broker_order_id" (.str brokerOrderId) else order

/-- `oms_status` and `last_execution_event_id`. -/
def conclude (order : Fields) (managed : Option Managed) (eventId : String) : Fields :=
  (match managed with
    | some m => order.put "oms_status" (.str m.status)
    | none => order).put "last_execution_event_id" (.str eventId)

def eventIdOf (env : Env) (event : Fields) : String := strip (env.text (event.at "event_id"))

/-- The loop body: the event as it is left, and whether an order was updated. -/
def applyEvent (env : Env) (oms : Oms) (w : World) (event : Fields) : World × Result (Fields × Bool) :=
  match w.target env event with
  | none => (w, .ok (event, false))
  | some i =>
    let brokerOrderId := brokerOrderIdOf env event (w.order i)
    let order := identified (w.order i) brokerOrderId
    let managed := w.managedOf env order
    match executionEventIncrement env event order managed, usesCumulativeWatermark env event with
    | .ok inc, .ok watermark =>
      let reported := if watermark then reportIncrement env event inc else event
      match applyState env oms order managed (stateName env event) brokerOrderId (eventIdOf env event) inc with
      | none => (w.setOrder i order, .ok (reported, false))
      | some (order', managed') =>
        ((w.setOrder i (conclude order' managed' (eventIdOf env event))).setManaged
          (env.text (order.at "oms_order_id")) managed', .ok (reported, true))
    | .error e, _ | _, .error e => (w.setOrder i order, .error e)

/-- `apply_execution_events_to_local_orders`: the events as they are left, and how many orders were
updated. -/
def applyExecutionEvents (env : Env) (oms : Oms) (w : World) (known : List String) :
    List Fields → World × Result (List Fields × ℕ)
  | [] => (w, .ok ([], 0))
  | event :: rest =>
    let eventId := eventIdOf env event
    if eventId = "" ∨ eventId ∈ known then
      let (w', result) := applyExecutionEvents env oms w known rest
      (w', result.map fun (events, updated) => (event :: events, updated))
    else
      match applyEvent env oms w event with
      | (w', .error e) => (w', .error e)
      | (w', .ok (event', counted)) =>
        let (w'', result) := applyExecutionEvents env oms w' (eventId :: known) rest
        (w'', result.map fun (events, updated) => (event' :: events, updated + if counted then 1 else 0))

end LiveTrader.LiveOrders
