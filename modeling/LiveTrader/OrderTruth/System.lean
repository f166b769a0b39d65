/-
# `OrderTruth.System` — the list of orders, its checkpoints and the journal

The rows of `order_dispatch_journal` with the functions that write and read them, and
`merge_recovered_orders`: the orders of a recovery checkpoint and those of the journal, one
record for each order id, the journal's where it has one, and of these the fifty that were
updated last.

The order list of the process, `STATE["orders"]`, holds the fifty orders that were submitted last.
A submission writes its order to the journal and a copy to the recovery checkpoint, calls the
broker, writes the outcome to the journal and only then puts the order on the list.  Polls of
execution events change the records of the list, and nothing else.  A crash loses the list; the
restart makes it from a checkpoint and the journal.

Any number of submissions are under way at a time, and each may end with an exception.
-/
import LiveTrader.Lib.Recent
import LiveTrader.Lib.Runs
import LiveTrader.LiveOrders.Kept
import Mathlib.Data.Prod.Lex
import Mathlib.Logic.Function.Basic

namespace LiveTrader.OrderTruth

open Lib Lib.Py

open LiveOrders (Env)

/-! ## Order records -/

/-- `str(item.get("order_id") or "")`. -/
def orderIdOf (env : Env) (item : Fields) : String := env.text (item.at "order_id")

/-- `str(item.get("idempotency_key") or "")`. -/
def keyOf (env : Env) (item : Fields) : String := env.text (item.at "idempotency_key")

/-- `order.setdefault(key, value)`. -/
def setDefault (order : Fields) (key : String) (value : Json) : Fields :=
  if (order.lookup key).isSome then order else order.put key value

/-- `order.update(patch)`. -/
def update (order : Fields) (patch : Fields) : Fields := patch.foldl (fun order e => order.put e.1 e.2) order

/-! ## The journal -/

/-- A row of `order_dispatch_journal`; `order_id` and `idempotency_key` are unique. -/
structure Row where
  orderId : String
  idempotencyKey : String
  brokerId : String
  brokerOrderId : String
  state : String
  createdAt : String
  updatedAt : String
  /-- What is read of `order_json`. -/
  order : Fields

/-- `_dispatch_order_from_row`. -/
def dispatchOrderFromRow (env : Env) (row : Row) : Fields :=
  let order := setDefault row.order "order_id" (.str row.orderId)
  let order := setDefault order "idempotency_key" (.str row.idempotencyKey)
  let order := setDefault order "broker_id" (.str row.brokerId)
  let order := setDefault order "broker_order_id" (.str row.brokerOrderId)
  let order := order.put "state" (.str (Py.orElse row.state (env.text (order.at "state"))))
  let order := setDefault order "created_at" (.str row.createdAt)
  order.put "updated_at" (.str (Py.orElse row.updatedAt (env.text (order.at "updated_at"))))

/-- `checkpoint_order_dispatch`: whether the row is new. -/
def checkpointOrderDispatch (env : Env) (journal : List Row) (order : Fields) (now : String) :
    Result (Bool × List Row) := do
  let orderId := strip (orderIdOf env order)
  let idempotencyKey := strip (keyOf env order)
  let brokerId := lower (strip (env.text (order.at "broker_id")))
  require (orderId ≠ "" ∧ idempotencyKey ≠ "" ∧ brokerId ≠ "")
    (.value "order_id, idempotency_key, and broker_id are required")
  let createdAt := env.text (((order.at "created_at").orElse (order.at "time")).orElse (.str now))
  let updatedAt := env.text ((order.at "updated_at").orElse (.str createdAt))
  if journal.any fun row => row.orderId = orderId || row.idempotencyKey = idempotencyKey then return (false, journal)
  return (true, journal ++ [{ orderId, idempotencyKey, brokerId, createdAt, updatedAt, order
                              brokerOrderId := env.text (order.at "broker_order_id")
                              state := env.text ((order.at "state").orElse (.str "dispatch_pending")) }])

/-- `update_order_dispatch`: whether one row was changed. -/
def updateOrderDispatch (env : Env) (journal : List Row) (order : Fields) (now : String) : Bool × List Row :=
  let orderId := strip (orderIdOf env order)
  let idempotencyKey := strip (keyOf env order)
  if orderId = "" ∨ idempotencyKey = "" then (false, journal)
  else
    let owns (row : Row) : Bool := row.orderId = orderId && row.idempotencyKey = idempotencyKey
    (journal.countP owns = 1, journal.map fun row =>
      if owns row then { row with
        brokerOrderId := env.text (order.at "broker_order_id")
        state := env.text (order.at "state")
        updatedAt := env.text ((order.at "updated_at").orElse (.str now))
        order }
      else row)

/-- `ORDER BY updated_at DESC, order_id DESC`. -/
def Row.recency (row : Row) : List Char ×ₗ List Char := toLex (row.updatedAt.toList, row.orderId.toList)

/-- `order_dispatch_rows`. -/
def orderDispatchRows (env : Env) (journal : List Row) (limit : ℕ) : List Fields :=
  (latest Row.recency (max 1 limit) journal).map (dispatchOrderFromRow env)

/-! ## A restart -/

/-- `durable_dispatch_orders_for_restore`: none where the journal cannot be read. -/
def durableDispatchOrdersForRestore (env : Env) (journal : List Row) (readable : Bool) : List Fields :=
  if readable then
    (orderDispatchRows env journal 5000).filter fun item => orderIdOf env item ≠ "" && keyOf env item ≠ ""
  else []

/-- The dictionaries of a list. -/
def dictItems : Json → List Fields
  | .arr items => items.filterMap Json.fields?
  | _ => []

/-- The key of the sort of `merge_recovered_orders`. -/
def recency (env : Env) (item : Fields) : List Char :=
  (env.text (((item.at "updated_at").orElse (item.at "created_at")).orElse (item.at "time"))).toList

/-- One record for each order: the journal's over the checkpoint's. -/
def mergedOrders (env : Env) (checkpointOrders : Json) (dispatchOrders : List Fields) : Dict String Fields :=
  Dict.index (orderIdOf env) (Dict.index (orderIdOf env) [] (dictItems checkpointOrders)) dispatchOrders

/-- `merge_recovered_orders`. -/
def mergeRecoveredOrders (env : Env) (checkpointOrders : Json) (dispatchOrders : List Fields) : List Fields :=
  latest (recency env) 50 ((mergedOrders env checkpointOrders dispatchOrders).map Prod.snd)

/-! ## What is read of a row -/

variable {env : Env}

theorem at_setDefault_of_at {order : Fields} {key : String} {value : Json} (h : order.at key = value)
    (hvalue : value ≠ .null) (key' : String) (value' : Json) : (setDefault order key' value').at key = value := by
  rw [setDefault]
  split
  · exact h
  · next hmissing =>
    by_cases hkey : key = key'
    · subst hkey
      rw [Fields.lookup_of_at h hvalue] at hmissing
      exact absurd rfl hmissing
    · exact (Fields.at_put_ne order hkey value').trans h

/-- A field of the record that the row does not overwrite. -/
theorem at_dispatchOrderFromRow {row : Row} {key : String} {value : Json} (h : row.order.at key = value)
    (hvalue : value ≠ .null) (hstate : key ≠ "state") (hupdated : key ≠ "updated_at") :
    (dispatchOrderFromRow env row).at key = value := by
  have hbefore := at_setDefault_of_at (at_setDefault_of_at (at_setDefault_of_at (at_setDefault_of_at h hvalue
    "order_id" (.str row.orderId)) hvalue "idempotency_key" (.str row.idempotencyKey)) hvalue "broker_id"
    (.str row.brokerId)) hvalue "broker_order_id" (.str row.brokerOrderId)
  rw [dispatchOrderFromRow, Fields.at_put_ne _ hupdated]
  refine at_setDefault_of_at ?_ hvalue _ _
  rw [Fields.at_put_ne _ hstate]
  exact hbefore

theorem dictItems_obj (orders : List Fields) : dictItems (.arr (orders.map .obj)) = orders := by
  show (orders.map Json.obj).filterMap Json.fields? = orders
  induction orders with
  | nil => rfl
  | cons order orders ih => exact congrArg (order :: ·) ih

end LiveTrader.OrderTruth

namespace LiveTrader.OrderTruth

open Lib Lib.Py Lib.Runs

/-! ## The list of orders, its checkpoints and the journal -/

open LiveOrders (Env Oms Managed World setState localState applyExecutionEvents)

/-- How far a submission is: the row of a dispatching one is in the journal, its outcome is not. -/
inductive Phase where
  | made
  | dispatching
  | closed
  deriving DecidableEq

/-- A submission that is under way. -/
structure Flight where
  order : Fields
  phase : Phase

/-- What a recovery checkpoint holds of the orders. -/
structure Checkpoint where
  orders : List Fields
  idempotencyKeys : List String

/-- A restart: the orders of the checkpoint and the journal, and the list that it made. -/
structure Restored where
  checkpoint : List Fields
  journal : List Row
  orders : List Fields

structure State where
  /-- The process runs and has restored its orders. -/
  up : Bool := false
  orders : List Fields := []
  persistedIdempotencyKeys : List String := []
  mode : String := "MONITOR"
  dryRun : Bool := true
  newEntriesBlocked : Bool := true
  flights : String → Option Flight := fun _ => none
  journal : List Row := []
  /-- The latest one first. -/
  checkpoints : List Checkpoint := []
  /-- The order ids that were drawn. -/
  issued : List String := []
  /-- The orders that the program has had in a terminal state. -/
  ended : List String := []
  restores : List Restored := []

/-- The states of an order that is at work. -/
def workingStates : List String :=
  ["dispatch_pending", "acknowledged", "partially_filled", "unknown", "reconcile_required", "cancel_pending",
    "unknown_cancel_result"]

def isWorking (env : Env) (order : Fields) : Bool := localState env order ∈ workingStates

/-! ## Submissions -/

/-- The record of a new order. -/
def newOrder (id key : String) (rest : Fields) : Fields :=
  (rest.put "order_id" (.str id)).put "idempotency_key" (.str key)

/-- The order as it goes to the journal. -/
def pendingOrder (order : Fields) (brokerId : String) (request : Json) (now : String) : Fields :=
  (setState ((order.put "broker_id" (.str brokerId)).put "broker_request" request)
    "dispatch_pending" "reconcile_required" "broker-dispatch-pending").put "updated_at" (.str now)

namespace State

def setFlight (s : State) (id : String) (flight : Option Flight) : State :=
  { s with flights := Function.update s.flights id flight }

/-- The terminal orders of the list. -/
def note (env : Env) (s : State) : State :=
  { s with ended := (s.orders.filter fun o => !isWorking env o).map (orderIdOf env) ++ s.ended }

/-- `RECOVERY_JOURNAL.save`, of the list. -/
def save (env : Env) (s : State) : State :=
  { s with checkpoints := ⟨s.orders, s.orders.map (keyOf env)⟩ :: s.checkpoints }

/-- The mirror of a pending order in the recovery journal. -/
def mirror (env : Env) (s : State) (order : Fields) : State :=
  let orders := (order :: s.orders.filter fun item => orderIdOf env item ≠ orderIdOf env order).take 50
  { s with checkpoints := ⟨orders, (orders.map (keyOf env)).filter (· ≠ "")⟩ :: s.checkpoints }

/-- The checkpoint of a dispatch, which may fail. -/
def dispatch (env : Env) (s : State) (id : String) (order : Fields) (now : String) (failed mirrored : Bool) : State :=
  match if failed then .error (.os "") else checkpointOrderDispatch env s.journal order now with
  | .error _ =>
    s.setFlight id (some ⟨setState order "adapter_blocked" "held" "durable-dispatch-checkpoint-failed", .closed⟩)
  | .ok (false, _) =>
    s.setFlight id (some ⟨setState order "unknown" "reconcile_required" "durable-dispatch-idempotency-key-exists", .closed⟩)
  | .ok (true, journal) =>
    let s := { s with journal }.setFlight id (some ⟨order, .dispatching⟩)
    if mirrored then s.mirror env order else s

/-- The outcome of a dispatch goes to the journal: the write may fail, and may raise afterwards. -/
def settle (env : Env) (s : State) (id : String) (order : Fields) (now : String) (written raised : Bool) : State :=
  let (saved, journal) := if written then updateOrderDispatch env s.journal order now else (false, s.journal)
  let s := { s with journal }
  if saved && !raised then s.setFlight id (some ⟨order, .closed⟩)
  else { s with newEntriesBlocked := true }.setFlight id
    (some ⟨setState order "unknown" "reconcile_required" "dispatch-terminal-checkpoint-failed", .closed⟩)

/-- The last part of a submission: the order is on the list. -/
def publish (env : Env) (s : State) (id : String) (order : Fields) : State :=
  let keys := (s.persistedIdempotencyKeys ++ [keyOf env order]).eraseDups
  { s with
    orders := (order :: s.orders).take 50
    persistedIdempotencyKeys := keys.drop (keys.length - 5000) }.setFlight id none

/-- A submission ends without its last part. -/
def abort (env : Env) (s : State) (id : String) : State :=
  let ends := (s.flights id).any fun flight => !isWorking env flight.order
  { s with ended := if ends then id :: s.ended else s.ended }.setFlight id none

/-! ## Polls and restarts -/

/-- `order["updated_at"]`, where a poll has updated the order. -/
def stamp (order : Fields) : Option String → Fields
  | some now => order.put "updated_at" (.str now)
  | none => order

def stamped : List Fields → List (Option String) → List Fields
  | order :: orders, now :: times => stamp order now :: stamped orders times
  | orders, _ => orders

/-- The lists after `restore_runtime_from_checkpoint`. -/
def restore (env : Env) (s : State) (loaded : Option Checkpoint) (readable : Bool) : State :=
  let durable := durableDispatchOrdersForRestore env s.journal readable
  let durableKeys := durable.map (keyOf env)
  let checkpointOrders := (loaded.map (·.orders)).getD []
  let orders := mergeRecoveredOrders env (.arr (checkpointOrders.map .obj)) durable
  { s with
    up := true
    orders
    persistedIdempotencyKeys := match loaded with
      | none => durableKeys.eraseDups
      | some c => (c.idempotencyKeys.filter (· ≠ "") ++ durableKeys).eraseDups
    mode := "MONITOR"
    dryRun := true
    newEntriesBlocked := true
    restores := ⟨checkpointOrders, s.journal, orders⟩ :: s.restores }

/-- What is left when the process is lost. -/
def crash (s : State) : State :=
  { s with up := false, orders := [], persistedIdempotencyKeys := [], flights := fun _ => none }

end State

/-! ## Steps -/

inductive Label where
  /-- A submission has made its order; the id is drawn at random. -/
  | submit (id key : String) (rest : Fields)
  | dispatch (id brokerId : String) (request : Json) (now : String) (failed mirrored : Bool)
  /-- What the call of the broker makes of the order. -/
  | settle (id : String) (patch : Fields) (now : String) (written raised : Bool)
  | publish (id now : String)
  /-- A submission ends with an exception. -/
  | abort (id : String)
  | save
  /-- A poll: the managed orders and the events that it meets, and the times it writes. -/
  | poll (managed : Dict String Managed) (ambiguous known : List String) (events : List Fields)
      (stamps : List (Option String))
  | crash
  /-- A restart, from one of the checkpoints or from none. -/
  | restore (loaded : Option ℕ) (readable : Bool)

/-- The checkpoint that is loaded. -/
def State.loaded (s : State) (k : Option ℕ) : Option Checkpoint := k.bind (s.checkpoints[·]?)

/-- The fields that no outcome of a dispatch writes. -/
def identityKeys : List String := ["order_id", "idempotency_key"]

def step (env : Env) (oms : Oms) (s : State) : Label → Option State
  | .submit id key rest =>
    if s.up ∧ (id ≠ "" ∧ strip id = id ∧ id ∉ s.issued) ∧ key ≠ "" ∧ strip key = key then
      some ({ s with issued := id :: s.issued }.setFlight id (some ⟨newOrder id key rest, .made⟩))
    else none
  | .dispatch id brokerId request now failed mirrored =>
    match s.flights id with
    | some ⟨order, .made⟩ => some (s.dispatch env id (pendingOrder order brokerId request now) now failed mirrored)
    | _ => none
  | .settle id patch now written raised =>
    match s.flights id with
    | some ⟨order, .dispatching⟩ =>
      if patch.all fun e => e.1 ∉ identityKeys then
        some (s.settle env id ((update order patch).put "updated_at" (.str now)) now written raised)
      else none
    | _ => none
  | .publish id now =>
    match s.flights id with
    | some ⟨order, phase⟩ =>
      if phase = .dispatching then none else some ((s.publish env id (order.put "updated_at" (.str now))).note env)
    | none => none
  | .abort id => some (s.abort env id)
  | .save => if s.up then some (s.save env) else none
  | .poll managed ambiguous known events stamps =>
    if s.up then
      let (w, _) := applyExecutionEvents env oms ⟨s.orders, managed, ambiguous⟩ known events
      some ({ s with orders := State.stamped w.orders stamps }.note env)
    else none
  | .crash => some s.crash
  | .restore loaded readable =>
    if s.up then none else some ((s.restore env (s.loaded loaded) readable).note env)

end LiveTrader.OrderTruth
