/-
# `ExecutionFeed.System` — polls of execution events

The streams of the brokers put their rows into queues of a thousand.  A poll empties the queues,
adds the rows of the brokers' snapshots, drops the events whose ids are recorded, applies the others
to the local orders one by one and then records them.  A submission puts its order on the list only
after the broker has it, and a poll may end with an exception between any two of its steps.

One poll runs at a time.  `normalize_broker_execution` is not part of this repository and is given;
`owner` says to which dispatched order an event belongs.
-/
import LiveTrader.LiveOrders.ExecutionEvents
import LiveTrader.Lib.Runs
import Mathlib.Logic.Function.Basic

namespace LiveTrader.ExecutionFeed

open Lib Lib.Py Lib.Runs
open LiveOrders (Env Oms Managed World eventIdOf applyEvent)

/-- What a poll is given. -/
structure Feed where
  env : Env
  oms : Oms
  /-- The event of a row, or nothing where `normalize_broker_execution` raises. -/
  normalize : String → Fields → Option Fields
  /-- The dispatched order that an event is about, by their ids. -/
  owner : String → Option String

/-- A poll that is under way. -/
inductive Poll where
  /-- The events that were drained and collected. -/
  | collecting (events : List Fields)
  /-- The events that are to be recorded, those that are to be applied, and the ids that are known. -/
  | applying (batch rest : List Fields) (known : List String)

/-- The events that a poll has and has not applied. -/
def Poll.events : Poll → List Fields
  | .collecting events => events
  | .applying _ rest _ => rest

structure State where
  world : World := { orders := [] }
  /-- Orders that the broker has and the list has not. -/
  flights : List Fields := []
  queues : String → List Fields := fun _ => []
  poll : Option Poll := none
  /-- The ids of `execution_events`. -/
  eventIds : List String := []
  /-- The events of dispatched orders that were received. -/
  received : List String := []
  /-- The events of dispatched orders that the local orders have, with the order of each. -/
  log : List (String × String) := []

/-! ## Events -/

/-- `str(event.get("event_id") or "")`. -/
def rawEventId (env : Env) (event : Fields) : String := env.text (event.at "event_id")

/-- `deduplicate_execution_events`, after the ids that were seen. -/
def deduplicate (env : Env) (seen : List String) : List Fields → List Fields
  | [] => []
  | event :: events =>
    let eventId := eventIdOf env event
    if eventId ≠ "" ∧ eventId ∈ seen then deduplicate env seen events
    else event :: deduplicate env (if eventId ≠ "" then eventId :: seen else seen) events

/-- `existing_execution_event_ids`. -/
def existingExecutionEventIds (eventIds : List String) (ids : List String) : List String :=
  ids.eraseDups.filter fun id => id ≠ "" && id ∈ eventIds

/-- The id under which `record_execution_events` stores an event, if it does. -/
def recordedId (env : Env) (event : Fields) (now : String) : Option String :=
  let brokerId := strip (env.text (event.at "broker_id"))
  let occurredAt := env.text (((event.at "occurred_at").orElse (event.at "time")).orElse (.str now))
  let orderId := strip (env.text (event.at "order_id"))
  let brokerOrderId := strip (env.text ((event.at "broker_order_id").orElse (event.at "brokerOrderId")))
  let symbol := strip (env.text (event.at "symbol"))
  let eventId := env.text (((event.at "event_id").orElse (event.at "id")).orElse
    (.str (brokerId ++ ":" ++ orderId ++ ":" ++ brokerOrderId ++ ":" ++ symbol ++ ":" ++ occurredAt)))
  if brokerId = "" ∨ eventId = "" then none else some eventId

/-- The rows of a queue, up to the first one that does not normalize. -/
def drainRows (feed : Feed) (brokerId : String) : List Fields → List Fields
  | [] => []
  | row :: rows =>
    match feed.normalize brokerId row with
    | some event => event :: drainRows feed brokerId rows
    | none => []

namespace Feed

/-- The event is about a dispatched order. -/
def owns (feed : Feed) (id : String) : Bool := (feed.owner id).isSome

/-- The ids of the events of dispatched orders. -/
def ownedIds (feed : Feed) (events : List Fields) : List String :=
  (events.map (eventIdOf feed.env)).filter feed.owns

end Feed

/-! ## Steps -/

namespace State

/-- A row of a stream. -/
def deliver (feed : Feed) (s : State) (brokerId : String) (row : Fields) : State :=
  let queue := s.queues brokerId ++ [row]
  { s with
    queues := Function.update s.queues brokerId (queue.drop (queue.length - 1000))
    received := feed.ownedIds (feed.normalize brokerId row).toList ++ s.received }

/-- The queues of these brokers are emptied. -/
def drain (feed : Feed) (s : State) (brokerIds : List String) : State :=
  { s with
    queues := fun brokerId => if brokerId ∈ brokerIds then [] else s.queues brokerId
    poll := some (.collecting (brokerIds.eraseDups.flatMap fun brokerId => drainRows feed brokerId (s.queues brokerId))) }

/-- The rows of a snapshot: the poll ends where one does not normalize. -/
def collect (feed : Feed) (s : State) (events : List Fields) (brokerId : String) (rows : List Fields) : State :=
  match rows.mapM (feed.normalize brokerId) with
  | some more => { s with
      poll := some (.collecting (events ++ more))
      received := feed.ownedIds more ++ s.received }
  | none => { s with poll := none }

/-- The events that are not recorded are to be applied. -/
def select (feed : Feed) (s : State) (events : List Fields) : State :=
  let events := deduplicate feed.env [] events
  let existing := existingExecutionEventIds s.eventIds (events.map (rawEventId feed.env))
  let newEvents := events.filter fun event => rawEventId feed.env event ∉ existing
  { s with poll := some (.applying newEvents newEvents existing) }

/-- The loop body of `apply_execution_events_to_local_orders`. -/
def applyNext (feed : Feed) (s : State) (batch : List Fields) (event : Fields) (rest : List Fields)
    (known : List String) : State :=
  let eventId := eventIdOf feed.env event
  if eventId = "" ∨ eventId ∈ known then { s with poll := some (.applying batch rest known) }
  else
    match applyEvent feed.env feed.oms s.world event with
    | (world, .error _) => { s with world, poll := none }
    | (world, .ok _) =>
      { s with
        world
        poll := some (.applying batch rest (eventId :: known))
        log := match s.world.target feed.env event with
          | some i => if feed.owns eventId then (eventId, feed.env.text ((s.world.order i).at "order_id")) :: s.log else s.log
          | none => s.log }

/-- The events of a poll are recorded. -/
def record (feed : Feed) (s : State) (batch : List Fields) (now : String) : State :=
  { s with poll := none, eventIds := batch.filterMap (recordedId feed.env · now) ++ s.eventIds }

end State

inductive Label where
  /-- The broker has the order. -/
  | submit (order : Fields)
  /-- The OMS, or the truth of the broker, moves on. -/
  | manage (managed : Dict String Managed) (ambiguous : List String)
  /-- The submission of a flight puts its order on the list. -/
  | publish (flight : ℕ)
  | deliver (brokerId : String) (row : Fields)
  | drain (brokerIds : List String)
  | collect (brokerId : String) (rows : List Fields)
  | select
  | applyNext
  | record (now : String)
  /-- The poll ends with an exception. -/
  | fail
  /-- The process is lost; the restart has these orders, which no event has reached. -/
  | restart (orders : List Fields)

def step (feed : Feed) (s : State) : Label → Option State
  | .submit order => some { s with flights := order :: s.flights }
  | .manage managed ambiguous => some { s with world := { s.world with managed, ambiguous } }
  | .publish flight => s.flights[flight]?.map fun order =>
    { s with
      flights := s.flights.eraseIdx flight
      world := { s.world with orders := (order :: s.world.orders).take 50 } }
  | .deliver brokerId row => some (s.deliver feed brokerId row)
  | .drain brokerIds => if s.poll.isNone then some (s.drain feed brokerIds) else none
  | .collect brokerId rows =>
    match s.poll with
    | some (.collecting events) => some (s.collect feed events brokerId rows)
    | _ => none
  | .select =>
    match s.poll with
    | some (.collecting events) => some (s.select feed events)
    | _ => none
  | .applyNext =>
    match s.poll with
    | some (.applying batch (event :: rest) known) => some (s.applyNext feed batch event rest known)
    | _ => none
  | .record now =>
    match s.poll with
    | some (.applying batch [] _) => some (s.record feed batch now)
    | _ => none
  | .fail => if s.poll.isSome then some { s with poll := none } else none
  | .restart orders =>
    some { s with world := { orders }, flights := [], queues := fun _ => [], poll := none, log := [] }

end LiveTrader.ExecutionFeed
