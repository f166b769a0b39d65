/-
# `Portfolio.Ledger` — `LivePortfolioLedger`

The methods of the sleeve ledger over the tables of `Portfolio.Events`:
accepting a broker order together with its internal cross, recording a zero-net
cross, applying execution events (fills, late fees, terminal states), and the
readings `sleeve_holdings`, `balances` and `pending_orders`.

`applyExecutionEvents` collects the rows of known KIS orders, sorts them by time
and event id and applies them one by one (`applyRow`).  A row whose fill is in
the ledger already can only revise its fee (`reviseFee`); any other row with a
quantity books the difference of two cumulative splits (`bookFill`).

`reconcileRestart` re-verifies the hash chain of a scope, compares the sum of
the sleeve holdings with the broker's holdings symbol by symbol and, when asked
to persist, seals the comparison as one more event.

`Op` is one successful call of a public method.  A call that raises is rolled
back, so `Reachable` — the ledgers that successful calls build from an empty
file — are all the ledgers a process ever finds, over any restarts.
-/
import LiveTrader.Portfolio.Events
import Mathlib.Logic.Relation

namespace LiveTrader.Portfolio

open Lib.Py Lib.Decimal

/-! ## Times -/

/-- The argument of `_occurred_at`; a missing value takes the clock. -/
inductive RawTime where
  | absent (now : ℤ)
  | malformed
  | naive
  | foreign
  | stamp (t : ℤ)
  deriving DecidableEq

/-- `_occurred_at`. -/
def occurredAt : RawTime → Result ℤ
  | .absent now => .ok now
  | .malformed => .error (.value "occurred_at must be an ISO-8601 timestamp with timezone")
  | .naive => .error (.value "occurred_at must include an explicit timezone")
  | .foreign =>
      .error (.value "occurred_at must be an ISO-8601 string or timezone-aware datetime")
  | .stamp t => .ok t

/-! ## Scopes and orders -/

/-- `register_scope`. -/
def registerScope (l : Ledger) (scopeId portfolioId portfolioHash accountId : String) :
    Result Ledger := do
  let scopeId ← text scopeId "scope_id"
  let portfolioId ← text portfolioId "portfolio_id"
  let portfolioHash ← text portfolioHash "portfolio_hash"
  let accountId ← text accountId "account_id"
  let scope : ScopeRow := ⟨scopeId, portfolioId, lower portfolioHash.val, accountId⟩
  match l.scopes.find? (·.scopeId = scopeId) with
  | none => pure { l with scopes := l.scopes ++ [scope] }
  | some row => do
      require (row.portfolioId = portfolioId) (.value "portfolio scope mismatch: portfolio_id")
      require (row.portfolioHash = scope.portfolioHash)
        (.value "portfolio scope mismatch: portfolio_hash")
      require (row.accountId = accountId) (.value "portfolio scope mismatch: account_id")
      pure l

/-- The portfolio event of an internal cross. -/
def crossEvent (plan : SymbolNetPlan) (occurredAt : ℤ) : Event :=
  { eventId := plan.scopeId.val ++ ":cross:" ++ plan.planId ++ ":portfolio"
    scopeId := plan.scopeId, sleeveId := "", symbol := plan.symbol.val
    payload := .internalCross plan.planId (decimalText plan.referencePrice), occurredAt }

/-- The event of one sleeve of an internal cross. -/
def sleeveCrossEvent (plan : SymbolNetPlan) (occurredAt : ℤ) (item : SleeveAllocation) : Event :=
  { eventId := plan.scopeId.val ++ ":cross:" ++ plan.planId ++ ":" ++ item.sleeveId.val ++ ":" ++
      item.intentId.val
    scopeId := plan.scopeId, sleeveId := item.sleeveId.val, symbol := plan.symbol.val
    payload := .sleeveInternalCross plan.planId item.intentId item.signedQuantity
      (decimalText plan.referencePrice)
    occurredAt }

/-- `_internal_cross_events`. -/
def internalCrossEvents (plan : SymbolNetPlan) (occurredAt : ℤ) : Result (List Event) :=
  if plan.internalAllocations = [] then .ok []
  else do
    require (0 < plan.referencePrice) (.value "internal cross reference price must be positive")
    pure (crossEvent plan occurredAt :: plan.internalAllocations.map (sleeveCrossEvent plan occurredAt))

/-- The BROKER_ORDER_ACCEPTED event. -/
def acceptedEvent (plan : SymbolNetPlan) (brokerOrderId : Text) (localOrderId : String)
    (occurredAt : ℤ) : Event :=
  { eventId := plan.scopeId.val ++ ":order:" ++ brokerOrderId.val
    scopeId := plan.scopeId, sleeveId := "", symbol := plan.symbol.val
    payload := .brokerOrderAccepted plan.metadata brokerOrderId localOrderId, occurredAt }

/-- The row that an accepted plan is bound to. -/
def orderRow (plan : SymbolNetPlan) (brokerOrderId : Text) (localOrderId : String)
    (acceptedAt : ℤ) : OrderRow :=
  { planId := plan.planId, scopeId := plan.scopeId, brokerOrderId, localOrderId
    symbol := plan.symbol, side := plan.side, quantity := plan.quantity
    allocations := plan.allocations, acceptedAt }

/-- `record_accepted_order`: the ledger afterwards and whether a row was created. -/
def recordAcceptedOrder (H : Hashes) (l : Ledger) (plan : SymbolNetPlan)
    (brokerOrderId localOrderId : String) (time : RawTime) : Result (Ledger × Bool) := do
  require (0 < plan.quantity ∧ plan.side ≠ .none)
    (.value "only a non-zero broker plan can be accepted")
  let brokerId ← text brokerOrderId "broker_order_id"
  let localId := strip localOrderId
  let now ← occurredAt time
  match l.orders.find? (·.planId = plan.planId) with
  | none => do
      require (∀ row ∈ l.orders, ¬ (row.scopeId = plan.scopeId ∧ row.brokerOrderId = brokerId))
        (.value "broker order id belongs to another plan")
      require (l.hasScope plan.scopeId) (.integrity "FOREIGN KEY constraint failed")
      let cross ← internalCrossEvents plan now
      let (l', _) ← appendEvents H { l with orders := l.orders ++ [orderRow plan brokerId localId now] }
        (acceptedEvent plan brokerId localId now :: cross)
      pure (l', true)
  | some row => do
      require (row = orderRow plan brokerId localId row.acceptedAt)
        (.value "plan id is already bound to another order")
      let cross ← internalCrossEvents plan row.acceptedAt
      let (l', _) ← appendEvents H l (acceptedEvent plan brokerId localId row.acceptedAt :: cross)
      pure (l', false)

/-- `record_internal_cross`. -/
def recordInternalCross (H : Hashes) (l : Ledger) (plan : SymbolNetPlan) (price : Raw)
    (time : RawTime) : Result (Ledger × ℕ) := do
  require plan.internalOnly (.value "internal cross requires a zero-net plan")
  let fillPrice ← decimal (if price = .absent then .number plan.referencePrice else price) "price"
    (some 0)
  require (fillPrice ≠ 0) (.value "price must be greater than zero")
  require (fillPrice = plan.referencePrice)
    (.value "internal cross price does not match sealed plan")
  let now ← occurredAt time
  let events ← internalCrossEvents plan now
  appendEvents H l events

/-! ## Execution events -/

/-- One execution event as the broker layer reports it; an absent text is
empty.  `state` is the first of `state` and `status` that is set, `rawFee` the
fee of the nested broker notice. -/
structure ExecutionEvent where
  brokerId : String
  brokerOrderId : String
  eventId : String
  symbol : String
  side : String
  state : String
  quantity : Raw
  price : Raw
  fee : Raw
  rawFee : Raw
  occurredAt : RawTime
  deriving DecidableEq

/-- A row of a known order with its canonical time. -/
structure Collected where
  event : ExecutionEvent
  order : OrderRow
  occurredAt : ℤ
  deriving DecidableEq

/-- The order of the scope with a broker order id. -/
def Ledger.orderOf (l : Ledger) (scopeId : Text) (brokerOrderId : String) : Option OrderRow :=
  l.orders.find? fun row => row.scopeId = scopeId ∧ row.brokerOrderId.val = brokerOrderId

/-- The first loop: an event of another broker or of an unknown order is
ignored. -/
def collectRow (l : Ledger) (scopeId : Text) (event : ExecutionEvent) : Result (Option Collected) :=
  if lower (strip event.brokerId) ≠ "kis" then .ok none
  else match l.orderOf scopeId (strip event.brokerOrderId) with
    | none => .ok none
    | some order => do
        let now ← occurredAt event.occurredAt
        pure (some ⟨event, order, now⟩)

/-- The sort key `(time, event_id)`. -/
def collectedLe (a b : Collected) : Prop :=
  a.occurredAt < b.occurredAt ∨ a.occurredAt = b.occurredAt ∧ a.event.eventId ≤ b.event.eventId

instance : DecidableRel collectedLe := fun a b => by unfold collectedLe; infer_instance

/-- A row after its fields are read. -/
structure Notice where
  sourceEventId : Text
  symbol : Symbol
  state : String
  quantity : ℕ
  price : ℚ
  fee : ℚ
  occurredAt : ℤ
  deriving DecidableEq

/-- The field checks at the head of the second loop. -/
def readNotice (row : Collected) : Result Notice := do
  let event := row.event
  let sourceEventId ← text event.eventId "execution event_id"
  let symbol ← canonicalKisSymbol (orElse event.symbol row.order.symbol.val)
  require (symbol = row.order.symbol) (.value "execution symbol does not match accepted order")
  let side := upper (strip event.side)
  require (side = "" ∨ side = row.order.side.text)
    (.value "execution side does not match accepted order")
  let quantity ← quantity event.quantity.orZero "execution quantity" true
  let price ← decimal event.price.orZero "execution price" (some 0)
  let fee ← decimal (if event.fee = .absent then event.rawFee.orZero else event.fee)
    "execution fee" (some 0)
  pure { sourceEventId, symbol, state := upper event.state, quantity, price, fee,
         occurredAt := row.occurredAt }

/-- `event_prefix`. -/
def executionPrefix (scopeId sourceEventId : Text) : String :=
  scopeId.val ++ ":execution:" ++ sourceEventId.val

/-- The id of the portfolio event of a fill. -/
def fillId (scopeId sourceEventId : Text) : String :=
  executionPrefix scopeId sourceEventId ++ ":portfolio"

/-- The id of one sleeve's event of a fill. -/
def sleeveFillId (scopeId sourceEventId sleeveId intentId : Text) : String :=
  executionPrefix scopeId sourceEventId ++ ":sleeve:" ++ sleeveId.val ++ ":" ++ intentId.val

/-- The id of a terminal status event. -/
def statusId (scopeId sourceEventId : Text) : String :=
  executionPrefix scopeId sourceEventId ++ ":status"

/-- `_row_allocations`. -/
def rowAllocations (order : OrderRow) : Result (List SleeveAllocation) := do
  require (order.allocations ≠ []) (.value "portfolio execution allocations are required")
  require (∀ a ∈ order.allocations, a.signedQuantity ≠ 0)
    (.value "portfolio execution allocations are invalid")
  require (order.allocations.map fun a => (a.sleeveId, a.intentId)).Nodup
    (.value "portfolio execution allocations identity is duplicated")
  pure order.allocations

/-- The state of the second loop: the connection, the cached `filled` and the
counters of the report. -/
structure Sync where
  ledger : Ledger
  filled : String → ℕ
  appliedFills : ℕ
  appliedStatuses : ℕ
  appliedFeeAdjustments : ℕ

/-! ### Late fees -/

/-- What the replay branch reads of a stored payload.  `shares` is absent where
the stored allocations carry no signed quantity. -/
structure StoredFill where
  brokerQuantity : ℕ
  price : ℚ
  fee : ℚ
  shares : Option (List SleeveAllocation)

/-- The fields of a payload that the replay branch looks up; only two kinds of
payload have them. -/
def Payload.storedFill : Payload → Option StoredFill
  | .brokerFill f =>
      some ⟨f.brokerQuantity, f.price, f.fee,
        some (f.allocations.map fun a => ⟨a.intentId, a.sleeveId, a.signedQuantity⟩)⟩
  | .feeAdjustment a => some ⟨a.brokerQuantity, a.price, 0, none⟩
  | _ => none

/-- The fee delta that an event adds to the fill `sourceEventId`. -/
def Event.feeDeltaOf (scopeId sourceEventId : Text) (event : Event) : Option ℚ :=
  match event.payload with
  | .feeAdjustment a =>
      if event.scopeId = scopeId ∧ a.sourceEventId = sourceEventId then some a.feeDelta else none
  | _ => none

/-- `current_fee`: the stored fee and every adjustment since. -/
def currentFee (log : List Event) (scopeId sourceEventId : Text) (fee : ℚ) : ℚ :=
  (log.filterMap (Event.feeDeltaOf scopeId sourceEventId)).foldl (fun acc x => ctx 28 (acc + x)) fee

/-- `revision_prefix`. -/
def revisionPrefix (H : Hashes) (scopeId : Text) (n : Notice) (current : ℚ) : String :=
  executionPrefix scopeId n.sourceEventId ++ ":fee-adjustment:" ++
    H.revision { scopeId, sourceEventId := n.sourceEventId, quantity := n.quantity
                 price := decimalText n.price, previousFee := decimalText current
                 revisedFee := decimalText n.fee }

/-- `fee_allocations`. -/
def feeAllocations (shares : List SleeveAllocation) (deltas : List ℚ) : List FeeAllocation :=
  List.zipWith (fun a delta => ⟨a.intentId, a.sleeveId, a.signedQuantity, decimalText delta⟩)
    shares deltas

/-- The FEE_ADJUSTMENT event. -/
def feeEvent (H : Hashes) (scopeId : Text) (order : OrderRow) (n : Notice) (current : ℚ)
    (allocations : List FeeAllocation) : Event :=
  { eventId := revisionPrefix H scopeId n current ++ ":portfolio", scopeId, sleeveId := ""
    symbol := n.symbol.val
    payload := .feeAdjustment
      { planId := order.planId, brokerOrderId := order.brokerOrderId
        sourceEventId := n.sourceEventId, brokerQuantity := n.quantity
        price := decimalText n.price, previousFee := decimalText current
        revisedFee := decimalText n.fee, feeDelta := decimalText (ctx 28 (n.fee - current))
        allocations }
    occurredAt := n.occurredAt }

/-- The SLEEVE_FEE_ADJUSTMENT event of one sleeve. -/
def sleeveFeeEvent (H : Hashes) (scopeId : Text) (order : OrderRow) (n : Notice) (current : ℚ)
    (a : FeeAllocation) : Event :=
  { eventId := revisionPrefix H scopeId n current ++ ":sleeve:" ++ a.sleeveId.val ++ ":" ++
      a.intentId.val
    scopeId, sleeveId := a.sleeveId.val, symbol := n.symbol.val
    payload := .sleeveFeeAdjustment order.planId order.brokerOrderId n.sourceEventId a
    occurredAt := n.occurredAt }

/-- `revision_events`. -/
def revisionEvents (H : Hashes) (scopeId : Text) (order : OrderRow) (n : Notice)
    (shares : List SleeveAllocation) (current : ℚ) (deltas : List ℚ) : List Event :=
  let allocations := feeAllocations shares deltas
  feeEvent H scopeId order n current allocations ::
    allocations.map (sleeveFeeEvent H scopeId order n current)

/-- The branch of a fill that is recorded already. -/
def reviseFee (H : Hashes) (scopeId : Text) (order : OrderRow) (n : Notice) (payload : Payload)
    (sync : Sync) : Result Sync := do
  let stored ← orRaise (.value "stored broker fill quantity must be a finite decimal")
    payload.storedFill
  require (stored.brokerQuantity ≠ 0)
    (.value "stored broker fill quantity must be greater than zero")
  require (stored.brokerQuantity = n.quantity ∧ stored.price = n.price)
    (.value "execution event replay changed immutable fill quantity/price")
  let current := currentFee sync.ledger.log scopeId n.sourceEventId stored.fee
  -- zero is an absence of cost evidence here, never a rollback
  if n.fee = 0 ∧ 0 < current then pure sync
  else if n.fee = current then pure sync
  else do
    let shares ← orRaise (.value "stored signed fill must be a finite decimal") stored.shares
    require (shares ≠ []) (.value "stored fill has no sleeve allocation for fee revision")
    let deltas ← allocateMoney (ctx 28 (n.fee - current)) (shares.map (·.signedQuantity.natAbs))
    let (ledger, written) ← appendEvents H sync.ledger
      (revisionEvents H scopeId order n shares current deltas)
    pure { sync with
      ledger, appliedFeeAdjustments := sync.appliedFeeAdjustments + if written ≠ 0 then 1 else 0 }

/-! ### New fills -/

/-- The sleeves of an allocation list with other quantities. -/
def withQuantities (allocations : List SleeveAllocation) (quantities : List ℤ) :
    List SleeveAllocation :=
  List.zipWith (fun a signed => { a with signedQuantity := signed }) allocations quantities

/-- `active`: the sleeves whose cumulative share changes, with the change. -/
def activeShares (allocations : List SleeveAllocation) (side : Side) (previous quantity : ℕ) :
    Result (List SleeveAllocation) := do
  let cumulativeSigned ← proportionalSignedQuantities allocations (previous + quantity) side
  let previousSigned ← sharesAt allocations side previous
  let increments := List.zipWith (· - ·) cumulativeSigned previousSigned
  pure ((withQuantities allocations increments).filter fun a => a.signedQuantity ≠ 0)

/-- `allocation_payload`. -/
def fillAllocations (active : List SleeveAllocation) (price : ℚ) (fees : List ℚ) :
    List FillAllocation :=
  List.zipWith (fun a fee => ⟨a.intentId, a.sleeveId, a.signedQuantity, decimalText price,
    decimalText fee⟩) active fees

/-- `cost_status`. -/
def costStatus (fee : ℚ) : CostStatus := if 0 < fee then .final else .unknown

/-- The BROKER_FILL event. -/
def brokerFillEvent (scopeId : Text) (order : OrderRow) (n : Notice)
    (allocations : List FillAllocation) : Event :=
  { eventId := fillId scopeId n.sourceEventId, scopeId, sleeveId := "", symbol := n.symbol.val
    payload := .brokerFill
      { planId := order.planId, brokerOrderId := order.brokerOrderId
        sourceEventId := n.sourceEventId, side := order.side, brokerQuantity := n.quantity
        price := decimalText n.price, fee := decimalText n.fee, costStatus := costStatus n.fee
        allocations }
    occurredAt := n.occurredAt }

/-- The SLEEVE_FILL event of one sleeve. -/
def sleeveFillEvent (scopeId : Text) (order : OrderRow) (n : Notice) (a : FillAllocation) : Event :=
  { eventId := sleeveFillId scopeId n.sourceEventId a.sleeveId a.intentId, scopeId
    sleeveId := a.sleeveId.val, symbol := n.symbol.val
    payload := .sleeveFill order.planId order.brokerOrderId n.sourceEventId a (costStatus n.fee)
    occurredAt := n.occurredAt }

/-- `ledger_events`. -/
def fillEvents (scopeId : Text) (order : OrderRow) (n : Notice) (active : List SleeveAllocation)
    (fees : List ℚ) : List Event :=
  let allocations := fillAllocations active n.price fees
  brokerFillEvent scopeId order n allocations ::
    allocations.map (sleeveFillEvent scopeId order n)

/-- The branch of a fill that is new. -/
def bookFill (H : Hashes) (scopeId : Text) (order : OrderRow) (n : Notice) (sync : Sync) :
    Result Sync := do
  require (0 < n.price) (.value "a broker fill requires a positive price")
  let previous := sync.filled order.planId
  require (previous + n.quantity ≤ order.quantity)
    (.value "cumulative execution exceeds accepted order")
  let allocations ← rowAllocations order
  let active ← activeShares allocations order.side previous n.quantity
  let fees ← allocateMoney n.fee (active.map (·.signedQuantity.natAbs))
  let (ledger, written) ← appendEvents H sync.ledger (fillEvents scopeId order n active fees)
  if written ≠ 0 then
    pure { sync with
      ledger, filled := Function.update sync.filled order.planId (previous + n.quantity)
      appliedFills := sync.appliedFills + 1 }
  else pure { sync with ledger }

/-! ### Terminal states -/

/-- States that end an order. -/
def terminalStates : List String := ["CANCELED", "CANCELLED", "REJECTED", "EXPIRED"]

/-- The BROKER_ORDER_TERMINAL event. -/
def statusEvent (scopeId : Text) (order : OrderRow) (n : Notice) : Event :=
  { eventId := statusId scopeId n.sourceEventId, scopeId, sleeveId := "", symbol := n.symbol.val
    payload := .brokerOrderTerminal order.planId order.brokerOrderId n.sourceEventId
      (if n.state = "CANCELLED" then "CANCELED" else n.state)
    occurredAt := n.occurredAt }

/-- The end of the loop body. -/
def bookStatus (H : Hashes) (scopeId : Text) (order : OrderRow) (n : Notice) (sync : Sync) :
    Result Sync :=
  if n.state ∈ terminalStates then do
    let (ledger, written) ← appendEvents H sync.ledger [statusEvent scopeId order n]
    pure { sync with
      ledger, appliedStatuses := sync.appliedStatuses + if written ≠ 0 then 1 else 0 }
  else pure sync

/-! ### The loop -/

/-- The body of the second loop. -/
def applyRow (H : Hashes) (scopeId : Text) (sync : Sync) (row : Collected) : Result Sync := do
  let n ← readNotice row
  if 0 < n.quantity then
    match sync.ledger.stored (fillId scopeId n.sourceEventId) with
    | some stored => reviseFee H scopeId row.order n stored.payload sync
    | none => do
        let sync ← bookFill H scopeId row.order n sync
        bookStatus H scopeId row.order n sync
  else bookStatus H scopeId row.order n sync

/-- What a BROKER_FILL adds to its plan. -/
def Event.fillOf (scopeId : Text) (planId : String) (event : Event) : ℕ :=
  match event.payload with
  | .brokerFill f => if event.scopeId = scopeId ∧ f.planId = planId then f.brokerQuantity else 0
  | _ => 0

/-- `_filled_quantities`. -/
def filledQuantities (log : List Event) (scopeId : Text) (planId : String) : ℕ :=
  (log.map (Event.fillOf scopeId planId)).sum

structure ExecutionSyncReport where
  appliedFills : ℕ
  appliedStatuses : ℕ
  ignoredEvents : ℕ
  appliedFeeAdjustments : ℕ
  deriving DecidableEq

/-- The state before the first row. -/
def startSync (l : Ledger) (scopeId : Text) : Sync := ⟨l, filledQuantities l.log scopeId, 0, 0, 0⟩

/-- `apply_execution_events`. -/
def applyExecutionEvents (H : Hashes) (l : Ledger) (scopeId : String)
    (events : List ExecutionEvent) : Result (Ledger × ExecutionSyncReport) := do
  let scopeId ← text scopeId "scope_id"
  let collected ← events.mapM (collectRow l scopeId)
  let rows := (collected.filterMap id).insertionSort collectedLe
  let sync ← rows.foldlM (applyRow H scopeId) (startSync l scopeId)
  pure (sync.ledger, ⟨sync.appliedFills, sync.appliedStatuses, collected.count none,
    sync.appliedFeeAdjustments⟩)

/-! ## Readings -/

/-- The signed quantity a sleeve event moves, with its price and fee. -/
def Payload.leg : Payload → Option (ℤ × ℚ × ℚ)
  | .sleeveInternalCross _ _ signedQuantity price => some (signedQuantity, price, 0)
  | .sleeveFill _ _ _ a _ => some (a.signedQuantity, a.price, a.fee)
  | _ => none

/-- The loop body of `sleeve_holdings`, keyed by sleeve and symbol. -/
def bookHolding (result : Dict (String × String) ℤ) (event : Event) :
    Result (Dict (String × String) ℤ) :=
  match event.payload.leg with
  | none => .ok result
  | some (signedQuantity, _, _) => do
      let position := result.get (event.sleeveId, event.symbol) 0 + signedQuantity
      require (¬ position < 0)
        (.value ("sleeve ledger reconstructs a short: " ++ event.sleeveId ++ "/" ++ event.symbol))
      pure (result.set (event.sleeveId, event.symbol) position)

/-- `sleeve_holdings`. -/
def sleeveHoldings (l : Ledger) (scopeId : Text) : Result (Dict (String × String) ℤ) :=
  (l.log.filter (·.scopeId = scopeId)).foldlM bookHolding []

structure Balance where
  cashFlow : ℚ
  fees : ℚ
  turnover : ℚ
  deriving DecidableEq

def Balance.zero : Balance := ⟨0, 0, 0⟩

/-- The loop body of `balances`. -/
def bookBalance (sleeves : Dict String Balance) (event : Event) : Dict String Balance :=
  let balance := sleeves.get event.sleeveId .zero
  match event.payload with
  | .sleeveFeeAdjustment _ _ _ a =>
      sleeves.set event.sleeveId
        { balance with cashFlow := ctx 28 (balance.cashFlow - a.feeDelta)
                       fees := ctx 28 (balance.fees + a.feeDelta) }
  | payload =>
      match payload.leg with
      | none => sleeves
      | some (signedQuantity, price, fee) =>
          let value := ctx 28 (signedQuantity * price)
          sleeves.set event.sleeveId
            { cashFlow := ctx 28 (balance.cashFlow + ctx 28 (-value - fee))
              fees := ctx 28 (balance.fees + fee)
              turnover := ctx 28 (balance.turnover + |value|) }

/-- The `sleeves` part of `balances`. -/
def sleeveBalances (l : Ledger) (scopeId : Text) : Dict String Balance :=
  (l.log.filter (·.scopeId = scopeId)).foldl bookBalance []

/-- The `portfolio` part of `balances`. -/
def portfolioBalance (sleeves : Dict String Balance) : Balance :=
  { cashFlow := ctxSum 28 (sleeves.map (·.2.cashFlow))
    fees := ctxSum 28 (sleeves.map (·.2.fees))
    turnover := ctxSum 28 (sleeves.map (·.2.turnover)) }

/-- `balances`. -/
def balances (l : Ledger) (scopeId : Text) : Balance × Dict String Balance :=
  (portfolioBalance (sleeveBalances l scopeId), sleeveBalances l scopeId)

/-- An order that reached a terminal state. -/
def isTerminal (log : List Event) (scopeId : Text) (planId : String) : Prop :=
  ∃ event ∈ log, event.scopeId = scopeId ∧
    match event.payload with
    | .brokerOrderTerminal p _ _ _ => p = planId
    | _ => False

instance (log : List Event) (scopeId : Text) (planId : String) :
    Decidable (isTerminal log scopeId planId) := by
  unfold isTerminal
  refine @List.decidableBEx _ _ (fun event => ?_) log
  cases event.payload <;> infer_instance

/-- An order that still waits for fills. -/
def OrderRow.pending (order : OrderRow) (log : List Event) : Prop :=
  filledQuantities log order.scopeId order.planId < order.quantity ∧
    ¬ isTerminal log order.scopeId order.planId

instance (order : OrderRow) (log : List Event) : Decidable (order.pending log) := by
  unfold OrderRow.pending; infer_instance

/-- `pending_orders`. -/
def pendingOrders (l : Ledger) (scopeId : Text) : List Text :=
  ((l.orders.filter (·.scopeId = scopeId)).filter (·.pending l.log)).map (·.brokerOrderId)

/-! ## The chain -/

/-- The loop of `verify_hash_chain`; `sequence` numbers the rows of the table. -/
def verifyRows (H : Hashes) (scopeId : Text) :
    ℕ → List EventRow → ℕ × String → Result (ℕ × String)
  | _, [], acc => .ok acc
  | sequence, row :: rows, (count, previous) =>
      if row.scopeId = scopeId then do
        require (row.previousHash = previous)
          (.value ("portfolio ledger hash chain broke at " ++ toString sequence))
        require (H.event row.toEvent previous = row.eventHash)
          (.value ("portfolio ledger event hash failed at " ++ toString sequence))
        verifyRows H scopeId (sequence + 1) rows (count + 1, row.eventHash)
      else verifyRows H scopeId (sequence + 1) rows (count, previous)

/-- `verify_hash_chain`: the number of events and the head. -/
def verifyHashChain (H : Hashes) (l : Ledger) (scopeId : Text) : Result (ℕ × String) :=
  verifyRows H scopeId 1 l.events (0, genesis)

/-! ## Reconciliation -/

structure PortfolioReconciliation where
  scopeId : Text
  matched : Bool
  ready : Bool
  ledgerHoldings : Dict String ℤ
  brokerHoldings : Dict String ℕ
  externalHoldings : Dict String ℕ
  mismatches : List Mismatch
  pendingOrders : List Text
  observedAt : ℤ
  contentHash : String
  deriving DecidableEq

/-- The sum of the sleeves, by symbol. -/
def sumHoldings (sleeves : Dict (String × String) ℤ) : Dict String ℤ :=
  sleeves.foldl (fun ledger ((_, symbol), quantity) =>
    ledger.set symbol (ledger.get symbol 0 + quantity)) []

/-- The broker's holdings under canonical symbols. -/
def canonicalHoldings (brokerHoldings : List (String × Raw)) : Result (Dict String ℕ) :=
  brokerHoldings.foldlM (fun broker (rawSymbol, rawQuantity) => do
    let symbol ← canonicalKisSymbol rawSymbol
    let held ← quantity rawQuantity ("broker holding " ++ symbol.val) true
    pure (Dict.set broker symbol.val (Dict.get broker symbol.val 0 + held))) []

/-- `sorted(…)` of the keys of a set. -/
def sortedKeys (keys : List String) : List String := keys.dedup.insertionSort (· ≤ ·)

/-- `sorted(d.items())`; keys are distinct, so the key decides. -/
def sortedItems {ν : Type} (d : Dict String ν) : List (String × ν) :=
  d.insertionSort fun a b => a.1 ≤ b.1

def mismatchOf (ledger : Dict String ℤ) (broker : Dict String ℕ) (symbol : String) :
    Option Mismatch :=
  if ledger.get symbol 0 ≠ broker.get symbol 0 then
    some ⟨symbol, ledger.get symbol 0, broker.get symbol 0⟩
  else none

def reconciliationSchema : String := "live-portfolio-restart-reconciliation-v1"

/-- `reconcile_restart`. -/
def reconcileRestart (H : Hashes) (l : Ledger) (scopeId : String)
    (brokerHoldings : List (String × Raw)) (managedSymbols : List String) (persist : Bool)
    (time : RawTime) : Result (Ledger × PortfolioReconciliation) := do
  let scopeId ← text scopeId "scope_id"
  let (count, head) ← verifyHashChain H l scopeId
  let managed ← managedSymbols.mapM canonicalKisSymbol
  let managed := managed.map (·.val)
  let sleeves ← sleeveHoldings l scopeId
  let ledger := sumHoldings sleeves
  let broker ← canonicalHoldings brokerHoldings
  let external : Dict String ℕ := broker.filter fun item => item.1 ∉ managed ∧ item.2 ≠ 0
  let mismatches := (sortedKeys (managed ++ ledger.map Prod.fst)).filterMap (mismatchOf ledger broker)
  let pending := pendingOrders l scopeId
  let now ← occurredAt time
  let ready := decide (mismatches = [] ∧ pending = [] ∧ external = [])
  let payload : ReconciliationPayload :=
    { schemaVersion := reconciliationSchema, scopeId, matched := decide (mismatches = []), ready
      ledgerHoldings := sortedItems ledger, brokerHoldings := sortedItems broker
      externalHoldings := sortedItems external, mismatches, pendingOrders := pending
      ledgerEventCount := count, ledgerHeadHash := head, observedAt := now }
  let contentHash := H.reconciliation payload
  let result : PortfolioReconciliation :=
    { scopeId, matched := decide (mismatches = []), ready, ledgerHoldings := ledger
      brokerHoldings := broker, externalHoldings := external, mismatches, pendingOrders := pending
      observedAt := now, contentHash }
  if persist then do
    let event : Event :=
      { eventId := scopeId.val ++ ":reconcile:" ++ contentHash, scopeId, sleeveId := ""
        symbol := "", payload := .restartReconciliation payload contentHash, occurredAt := now }
    let (l', _) ← appendEvents H l [event]
    pure (l', result)
  else pure (l, result)

/-! ## Runs -/

/-- One successful call. -/
inductive Op (H : Hashes) (l : Ledger) : Ledger → Prop
  | registerScope {scopeId portfolioId portfolioHash accountId : String} {l' : Ledger} :
      registerScope l scopeId portfolioId portfolioHash accountId = .ok l' → Op H l l'
  | accept {plan : SymbolNetPlan} {brokerOrderId localOrderId : String} {time : RawTime}
      {l' : Ledger} {created : Bool} :
      recordAcceptedOrder H l plan brokerOrderId localOrderId time = .ok (l', created) → Op H l l'
  | cross {plan : SymbolNetPlan} {price : Raw} {time : RawTime} {l' : Ledger} {n : ℕ} :
      recordInternalCross H l plan price time = .ok (l', n) → Op H l l'
  | apply {scopeId : String} {events : List ExecutionEvent} {l' : Ledger}
      {report : ExecutionSyncReport} :
      applyExecutionEvents H l scopeId events = .ok (l', report) → Op H l l'
  | reconcile {scopeId : String} {brokerHoldings : List (String × Raw)}
      {managedSymbols : List String} {persist : Bool} {time : RawTime} {l' : Ledger}
      {result : PortfolioReconciliation} :
      reconcileRestart H l scopeId brokerHoldings managedSymbols persist time = .ok (l', result) →
      Op H l l'

/-- What successful calls build from an empty file. -/
def Reachable (H : Hashes) (l : Ledger) : Prop := Relation.ReflTransGen (Op H) Ledger.empty l

end LiveTrader.Portfolio
