/-
# `ShortBroker.System` — adapters that share a budget

Each adapter has its claims, the last rows of its orders and the `submit` that is under way; all of
them reserve from one budget.  A submit takes steps of its own where others can come between them:
the claim, the call of the transport, its reply, and the first read.  The account reads that a submit
or a cleanup makes are read steps; a cleanup sends its closing orders by submit, and its cancels change
nothing that is modelled here.

What the readers, the transport and the other checks answer comes with the step.  The log holds what
was reserved, sent, stated by the broker and reported, newest first.
-/
import LiveTrader.ShortBroker.Replies
import LiveTrader.Lib.Decimal
import LiveTrader.Lib.Runs
import Mathlib.Logic.Function.Basic

namespace LiveTrader.ShortBroker

open Lib Lib.Py Lib.Runs Lib.Decimal

/-! ## The budget -/

/-- `SharedExchangeBudget.reservations`. -/
abbrev Reservations := Dict (Exchange × String) ℚ

/-- `d.get(key)`. -/
abbrev entryOf {κ ν : Type} [DecidableEq κ] (d : Dict κ ν) (key : κ) : Option ν := d.lookup key

/-- The amounts that are reserved on an exchange. -/
def heldOn (reservations : Reservations) (exchange : Exchange) : List ℚ :=
  (reservations.filter fun entry => entry.1.1 = exchange).map Prod.snd

/-- `MAX_EXCHANGE_KRW`. -/
def maxExchangeKrw : ℚ := 100000

def reserve (reservations : Reservations) (exchange : Exchange) (clientId : String) (amount observed : ℚ) :
    Result Reservations := do
  require (entryOf reservations (exchange, clientId) = none) (blocked "ORDER_ALREADY_RESERVED")
  require (¬ (amount < 0 ∨ maxExchangeKrw < ctx 28 (ctx 28 (observed + ctxSum 28 (heldOn reservations exchange)) + amount)))
    (blocked "EXCHANGE_SHARED_BUDGET_EXCEEDED")
  pure (reservations.set (exchange, clientId) amount)

def releaseTerminal (reservations : Reservations) (exchange : Exchange) (clientId : String) : Reservations :=
  reservations.filter fun entry => entry.1 ≠ (exchange, clientId)

/-! ## State -/

inductive Phase where
  | claimed
  | sent
  | replied
  deriving DecidableEq

/-- A submit under way. -/
structure Pending where
  order : Order
  amount : ℚ
  phase : Phase

structure Adapter where
  claims : Dict String Claim
  fillRows : Dict String Fields
  pending : Option Pending

inductive Event where
  | reserved (adapter : ℕ) (clientId : String) (amount : ℚ)
  | sent (adapter : ℕ) (clientId : String) (quantity amount : ℚ)
  /-- The broker states an executed quantity. -/
  | stated (adapter : ℕ) (clientId : String) (executed : ℚ)
  /-- The reply refuses the order, with nothing executed. -/
  | refused (adapter : ℕ) (clientId : String)
  /-- The order was observed; final with nothing executed, or not. -/
  | observed (adapter : ℕ) (clientId : String) (unfilled : Bool)
  /-- The route is read flat, with every order terminal or refused. -/
  | flat (adapter : ℕ)
  /-- A reconcile with such a read has succeeded. -/
  | settled (adapter : ℕ)
  | reported (adapter : ℕ) (clientId : String) (status : Status)

structure State where
  reservations : Reservations
  adapter : ℕ → Adapter
  log : List Event

/-- The route of every adapter. -/
abbrev Setup := ℕ → Route

namespace State

def put (s : State) (i : ℕ) (a : Adapter) : State := { s with adapter := Function.update s.adapter i a }

def note (s : State) (e : Event) : State := { s with log := e :: s.log }

@[simp] theorem put_reservations (s : State) (i : ℕ) (a : Adapter) : (s.put i a).reservations = s.reservations := rfl

@[simp] theorem put_log (s : State) (i : ℕ) (a : Adapter) : (s.put i a).log = s.log := rfl

@[simp] theorem put_adapter (s : State) (i : ℕ) (a : Adapter) : (s.put i a).adapter i = a := by
  simp only [put, Function.update_self]

theorem put_adapter_ne (s : State) {i j : ℕ} (h : j ≠ i) (a : Adapter) : (s.put i a).adapter j = s.adapter j := by
  simp only [put, Function.update_of_ne h]

theorem put_put (s : State) (i : ℕ) (a b : Adapter) : (s.put i a).put i b = s.put i b := by
  simp only [put, Function.update_idem]

@[simp] theorem note_reservations (s : State) (e : Event) : (s.note e).reservations = s.reservations := rfl

@[simp] theorem note_adapter (s : State) (e : Event) : (s.note e).adapter = s.adapter := rfl

@[simp] theorem note_log (s : State) (e : Event) : (s.note e).log = e :: s.log := rfl

end State

/-! ## Account reads -/

/-- An order of the exchange that no submit has sent. -/
structure External where
  actual : Observed
  positionSide : String

/-- What a complete account read gives: the quantities of the positions, and the number of open orders. -/
structure Account where
  positions : List ℚ
  openOrders : ℕ

/-- What is read for a snapshot. -/
structure Read where
  /-- The executions of protective stops; `true` is a `FuturesProtectionError`. -/
  poll : Except Bool (List External)
  /-- The account, if it is known, complete, fresh and that of the session. -/
  account : Result Account
  rows : String → Result Observed
  /-- The executions of forced closes. -/
  forced : List External
  /-- The checks of the inventory, the positions, the open orders and the protection. -/
  checks : Result Unit

section read

variable (env : Env)

def externalId (x : External) (brokerId symbol : String) : String :=
  "external-" ++ symbol ++ "-" ++ x.positionSide ++ "-" ++ brokerId

/-- `_add_external_fill`. -/
def addExternal (x : External) (a : Adapter) : Result Adapter := do
  let row := x.actual.row
  require ((row.at "known").isTrue = true) (blocked "FUTURES_EXTERNAL_EXECUTION_OR_FEE_UNKNOWN")
  require (x.actual.fresh = true) (blocked "OBSERVATION_STALE")
  let quantity ← number env (row.at "filledQuantity")
  if quantity ≤ 0 then pure a
  else do
    require (isSome (row.at "feeNative") = true) (blocked "FUTURES_EXTERNAL_EXECUTION_OR_FEE_UNKNOWN")
    let brokerId := env.str ((row.lookup "brokerOrderId").getD (.str ""))
    let symbol := env.str ((row.lookup "symbol").getD (.str ""))
    let side := env.str (row.at "side")
    require (brokerId ≠ "" ∧ (equals (row.at "side") "BUY" || equals (row.at "side") "SELL") = true)
      (blocked "FUTURES_EXTERNAL_EXECUTION_IDENTITY_UNKNOWN")
    let clientId := externalId x brokerId symbol
    let shown ← shownQuantity env a.fillRows clientId
    require (shown ≤ quantity) (blocked "FUTURES_EXTERNAL_CUMULATIVE_FILL_REGRESSED")
    pure { a with
      claims := a.claims.set clientId ⟨.reported (row.at "status"), symbol, side, quantity, brokerId, "", true⟩
      fillRows := a.fillRows.set clientId row }

/-- One after the other, until one raises. -/
def addExternals : List External → Adapter → Adapter × Result Unit
  | [], a => (a, .ok ())
  | x :: rest, a =>
    match addExternal env x a with
    | .error e => (a, .error e)
    | .ok a => addExternals rest a

/-- `_poll_futures_protection`. -/
def pollFuturesProtection (route : Route) (read : Read) (a : Adapter) : Adapter × Result Unit :=
  if route = .binanceUsdmFutures then
    match read.poll with
    | .error true => (a, .ok ())
    | .error false => (a, .error (blocked "FUTURES_PROTECTION_UNKNOWN"))
    | .ok items => addExternals env items a
  else (a, .ok ())

/-- A claim that is not read: an external one, or one that was never an order. -/
def Claim.skipped (claim : Claim) : Bool :=
  claim.externalExecution || (claim.brokerOrderId = "" && !claim.status.isUnknown)

/-- The rows of the claims, joined with them in their order. -/
def joinClaims (route : Route) (rows : String → Result Observed) : List (String × Claim) → Adapter → Adapter × Result Unit
  | [], a => (a, .ok ())
  | (clientId, claim) :: rest, a =>
    if claim.skipped then joinClaims route rows rest a
    else
      match readClaimTruth env route claim clientId (rows clientId) with
      | .error e => (a, .error e)
      | .ok row =>
        let a := { a with
          claims := a.claims.set clientId { claim with brokerOrderId := rowBrokerId env row }
          fillRows := a.fillRows.set clientId row }
        if rowState env row = "UNKNOWN" then (a, .error (blocked "OWNED_ORDER_STATE_UNKNOWN"))
        else joinClaims route rows rest a

/-- The forced closes, and the checks. -/
def checkSnapshot (route : Route) (read : Read) (account : Account) (a : Adapter) : Adapter × Result Account :=
  match if route = .binanceUsdmFutures then addExternals env read.forced a else (a, .ok ()) with
  | (a, .error e) => (a, .error e)
  | (a, .ok _) => (a, read.checks.map fun _ => account)

/-- `_snapshot`. -/
def snapshot (route : Route) (read : Read) (a : Adapter) : Adapter × Result Account :=
  match pollFuturesProtection env route read a with
  | (a, .error e) => (a, .error e)
  | (a, .ok _) =>
    match read.account with
    | .error e => (a, .error e)
    | .ok account =>
      match joinClaims env route read.rows a.claims a with
      | (a, .error e) => (a, .error e)
      | (a, .ok _) => checkSnapshot env route read account a

end read

/-! ## Submits -/

/-- What `size_order` says of a reserved order. -/
structure Checked where
  requiredCapitalKrw : ℚ
  /-- `positionMode == "HEDGE"`. -/
  hedge : Bool

/-- What is reserved for the order. -/
def reservedFor (order : Order) (checked : Checked) : ℚ := if order.riskReducing then 0 else checked.requiredCapitalKrw

/-- The position side of the claim. -/
def claimSide (route : Route) (order : Order) (checked : Checked) : Result String :=
  if route = .binanceUsdmFutures then
    if checked.hedge then
      match order.positionDirection with
      | .str direction => .ok (upper direction)
      | _ => .error (.type "upper")
    else .ok "BOTH"
  else .ok ""

/-- The claim before the transport is called. -/
def claimOf (route : Route) (order : Order) (checked : Checked) : Result Claim := do
  let positionSide ← claimSide route order checked
  pure ⟨.unknown, order.symbol, order.side, order.quantity, "", positionSide, false⟩

section submit

variable (env : Env) (setup : Setup)

/-- A submit returns the claim of the order. -/
def State.reportClaim (s : State) (i : ℕ) (clientId : String) : State :=
  match (s.adapter i).claims.lookup clientId with
  | some claim => s.note (.reported i clientId claim.status)
  | none => s.note (.reported i clientId .rejected)

/-- A submit until it has made its claim.  What is checked first (the scope, the form of the id, the authority,
the times, and the order itself) and what it reads is in `checked`. -/
def enter (s : State) (i : ℕ) (order : Order) (checked : Result Checked) : Option State :=
  let a := s.adapter i
  if a.pending.isSome then none
  else if (a.claims.lookup order.clientOrderId).isSome then some (s.reportClaim i order.clientOrderId)
  else
    match checked with
    | .error _ => some (s.reportClaim i order.clientOrderId)
    | .ok checked =>
      let amount := reservedFor order checked
      match reserve s.reservations (setup i).exchange order.clientOrderId amount 0 with
      | .error _ => some (s.reportClaim i order.clientOrderId)
      | .ok reservations =>
        let s := { s with reservations }.note (.reserved i order.clientOrderId amount)
        match claimOf (setup i) order checked with
        | .error _ => some (s.reportClaim i order.clientOrderId)
        | .ok claim => some (s.put i { a with
            claims := a.claims.set order.clientOrderId claim
            pending := some ⟨order, amount, .claimed⟩ })

/-- The submit under way in a phase. -/
def pendingIn (a : Adapter) (phase : Phase) : Option Pending := a.pending.filter (·.phase = phase)

/-- The submit returns its claim. -/
def finishSubmit (s : State) (i : ℕ) (clientId : String) : State :=
  (s.put i { s.adapter i with pending := none }).reportClaim i clientId

/-- Something raises before the transport is called. -/
def abandon (s : State) (i : ℕ) : Option State :=
  match pendingIn (s.adapter i) .claimed with
  | none => none
  | some pending => some (finishSubmit s i pending.order.clientOrderId)

def send (s : State) (i : ℕ) : Option State :=
  match pendingIn (s.adapter i) .claimed with
  | none => none
  | some pending =>
    some ((s.put i { s.adapter i with pending := some { pending with phase := .sent } }).note
      (.sent i pending.order.clientOrderId pending.order.quantity pending.amount))

/-- What the reply states. -/
def noteReply (s : State) (i : ℕ) (clientId : String) (response : Json) : State :=
  let s := match statedReply env response with
    | some executed => s.note (.stated i clientId executed)
    | none => s
  if refusesReply env clientId response && !(statedReply env response).any (0 < ·) then s.note (.refused i clientId) else s

/-- The claim becomes what the reply says; a refused order gives its reservation back, if nothing
raises before.  An order with a broker id is read once. -/
def applyReply (s : State) (i : ℕ) (pending : Pending) (reply : Reply) (intentFound : Bool) : State :=
  let a := s.adapter i
  let clientId := pending.order.clientOrderId
  match a.claims.lookup clientId with
  | none => finishSubmit s i clientId
  | some claim =>
    let brokerOrderId := if reply.brokerOrderId = "" then claim.brokerOrderId else reply.brokerOrderId
    let s := s.put i { a with claims := a.claims.set clientId { claim with status := reply.status, brokerOrderId } }
    match reply.status with
    | .rejected =>
      if intentFound then
        finishSubmit { s with reservations := releaseTerminal s.reservations (setup i).exchange clientId } i clientId
      else finishSubmit s i clientId
    | _ =>
      if brokerOrderId = "" then finishSubmit s i clientId
      else s.put i { s.adapter i with pending := some { pending with phase := .replied } }

def reply (s : State) (i : ℕ) (response : Result Json) (intentFound : Bool) : Option State :=
  match pendingIn (s.adapter i) .sent with
  | none => none
  | some pending =>
    match response with
    | .error _ => some (finishSubmit s i pending.order.clientOrderId)
    | .ok response =>
      let s := noteReply env s i pending.order.clientOrderId response
      match normalizeReply env response pending.order with
      | .error _ => some (finishSubmit s i pending.order.clientOrderId)
      | .ok reply => some (applyReply setup s i pending reply intentFound)

/-- What a row states of an order. -/
def noteRow (s : State) (i : ℕ) (clientId : String) (row : Fields) : State :=
  let s := match (number env (row.at "filledQuantity")).toOption with
    | some executed => s.note (.stated i clientId executed)
    | none => s
  s.note (.observed i clientId (endsUnfilled env row))

/-- The row is about the order that the reply has named. -/
def firstRowMatches (claim : Claim) (row : Fields) : Bool :=
  (row.at "known").isTrue && env.str (row.at "brokerOrderId") = claim.brokerOrderId && equals (row.at "symbol") claim.symbol

/-- The one read after a reply. -/
def firstRead (s : State) (i : ℕ) (answer : Result Observed) : Option State :=
  match pendingIn (s.adapter i) .replied with
  | none => none
  | some pending =>
    let a := s.adapter i
    let clientId := pending.order.clientOrderId
    match answer, a.claims.lookup clientId with
    | .ok observed, some claim =>
      if firstRowMatches env claim observed.row && observed.fresh then
        let s := (noteRow env s i clientId observed.row).put i { a with
          claims := match firstStatus env observed.row pending.order.quantity with
            | .ok status => a.claims.set clientId { claim with status }
            | .error _ => a.claims
          fillRows := a.fillRows.set clientId observed.row }
        some (finishSubmit s i clientId)
      else some (finishSubmit s i clientId)
    | _, _ => some (finishSubmit s i clientId)

/-! ## Observations and reconciliation -/

/-- `observe_order`.  The market and the fee are read after the row. -/
def observe (s : State) (i : ℕ) (clientId : String) (answer : Result Observed) (marketRead : Bool) : Option State :=
  let a := s.adapter i
  if a.pending.isSome then none
  else
    match a.claims.lookup clientId with
    | none => some (s.note (.reported i clientId .unknown))
    | some claim =>
      match readClaimTruth env (setup i) claim clientId answer with
      | .error _ => some (s.note (.reported i clientId .unknown))
      | .ok row =>
        let claim := { claim with brokerOrderId := rowBrokerId env row }
        let s := (noteRow env s i clientId row).put i { a with claims := a.claims.set clientId claim }
        match observeRow env (setup i) claim a.fillRows clientId row, marketRead with
        | .ok (status, _), true =>
          some ((s.put i { a with
            claims := a.claims.set clientId { claim with status }
            fillRows := a.fillRows.set clientId row }).note (.reported i clientId status))
        | _, _ => some (s.note (.reported i clientId .unknown))

/-- The status text of a row is final. -/
def terminalRow : Option Fields → Bool
  | some row => env.str (row.at "status") ∈ ["FILLED", "REJECTED", "CANCELED", "CANCELLED", "EXPIRED"]
  | none => false

/-- No position and no open order. -/
def Account.empty (account : Account) : Bool := account.positions.all (· = 0) && account.openOrders = 0

/-- The test before reservations are given back. -/
def settledFlat (account : Account) (a : Adapter) : Bool :=
  account.empty && a.claims.all fun entry => terminalRow env (a.fillRows.lookup entry.1)

def Event.isRefusal (i : ℕ) (clientId : String) : Event → Bool
  | .refused j other => j = i && other = clientId
  | _ => false

/-- The route is read flat, with every order terminal or refused. -/
def flatRead (log : List Event) (i : ℕ) (account : Account) (a : Adapter) : Bool :=
  account.empty && a.claims.all fun entry =>
    terminalRow env (a.fillRows.lookup entry.1) || log.any (Event.isRefusal i entry.1)

def releaseAll (reservations : Reservations) (exchange : Exchange) (clientIds : List String) : Reservations :=
  clientIds.foldl (fun reservations clientId => releaseTerminal reservations exchange clientId) reservations

/-- A snapshot of the account, by whichever call. -/
def readAccount (s : State) (i : ℕ) (read : Read) : Option State :=
  some (s.put i (snapshot env (setup i) read (s.adapter i)).1)

/-- `reconcile`: what is valued before the reservations, and what is settled after them, may raise. -/
def reconcile (s : State) (i : ℕ) (read : Read) (valued settled : Bool) : Option State :=
  match snapshot env (setup i) read (s.adapter i) with
  | (a, .error _) => some (s.put i a)
  | (a, .ok account) =>
    let flat := flatRead env s.log i account a
    let s := if flat then (s.put i a).note (.flat i) else s.put i a
    if valued then
      let s := if settledFlat env account a then
          { s with reservations := releaseAll s.reservations (setup i).exchange (a.claims.map Prod.fst) }
        else s
      some (if settled && flat then s.note (.settled i) else s)
    else some s

/-! ## Steps -/

inductive Label where
  | enter (adapter : ℕ) (order : Order) (checked : Result Checked)
  | abandon (adapter : ℕ)
  | send (adapter : ℕ)
  | reply (adapter : ℕ) (response : Result Json) (intentFound : Bool)
  | firstRead (adapter : ℕ) (answer : Result Observed)
  | observe (adapter : ℕ) (clientId : String) (answer : Result Observed) (marketRead : Bool)
  | read (adapter : ℕ) (read : Read)
  | reconcile (adapter : ℕ) (read : Read) (valued settled : Bool)

def step (s : State) : Label → Option State
  | .enter i order checked => enter setup s i order checked
  | .abandon i => abandon s i
  | .send i => send s i
  | .reply i response intentFound => reply env setup s i response intentFound
  | .firstRead i answer => firstRead env s i answer
  | .observe i clientId answer marketRead => observe env setup s i clientId answer marketRead
  | .read i read => readAccount env setup s i read
  | .reconcile i read valued settled => reconcile env setup s i read valued settled

end submit

/-- Fresh adapters, and a budget. -/
def State.initial (reservations : Reservations) : State := ⟨reservations, fun _ => ⟨[], [], none⟩, []⟩

/-! ## Samples -/

/-- `Decimal(str(value))` on what the samples have. -/
def sampleDecimal : Json → Option ℚ
  | .int n => some n
  | .str "0.5" => some (1 / 2)
  | _ => none

def sampleRepr : Json → String
  | .int n => toString n
  | _ => ""

def Env.sample : Env := ⟨sampleRepr, sampleDecimal⟩

/-- One adapter, of Binance spot. -/
def Setup.sample : Setup := fun _ => .binanceSpot

def Order.sample (clientOrderId : String) : Order := ⟨clientOrderId, "BTCUSDT", "BUY", 1, false, .str "long"⟩

def sampleReply (clientOrderId status : String) (executed : Json) : Json :=
  .obj [("orderId", .int 7), ("clientOrderId", .str clientOrderId), ("status", .str status), ("executedQty", executed)]

def sampleRow (status : String) (filled : Json) : Observed :=
  ⟨[("known", .bool true), ("brokerOrderId", .str "7"), ("symbol", .str "BTCUSDT"), ("status", .str status),
    ("filledQuantity", filled), ("baseCommissionKnown", .bool true)], true⟩

/-- An account that is flat. -/
def sampleRead (row : Result Observed) : Read := ⟨.ok [], .ok ⟨[], 0⟩, fun _ => row, [], .ok ()⟩

end LiveTrader.ShortBroker
