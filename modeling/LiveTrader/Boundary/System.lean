/-
# `Boundary.System` — queue owners on one file

The table `pending` of `NativeBoundaryQueue` and what `stage` and `release` do
with it.  `stage` is one transaction.  `release` reads the waiting rows, and then
for each of them decides on a result or on a call of `prepare`, claims the row in
a transaction of its own, and records the result in another; `screen`, `claim`
and `record` are these three parts.

A payload is written as JSON and read back as it was, so a row holds the payload
itself.  The `result` column is written but never read.  What comes from other
packages is `Env`: the canonical hash, the parser of ISO times and the calendar.

Any number of `NativeBoundaryQueue` objects, each with an owner of its own and any
number of threads, work on one table.  A thread inside `release` is in the loop over
the rows it read, has consumed a row and not yet acted on it, has called `prepare`,
or has a result to record; between two of these points any other thread may run and
the process may end.  A transaction that is not `written` raises and changes
nothing.  `log` keeps which payloads were staged and which calls of `prepare` were
made.
-/
import LiveTrader.Lib.Json
import LiveTrader.Lib.Runs
import LiveTrader.Lib.Table
import Mathlib.Data.List.Sort

namespace LiveTrader.Boundary

open Lib Lib.Py

/-! ## What is staged -/

/-- The closed bar of a decision: `to_dict()`, `end_time` and `str(close)`. -/
structure Bar where
  dict : Json
  endTime : String
  close : String

structure Decision where
  evaluationKey : String
  signal : String
  reason : String
  bar : Bar

structure Spec where
  parameters : Fields
  artifact : Fields
  artifactHash : String
  portfolioHash : String
  strategyInstanceId : String
  strategyId : String
  provider : String
  instrumentId : String
  symbol : String
  timeframe : String

/-- The bar that opens, as a feed reports it. -/
structure OpenBoundary where
  provider : String
  instrumentId : String
  symbol : String
  timeframe : String
  startTime : String
  observedTime : String
  recoveryOnly : Bool
  promotionEligible : Bool
  attestation : String
  sourceProvider : String
  marketDataHash : String

/-- What `decision_payload` returns. -/
structure Payload where
  deploymentId : String
  sourceArtifactHash : String
  portfolioHash : String
  strategyInstanceId : String
  strategyId : String
  evaluationKey : String
  signal : String
  reason : String
  provider : String
  instrumentId : String
  symbol : String
  timeframe : String
  closedBar : Json
  closedBarEnd : String
  closedSignalPrice : String
  expectedStart : String

def Payload.toJson (p : Payload) : Json :=
  .obj [("deploymentId", .str p.deploymentId), ("sourceArtifactHash", .str p.sourceArtifactHash),
    ("portfolioHash", .str p.portfolioHash), ("strategyInstanceId", .str p.strategyInstanceId),
    ("strategyId", .str p.strategyId), ("evaluationKey", .str p.evaluationKey),
    ("signal", .str p.signal), ("reason", .str p.reason), ("provider", .str p.provider),
    ("instrumentId", .str p.instrumentId), ("symbol", .str p.symbol),
    ("timeframe", .str p.timeframe), ("closedBar", p.closedBar),
    ("closedBarEnd", .str p.closedBarEnd), ("closedSignalPrice", .str p.closedSignalPrice),
    ("expectedStart", .str p.expectedStart)]

/-- Provider, instrument, symbol and timeframe. -/
abbrev Stream := String × String × String × String

def Payload.stream (p : Payload) : Stream := (p.provider, p.instrumentId, p.symbol, p.timeframe)

def OpenBoundary.stream (b : OpenBoundary) : Stream :=
  (b.provider, b.instrumentId, b.symbol, b.timeframe)

def Spec.stream (s : Spec) : Stream := (s.provider, s.instrumentId, s.symbol, s.timeframe)

structure Env where
  /-- `stable_sha256`. -/
  sha256 : Json → String
  /-- `datetime.fromisoformat`. -/
  fromisoformat : String → Option Datetime
  /-- `next_tradable_boundary_start(…).isoformat()` of a stream and a closed bar's end. -/
  nextStart : Stream → String → Result String

/-- `_time`. -/
def Env.time (env : Env) (value : String) : Result Datetime := do
  let value ← orRaise (.value "Invalid isoformat string") (env.fromisoformat (replaceZ value))
  require (value.aware = true) (.value "BOUNDARY_TIME_TIMEZONE_REQUIRED")
  pure value

/-- The declared execution timings of a specification. -/
def Spec.declared (spec : Spec) : Result (List Json) := do
  let execution ← ((spec.artifact.at "executionPolicy").orElse (.obj [])).fields
  let portfolio ← ((spec.artifact.at "portfolioExecutionPolicy").orElse (.obj [])).fields
  pure (([spec.parameters, execution, portfolio].map (·.at "executionTiming")).filter fun value =>
    match value with
    | .null => false
    | _ => true)

/-- `value in {"next-open", "NEXT_BAR_OPEN"}`. -/
def isNextOpen : Json → Bool
  | .str s => s ∈ ["next-open", "NEXT_BAR_OPEN"]
  | _ => false

def decisionPayload (env : Env) (decision : Decision) (spec : Spec) (deploymentId : String) :
    Result Payload := do
  let declared ← spec.declared
  require (declared ≠ [] ∧ declared.all isNextOpen = true)
    (.value "NATIVE_SOURCE_NEXT_OPEN_CONTRACT_NOT_DECLARED")
  let expectedStart ← env.nextStart spec.stream decision.bar.endTime
  pure {
    deploymentId
    sourceArtifactHash := spec.artifactHash
    portfolioHash := spec.portfolioHash
    strategyInstanceId := spec.strategyInstanceId
    strategyId := spec.strategyId
    evaluationKey := decision.evaluationKey
    signal := decision.signal
    reason := decision.reason
    provider := spec.provider
    instrumentId := spec.instrumentId
    symbol := spec.symbol
    timeframe := spec.timeframe
    closedBar := decision.bar.dict
    closedBarEnd := decision.bar.endTime
    closedSignalPrice := decision.bar.close
    expectedStart }

/-! ## The table -/

inductive RowState where
  | waitOpenBoundary
  | boundaryClaimed
  | blocked
  | preparedOnce
  deriving DecidableEq

structure Row where
  evaluationKey : String
  owner : String
  payload : Payload
  contentHash : String
  state : RowState

abbrev Queue := Table Row.evaluationKey

/-- `stage`, as one transaction: the row it inserts, if it inserts one, and the action it
returns. -/
def stage (env : Env) (owner : String) (q : Queue) (decision : Decision) (spec : Spec)
    (deploymentId : String) : Result (Queue × Option Row × RowState) := do
  require ((decision.signal = "BUY" ∨ decision.signal = "SELL") ∧ deploymentId ≠ "")
    (.value "BOUNDARY_SIGNAL_SCOPE_MISSING")
  let payload ← decisionPayload env decision spec deploymentId
  let digest := env.sha256 payload.toJson
  match q.get? payload.evaluationKey with
  | some old => do
    require (old.owner = owner) (.value "BOUNDARY_PREVIOUS_OWNER_RECONCILIATION_REQUIRED")
    require (old.contentHash = digest) (.value "BOUNDARY_SIGNAL_IDEMPOTENCY_CONFLICT")
    pure (q, none, old.state)
  | none => do
    let row : Row := ⟨payload.evaluationKey, owner, payload, digest, .waitOpenBoundary⟩
    let q' ← orRaise (.integrity "UNIQUE constraint failed: pending.evaluation_key") (q.insert row)
    pure (q', some row, .waitOpenBoundary)

/-! ## The parts of `release` -/

/-- The arguments of one call. -/
structure Call where
  boundary : OpenBoundary
  specs : List Spec
  deploymentId : String
  now : Datetime

/-- The rows the call reads first, in the order of their keys. -/
def waiting (q : Queue) : List Row :=
  (q.rows.filter (·.state = .waitOpenBoundary)).insertionSort (·.evaluationKey ≤ ·.evaluationKey)

/-- What is to be done with a row. -/
inductive Screened where
  /-- The row is left to a later boundary. -/
  | skip
  | blocked (reason : String)
  | ready (spec : Spec)

/-- The specification of a strategy instance; the last one of a name counts. -/
def Call.spec? (c : Call) (instanceId : String) : Option Spec :=
  c.specs.reverse.find? (·.strategyInstanceId = instanceId)

/-- The real-time source of a provider. -/
def attestationOf (provider : String) : Option String :=
  [("binance", "BINANCE_WEBSOCKET"), ("upbit", "UPBIT_WEBSOCKET"),
    ("kis", "KIS_WEBSOCKET")].lookup provider

/-- `0 <= d.total_seconds() <= 30`. -/
def within30 (d : ℤ) : Bool := 0 ≤ d && d ≤ Datetime.seconds 30

/-- Both ages, the second one only when the first is right. -/
def fresh (env : Env) (c : Call) (start : Datetime) : Result Bool := do
  let observed ← env.time c.boundary.observedTime
  let lag ← observed.sub start
  if within30 lag then do
    let age ← c.now.sub start
    pure (within30 age)
  else pure false

/-- The checks on one row. -/
def screen (env : Env) (owner : String) (c : Call) (row : Row) : Result Screened :=
  let p := row.payload
  let b := c.boundary
  if p.stream ≠ b.stream then .ok .skip
  else do
    require (row.owner = owner) (.value "BOUNDARY_PREVIOUS_OWNER_RECONCILIATION_REQUIRED")
    require (env.sha256 p.toJson = row.contentHash) (.value "BOUNDARY_SIGNAL_SEAL_INVALID")
    let expected ← env.time p.expectedStart
    let start ← env.time b.startTime
    if start.micros < expected.micros then pure .skip
    else match c.spec? p.strategyInstanceId with
      | none => pure (.blocked "BOUNDARY_CURRENT_SOURCE_SCOPE_CHANGED")
      | some spec =>
        if p.deploymentId ≠ c.deploymentId ∨ p.sourceArtifactHash ≠ spec.artifactHash ∨
            p.portfolioHash ≠ spec.portfolioHash then
          pure (.blocked "BOUNDARY_CURRENT_SOURCE_SCOPE_CHANGED")
        else if expected.micros ≠ start.micros then
          pure (.blocked "EXACT_NEXT_OPEN_BOUNDARY_MISSED")
        else if b.stream ≠ spec.stream then
          pure (.blocked "BOUNDARY_CURRENT_INSTRUMENT_CHANGED")
        else if b.recoveryOnly ∨ ¬ b.promotionEligible ∨
            some b.attestation ≠ attestationOf spec.provider ∨ b.sourceProvider ≠ spec.provider then
          pure (.blocked "BOUNDARY_REALTIME_SOURCE_NOT_VERIFIED")
        else do
          let timely ← fresh env c start
          pure (if timely then .ready spec else .blocked "EXACT_NEXT_OPEN_BOUNDARY_EXPIRED")

/-- A row under another state. -/
def Row.moved (state : RowState) (row : Row) : Row := { row with state }

theorem Row.moved_key (state : RowState) (row : Row) :
    (row.moved state).evaluationKey = row.evaluationKey := rfl

/-- `UPDATE … SET state=new WHERE evaluation_key=? AND owner=? AND state=old`, and whether it
found its row. -/
def compareAndSet (q : Queue) (key owner : String) (old new : RowState) : Queue × Bool :=
  match q.get? key with
  | none => (q, false)
  | some row =>
    if row.owner = owner ∧ row.state = old then (q.update key (Row.moved new) (Row.moved_key new), true)
    else (q, false)

/-- The one-shot consumption of a row. -/
def claim (q : Queue) (owner key : String) : Queue × Bool :=
  compareAndSet q key owner .waitOpenBoundary .boundaryClaimed

/-- The state a result puts a row in. -/
def resultState (result : Fields) : RowState :=
  if (result.at "ok").isTrue then .preparedOnce else .blocked

/-- The result of a consumed row. -/
def record (q : Queue) (owner key : String) (result : Fields) : Queue :=
  (compareAndSet q key owner .boundaryClaimed (resultState result)).1

/-- The result of a row that is not handed to `prepare`. -/
def blockedResult (reason : String) : Fields :=
  [("ok", .bool false), ("action", .str "BLOCKED"), ("reason", .str reason),
    ("orderSubmitted", .bool false)]

/-! ## Queue owners on one file -/

/-- A consumed row and what was decided on it. -/
structure Consumed where
  row : Row
  /-- A reason not to prepare it, or the specification to prepare it with. -/
  verdict : String ⊕ Spec

inductive Thread where
  | idle
  /-- At the head of the loop over the remaining rows. -/
  | releasing (call : Call) (rest : List Row)
  | consumed (call : Call) (c : Consumed) (rest : List Row)
  /-- `prepare` runs. -/
  | preparing (call : Call) (key : String) (rest : List Row)
  | answered (call : Call) (key : String) (result : Fields) (rest : List Row)

/-- A call of `prepare`, with who makes it and when the boundary was released. -/
structure Preparation where
  owner : String
  payload : Payload
  spec : Spec
  boundary : OpenBoundary
  now : Datetime

inductive Event where
  | staged (owner : String) (payload : Payload)
  | prepared (p : Preparation)

structure System where
  queue : Queue
  /-- The owners that are still running. -/
  alive : String → Bool
  thread : String → ℕ → Thread
  drawn : List String
  log : List Event

namespace System

def init : System := ⟨.empty, fun _ => false, fun _ _ => .idle, [], []⟩

def setThread (s : System) (o : String) (n : ℕ) (t : Thread) : System :=
  { s with thread := fun o' n' => if o' = o ∧ n' = n then t else s.thread o' n' }

def write (s : System) (q : Queue) : System := { s with queue := q }

def note (s : System) (e : Event) : System := { s with log := s.log ++ [e] }

end System

/-- How a call of `prepare` ends. -/
inductive Reply where
  | result (value : Json)
  | raised

/-- `__init__` draws an owner. -/
def openQueue (s : System) (o : String) : Option System :=
  if o ∈ s.drawn then none
  else some { s with drawn := o :: s.drawn, alive := fun o' => o' = o || s.alive o' }

/-- The process of an owner ends. -/
def crash (s : System) (o : String) : System :=
  { s with
    alive := fun o' => o' ≠ o && s.alive o'
    thread := fun o' n => if o' = o then .idle else s.thread o' n }

def stageAt (env : Env) (s : System) (o : String) (decision : Decision) (spec : Spec)
    (deploymentId : String) (written : Bool) : Option System :=
  if s.alive o then
    match written, stage env o s.queue decision spec deploymentId with
    | true, .ok (q, some row, _) => some ((s.write q).note (.staged o row.payload))
    | _, _ => some s
  else none

/-- `release` up to its loop. -/
def release (s : System) (o : String) (n : ℕ) (call : Call) : Option System :=
  if s.alive o then
    match s.thread o n with
    | .idle => some (s.setThread o n (.releasing call (waiting s.queue)))
    | _ => none
  else none

/-- The consuming transaction on a row, with what was decided on the row before. -/
def take (s : System) (o : String) (n : ℕ) (written : Bool) (call : Call) (row : Row)
    (rest : List Row) (verdict : String ⊕ Spec) : System :=
  match written, claim s.queue o row.evaluationKey with
  | false, _ => s.setThread o n .idle
  | true, (_, false) => s.setThread o n (.releasing call rest)
  | true, (q, true) => (s.write q).setThread o n (.consumed call ⟨row, verdict⟩ rest)

/-- The head of the loop up to the end of the consuming transaction. -/
def consume (env : Env) (s : System) (o : String) (n : ℕ) (written : Bool) : Option System :=
  match s.thread o n with
  | .releasing call (row :: rest) =>
    match screen env o call row with
    | .error _ => some (s.setThread o n .idle)
    | .ok .skip => some (s.setThread o n (.releasing call rest))
    | .ok (.blocked reason) => some (take s o n written call row rest (.inl reason))
    | .ok (.ready spec) => some (take s o n written call row rest (.inr spec))
  | .releasing _ [] => some (s.setThread o n .idle)
  | _ => none

/-- A consumed row gets its result, or `prepare` is called for it. -/
def act (s : System) (o : String) (n : ℕ) : Option System :=
  match s.thread o n with
  | .consumed call ⟨row, .inl reason⟩ rest =>
    some (s.setThread o n (.answered call row.evaluationKey (blockedResult reason) rest))
  | .consumed call ⟨row, .inr spec⟩ rest =>
    some ((s.setThread o n (.preparing call row.evaluationKey rest)).note
      (.prepared ⟨o, row.payload, spec, call.boundary, call.now⟩))
  | _ => none

/-- `prepare` ends. -/
def reply (s : System) (o : String) (n : ℕ) (r : Reply) : Option System :=
  match s.thread o n with
  | .preparing call key rest =>
    match r with
    | .result (.obj result) => some (s.setThread o n (.answered call key result rest))
    | _ => some (s.setThread o n .idle)
  | _ => none

/-- The recording transaction. -/
def recordAt (s : System) (o : String) (n : ℕ) (written : Bool) : Option System :=
  match s.thread o n with
  | .answered call key result rest =>
    if written then
      some ((s.write (record s.queue o key result)).setThread o n (.releasing call rest))
    else some (s.setThread o n .idle)
  | _ => none

inductive Action where
  | openQueue (o : String)
  | crash (o : String)
  | stage (o : String) (decision : Decision) (spec : Spec) (deploymentId : String) (written : Bool)
  | release (o : String) (n : ℕ) (call : Call)
  | consume (o : String) (n : ℕ) (written : Bool)
  | act (o : String) (n : ℕ)
  | reply (o : String) (n : ℕ) (r : Reply)
  | record (o : String) (n : ℕ) (written : Bool)

def step (env : Env) (s : System) : Action → Option System
  | .openQueue o => openQueue s o
  | .crash o => some (crash s o)
  | .stage o decision spec deploymentId written =>
    stageAt env s o decision spec deploymentId written
  | .release o n call => release s o n call
  | .consume o n written => consume env s o n written
  | .act o n => act s o n
  | .reply o n r => reply s o n r
  | .record o n written => recordAt s o n written

end LiveTrader.Boundary
