/-
# `FunctionalScheduler.Pass` — one pass of the owner loop

`BinanceSpotFunctionalManagedScheduler.run` renews the lease of its owner and drives the evaluations,
each on a deadline of its own, until the session is final.  An operator stop, or a tick that fails,
is a barrier: the durable `CLEANUP` of this session and owner is verified before anything else.

A pass gets the answers of the lifecycle manager and of the clock with it (`Pass`); each of them may
be anything, or an exception.  The log holds the calls and what they answered, newest first.
`continue` and `return` leave a pass as exceptions do (`Exit`).
-/
import LiveTrader.Lib.Json
import LiveTrader.Lib.Proc
import LiveTrader.Lib.Runs
import Mathlib.Algebra.Order.Ring.Rat

namespace LiveTrader.FunctionalScheduler

open Lib Lib.Py Lib.Runs

/-! ## Values -/

/-- An exception: its type, its text, and `getattr(exc, "transient_market_data", False) is True`. -/
structure Raised where
  name : String
  text : String
  transientMarketData : Bool

/-- `f"{type(exc).__name__}:{str(exc)[:200]}"`. -/
def Raised.detail (e : Raised) : String := e.name ++ ":" ++ String.ofList (e.text.toList.take 200)

abbrev Answer (α : Type) := Except Raised α

def lifecycleError (text : String) : Raised := ⟨"BinanceSpotLifecycleError", text, false⟩

structure Env where
  /-- `str(value)`, for a value that is not a text. -/
  text : Json → String
  /-- `int(value)`, or nothing where it raises a `TypeError` or a `ValueError`. -/
  int : Json → Answer (Option ℤ)

/-- The handle, and what does not change about the manager and the scheduler. -/
structure Setup where
  sessionId : String
  ownerId : String
  expiresEpoch : ℚ
  cleanupDeadlineEpoch : ℚ
  heartbeatIntervalSeconds : ℚ
  marketPollIntervalSeconds : ℚ
  maxIterations : Option ℕ
  allowMockLifecycle : Bool
  /-- `manager.control.verify_handle` can be called. -/
  hasVerifier : Bool
  /-- `manager.resume_final_reset` can be called. -/
  hasResume : Bool
  /-- `manager.next_due_ambiguous_claim` and `manager.prove_ambiguous_not_accepted` can be called. -/
  hasProver : Bool
  /-- `manager.fail_ambiguous_reconciliation` can be called. -/
  hasFailer : Bool
  /-- The pass that is the first to find `stop_event` set. -/
  stopFrom : Option ℕ

/-- The answers of one pass. -/
structure Pass where
  clock : Answer ℚ
  status : Answer Fields
  resumeFinalReset : Answer Fields
  resumedStatus : Answer Fields
  failCleanupDeadline : Answer Unit
  beginCleanup : Answer Json
  verifyStatus : Answer Fields
  verifyHandle : Answer Fields
  heartbeat : Answer Unit
  heartbeatStatus : Answer Fields
  /-- The claim that is due, by its id. -/
  nextDueAmbiguousClaim : Answer (Option String)
  proveAmbiguousNotAccepted : Answer Fields
  failAmbiguousReconciliation : Answer Unit
  tick : Answer Fields
  tickStatus : Answer Fields
  /-- Nothing stands for `None`. -/
  finalize : Answer (Option Json)
  finalizeStatus : Answer Fields
  lateClock : Answer ℚ
  wait : Answer Unit

/-! ## State -/

inductive Event where
  | clock (now : ℚ)
  | status (report : Fields)
  | stopSeen
  /-- `begin_cleanup` is called, after this status. -/
  | beginCleanup (before : Fields) (reason : String)
  | token (report : Fields)
  | heartbeat
  /-- The heartbeat has failed, and the session is in cleanup. -/
  | heartbeatLost
  | prove (claimId : String)
  | tick
  | tickFailed
  | finalize
  | finalized
  | wait (seconds : ℚ)
  | returned (ok : Bool) (status : String)

/-- The variables that decide what may be called. -/
structure Gate where
  log : List Event
  /-- Nothing stands for infinity. -/
  nextHeartbeat : Option ℚ
  operatorCleanupLatched : Bool
  cleanupBarrierReason : String
  iterations : ℕ

structure Loop where
  gate : Gate
  nextMarketPoll : ℚ
  lastTick : Option Fields
  ownerFailureDetail : String
  /-- The loop has returned or raised. -/
  ended : Bool

/-- How a pass is left before its end. -/
inductive Exit where
  | again
  | returned
  | raised (e : Raised)

def Exit.raised? : Exit → Option Raised
  | .raised e => some e
  | _ => none

abbrev Prog := Proc Loop Exit

/-! ## Statements -/

variable {α : Type}

def setGate (f : Gate → Gate) : Prog Unit := Proc.modify fun s => { s with gate := f s.gate }

def note (e : Event) : Prog Unit := setGate fun gate => { gate with log := e :: gate.log }

/-- What a call answers. -/
def answer (a : Answer α) : Prog α := Proc.of (a.mapError .raised)

/-- `manager.status()`. -/
def readStatus (a : Answer Fields) : Prog Fields := do
  let report ← answer a
  note (.status report)
  pure report

def setLastTick (report : Fields) : Prog Unit := Proc.modify fun s => { s with lastTick := some report }

/-- `next_market_poll = min(next_market_poll, now)`. -/
def pollNow (now : ℚ) : Prog Unit := Proc.modify fun s => { s with nextMarketPoll := min s.nextMarketPoll now }

def stopHeartbeats : Prog Unit := setGate fun gate => { gate with nextHeartbeat := none }

/-- `return {"ok": ok, "status": status, …}`. -/
def finish (ok : Bool) (status : String) : Prog α := do
  note (.returned ok status)
  Proc.raise .returned

/-- `self.wait(…); continue`. -/
def waitAgain (setup : Setup) (p : Pass) : Prog α := do
  note (.wait setup.marketPollIntervalSeconds)
  answer p.wait
  Proc.raise .again

/-! ## Reports -/

variable (env : Env) (setup : Setup) (p : Pass)

/-- `str(value or "")`. -/
def textOf (value : Json) : String :=
  match value.orElse (.str "") with
  | .str text => text
  | value => env.text value

def phaseOf (report : Fields) : String := upper (textOf env (report.at "phase"))

def sessionOf (report : Fields) : String := textOf env ((report.at "sessionId").orElse (report.at "session_id"))

def ownerOf (report : Fields) : String := textOf env ((report.at "ownerId").orElse (report.at "owner_id"))

/-- The report is about the cleanup of this session and owner. -/
def ownsCleanup (report : Fields) : Bool :=
  phaseOf env report = "CLEANUP" && sessionOf env report = setup.sessionId && ownerOf env report = setup.ownerId

/-- The verified owner token is that of the report with this revision. -/
def tokenMatches (verified : Fields) (revision : ℤ) (verifiedRevision : Option ℤ) : Bool :=
  phaseOf env verified = "CLEANUP" && textOf env (verified.at "session_id") = setup.sessionId &&
    textOf env (verified.at "owner_id") = setup.ownerId && verifiedRevision = some revision

/-! ## `_verified_cleanup_phase` -/

def verifyTransition (fresh : Fields) (revision : ℤ) : Json → Prog Unit
  | .null => pure ()
  | .obj transition => do
    let transitionRevision ← answer (env.int (Fields.at transition "revision"))
    Proc.check (phaseOf env transition = phaseOf env fresh ∧ sessionOf env transition = sessionOf env fresh ∧
      ownerOf env transition = ownerOf env fresh ∧ transitionRevision.getD (-1) = revision)
      (.raised (lifecycleError "operator stop transition differs from durable owner epoch"))
  | _ => Proc.raise (.raised ⟨"AttributeError", "get", false⟩)

def verifyToken (revision : ℤ) : Prog Unit :=
  if setup.hasVerifier then do
    let verified ← answer p.verifyHandle
    note (.token verified)
    let verifiedRevision ← answer (env.int ((verified.at "revision").orElse (.int (-1))))
    Proc.check (tokenMatches env setup verified revision verifiedRevision = true)
      (.raised (lifecycleError "operator stop owner-token verification changed epoch"))
  else Proc.check (setup.allowMockLifecycle = true)
    (.raised (lifecycleError "production cleanup owner-token verifier is unavailable"))

def verifiedCleanupPhase (before : Option ℤ) (transition : Json) : Prog Unit := do
  let fresh ← readStatus p.verifyStatus
  let revision ← answer (env.int (fresh.at "revision"))
  Proc.check (ownsCleanup env setup fresh = true ∧ 1 ≤ revision.getD (-1) ∧
      before.all (fun b => b < revision.getD (-1)) = true)
    (.raised (lifecycleError "operator stop CLEANUP owner epoch is not durably verified"))
  verifyTransition env fresh (revision.getD (-1)) transition
  verifyToken env setup p (revision.getD (-1))

/-! ## The barrier -/

/-- `stop_event.is_set()`. -/
def stopRequested (iterations : ℕ) : Bool := setup.stopFrom.any (· ≤ iterations)

/-- The transition, if `begin_cleanup` returns one. -/
def transitionOf : Answer Json → Json
  | .ok transition => transition
  | .error _ => .null

/-- `begin_cleanup`, and the verification of what it did. -/
def beginCleanup (status : Fields) (reason : String) : Prog (Except Raised Unit) := do
  let before ← answer (env.int (status.at "revision"))
  note (.beginCleanup status reason)
  Proc.outcome Exit.raised? (verifiedCleanupPhase env setup p before (transitionOf p.beginCleanup))

/-- More passes than a test allows. -/
def boundIterations (gate : Gate) : Prog Unit :=
  if setup.maxIterations.any (· < gate.iterations) = true then do
    let before ← readStatus p.status
    let beforeRevision ← answer (env.int (before.at "revision"))
    note (.beginCleanup before "test iteration bound reached")
    match p.beginCleanup with
    | .error _ => finish false "TEST_ITERATION_BOUND_CLEANUP_RETRY_REQUIRED"
    | .ok transition => do
      let verified ← Proc.outcome Exit.raised? (verifiedCleanupPhase env setup p beforeRevision transition)
      match verified with
      | .error _ => finish false "TEST_ITERATION_BOUND_CLEANUP_RETRY_REQUIRED"
      | .ok _ => finish false "TEST_ITERATION_BOUND_FORCED_CLEANUP"
  else pure ()

def attemptCleanup (gate : Gate) (phase : String) (status : Fields) : Prog (Except Raised Unit) :=
  if phase = "CLEANUP" then
    Proc.outcome Exit.raised? (verifiedCleanupPhase env setup p none .null)
  else
    beginCleanup env setup p status
      (if stopRequested setup gate.iterations then "managed scheduler operator stop" else gate.cleanupBarrierReason)

/-- Stop is a strict dispatch barrier. -/
def latchCleanup (gate : Gate) (now : ℚ) (phase : String) (status : Fields) : Prog String :=
  if (stopRequested setup gate.iterations = true ∨ gate.cleanupBarrierReason ≠ "") ∧
      gate.operatorCleanupLatched = false then do
    let verified ← attemptCleanup env setup p gate phase status
    match verified with
    | .error e => do
      setLastTick [("ok", .bool false),
        ("status", .str (if stopRequested setup gate.iterations then "STOP_CLEANUP_LATCH_RETRY" else "TICK_CLEANUP_LATCH_RETRY")),
        ("detail", .str e.detail), ("entryRetryAttempted", .bool false), ("brokerSubmissionPerformed", .bool false)]
      stopHeartbeats
      waitAgain setup p
    | .ok _ => do
      setGate fun gate => { gate with operatorCleanupLatched := true, cleanupBarrierReason := "", nextHeartbeat := none }
      pollNow now
      pure "CLEANUP"
  else pure phase

/-- The pass asks whether it is to stop. -/
def askStop (gate : Gate) : Prog Unit :=
  if stopRequested setup gate.iterations = true then note .stopSeen else pure ()

/-! ## Terminal phases and deadlines -/

def retryFinalReset (detail : String) : Prog α := do
  setLastTick [("ok", .bool false), ("status", .str "FINAL_RESET_RETRY_PENDING"), ("detail", .str detail)]
  waitAgain setup p

def resumeFinalReset : Prog Unit :=
  if setup.hasResume then
    match p.resumeFinalReset with
    | .error e => retryFinalReset setup p e.detail
    | .ok _ => do
      let report ← readStatus p.resumedStatus
      if phaseOf env report ≠ "FINALIZED" then
        retryFinalReset setup p "final-reset resume did not reach FINALIZED"
      else finish true "FINALIZED"
  else finish false "FINAL_RESET_RECONCILIATION_REQUIRED"

def leaveIfTerminal (phase : String) : Prog Unit :=
  if phase = "FINALIZED" ∨ phase = "FAILED" then finish (phase = "FINALIZED") phase
  else if phase = "FINAL_RESET" then resumeFinalReset env setup p
  else pure ()

def leaveAfterDeadline (now : ℚ) : Prog Unit :=
  if setup.cleanupDeadlineEpoch ≤ now then do
    answer p.failCleanupDeadline
    finish false "RECONCILIATION_REQUIRED"
  else pure ()

/-- Entry expiry is a normal transition: the next tick demotes to cleanup. -/
def pollAfterExpiry (now : ℚ) : Prog Unit := if setup.expiresEpoch ≤ now then pollNow now else pure ()

/-! ## Heartbeats -/

def heartbeatFailed (now : ℚ) (e : Raised) : Prog String := do
  Proc.modify fun s => { s with ownerFailureDetail := e.detail }
  let report ← readStatus p.heartbeatStatus
  if phaseOf env report ≠ "CLEANUP" then finish false "RECONCILIATION_REQUIRED"
  else do
    setLastTick [("ok", .bool false), ("status", .str "OWNER_HEARTBEAT_LOST_CLEANUP_ONLY"), ("detail", .str e.detail)]
    setGate fun gate => { gate with
      log := .heartbeatLost :: gate.log
      operatorCleanupLatched := true
      nextHeartbeat := none }
    pollNow now
    pure "CLEANUP"

/-- `now >= next_heartbeat`. -/
def heartbeatDue (gate : Gate) (now : ℚ) : Bool := gate.nextHeartbeat.any (· ≤ now)

def heartbeat (gate : Gate) (now : ℚ) (phase : String) : Prog String :=
  if phase = "ACTIVE" ∧ now < setup.expiresEpoch ∧ heartbeatDue gate now = true then do
    note .heartbeat
    match p.heartbeat with
    | .error e => heartbeatFailed env p now e
    | .ok _ => do
      setGate fun gate => { gate with nextHeartbeat := some (now + setup.heartbeatIntervalSeconds) }
      pure phase
  else pure phase

/-! ## Evaluations -/

def failAmbiguous : Prog α :=
  if setup.hasFailer then do
    answer p.failAmbiguousReconciliation
    finish false "RECONCILIATION_REQUIRED"
  else finish false "RECONCILIATION_REQUIRED"

def proveAmbiguous : Prog Unit :=
  if setup.hasProver then
    match p.nextDueAmbiguousClaim with
    | .error _ => failAmbiguous setup p
    | .ok none => pure ()
    | .ok (some claimId) => do
      note (.prove claimId)
      match p.proveAmbiguousNotAccepted with
      | .error _ => failAmbiguous setup p
      | .ok proof => setLastTick [("ok", .bool true), ("status", proof.at "status"), ("ambiguousProof", .obj proof),
          ("retryAttempted", .bool false)]
  else pure ()

def pollLater (now : ℚ) : Prog Unit :=
  Proc.modify fun s => { s with nextMarketPoll := now + setup.marketPollIntervalSeconds }

/-- A fault of the evaluator is a strict barrier, a transient one of the market data is not. -/
def tickFailed (now : ℚ) (e : Raised) : Prog α :=
  if e.transientMarketData then do
    setLastTick [("ok", .bool true), ("status", .str "TRANSIENT_MARKET_DATA_RETRY"), ("detail", .str e.detail)]
    pollLater setup now
    Proc.raise .again
  else do
    note .tickFailed
    setGate fun gate => { gate with
      cleanupBarrierReason := "managed scheduler tick/evaluator failed:" ++ e.name
      nextHeartbeat := none }
    setLastTick [("ok", .bool false), ("status", .str "TICK_FAILED_CLEANUP_RETRY_REQUIRED"), ("detail", .str e.detail),
      ("entryRetryAttempted", .bool false), ("brokerSubmissionPerformed", .bool false)]
    pollLater setup now
    waitAgain setup p

def finalizeSession (phase : String) : Prog String := do
  note .finalize
  match p.finalize with
  | .ok (some _) => do
    note .finalized
    finish true "FINALIZED"
  | .ok none => pure phase
  | .error e => do
    let report ← readStatus p.finalizeStatus
    if phaseOf env report = "FINAL_RESET" then do
      setLastTick [("ok", .bool false), ("status", .str "FINAL_RESET_RETRY_PENDING"), ("detail", .str e.detail)]
      pure phase
    else pure phase

def afterTick (now : ℚ) (report : Fields) : Prog String := do
  setLastTick report
  pollLater setup now
  let status ← readStatus p.tickStatus
  match decide (phaseOf env status = "CLEANUP"), report.at "claim" with
  | true, .null => finalizeSession env p (phaseOf env status)
  | _, _ => pure (phaseOf env status)

def tick (now : ℚ) : Prog String := do
  note .tick
  match p.tick with
  | .error e => tickFailed setup p now e
  | .ok report => afterTick env setup p now report

/-- Ambiguous claims are proved while the session is cleaned up. -/
def proveInCleanup (phase : String) : Prog Unit := if phase = "CLEANUP" then proveAmbiguous setup p else pure ()

def evaluate (now : ℚ) (phase : String) : Prog String := do
  proveInCleanup setup p phase
  tick env setup p now

def poll (now nextMarketPoll : ℚ) (phase : String) : Prog String :=
  if nextMarketPoll ≤ now then evaluate env setup p now phase else pure phase

/-! ## A pass -/

/-- `min(next_heartbeat, next_market_poll)`, the heartbeat only while the session is active. -/
def wakeAt (s : Loop) (phase : String) : ℚ :=
  match s.gate.nextHeartbeat with
  | some nextHeartbeat => if phase = "ACTIVE" then min nextHeartbeat s.nextMarketPoll else s.nextMarketPoll
  | none => s.nextMarketPoll

def sleepUntilDue (phase : String) : Prog Unit := do
  let wake ← Proc.read fun s => wakeAt s phase
  let late ← answer p.lateClock
  note (.wait (max (1 / 1000) (min 20 (wake - late))))
  answer p.wait

/-- The calls of a pass from its status on. -/
def drive (now : ℚ) (status : Fields) : Prog Unit := do
  let gate ← Proc.read Loop.gate
  askStop setup gate
  let gate ← Proc.read Loop.gate
  let phase ← latchCleanup env setup p gate now (phaseOf env status) status
  pollAfterExpiry setup now
  let gate ← Proc.read Loop.gate
  let phase ← heartbeat env setup p gate now phase
  let nextMarketPoll ← Proc.read Loop.nextMarketPoll
  let phase ← poll env setup p now nextMarketPoll phase
  sleepUntilDue p phase

def pass : Prog Unit := do
  setGate fun gate => { gate with iterations := gate.iterations + 1 }
  let gate ← Proc.read Loop.gate
  boundIterations env setup p gate
  let now ← answer p.clock
  note (.clock now)
  let status ← readStatus p.status
  leaveIfTerminal env setup p (phaseOf env status)
  leaveAfterDeadline setup p now
  drive env setup p now status

/-- The loop goes on, or it has ended. -/
def Loop.after : Except Exit Unit × Loop → Loop
  | (.error .returned, s) | (.error (.raised _), s) => { s with ended := true }
  | (_, s) => s

def step (s : Loop) (p : Pass) : Option Loop :=
  if s.ended then none else some (Loop.after (pass env setup p s))

/-- The loop before its first pass: the clock is read twice. -/
def Loop.start (nextHeartbeat nextMarketPoll : ℚ) : Loop where
  gate := ⟨[], some nextHeartbeat, false, "", 0⟩
  nextMarketPoll := nextMarketPoll
  lastTick := none
  ownerFailureDetail := ""
  ended := false

end LiveTrader.FunctionalScheduler
