/-
# `Dispatch.System` — controllers of several processes on one journal

The state of everything that works on one journal file: the table, the control
authority of each running process, the controllers (each an `IntentJournal`
owner with its threads), the lock `_DISPATCH_ATTEMPT_LOCK` of each process, and
the random tokens drawn so far.  `log` is what an observer has seen: which rows
were created, claimed, handed to `submit`, given an outcome, and which
reconciliations went through.

A thread of a controller is at one of the points where another thread or process
may run: inside `with dispatcher`, between the authority read and the insert of
`enqueue`, in the loop over a finished batch, or inside `_dispatch_serialized`.
One `Action` is one step from such a point to the next.  What the program does
not decide comes with the action: the random token drawn, the intent, whether a
write to the journal goes through, and how `submit` and the callback end.

A callback or a `submit` that itself enters the dispatcher again is not modelled.
-/
import LiveTrader.Dispatch.Journal
import LiveTrader.Lib.Runs

namespace LiveTrader.Dispatch

open Lib.Py

/-! ## Threads -/

/-- The outcomes a result can have. -/
inductive Verdict where
  | completed
  | blocked
  | unknown

def Verdict.outcome : Verdict → Outcome
  | .completed => .completed
  | .blocked => .blocked
  | .unknown => .unknown

/-- Where `_dispatch_serialized` stands after a successful claim. -/
inductive Stage where
  /-- The row is claimed, the permission not yet checked. -/
  | claimed
  /-- `submit` runs, or has been replaced by a refusal; then the callback. -/
  | running (refusal : Option Fields)
  /-- A result is there and its outcome is about to be recorded. -/
  | answered (verdict : Verdict) (result : Fields)
  /-- In the `except` branch. -/
  | failing

structure Attempt where
  row : Row
  /-- Whether the intent was handed to `submit`. -/
  handed : Bool
  stage : Stage

inductive Thread where
  | idle
  /-- Inside `depth + 1` nested entries. -/
  | cycle (depth : ℕ) (batch : List String)
  | enqueuing (depth : ℕ) (batch : List String) (draft : Draft)
  | aborting (rest : List String)
  | dispatching (rest : List String)
  | attempting (attempt : Attempt) (rest : List String)

/-! ## States -/

inductive Event where
  | created (id : String)
  | claimed (id : String)
  | submitted (id : String)
  | recorded (id : String) (outcome : Outcome)
  | reconciled (owner : String) (orders : List Fields)

structure System where
  journal : Journal
  /-- The authority of each running process. -/
  control : ℕ → Option Control
  /-- The process a living controller runs in. -/
  home : String → Option ℕ
  thread : String → ℕ → Thread
  /-- The holder of `_DISPATCH_ATTEMPT_LOCK`. -/
  lock : ℕ → Option (String × ℕ)
  drawn : List String
  log : List Event

namespace System

def init : System :=
  ⟨.empty, fun _ => none, fun _ => none, fun _ _ => .idle, fun _ => none, [], []⟩

/-- The process of a living controller and its authority. -/
def live (s : System) (o : String) : Option (ℕ × Control) :=
  match s.home o with
  | none => none
  | some p => (s.control p).map (p, ·)

def setThread (s : System) (o : String) (n : ℕ) (t : Thread) : System :=
  { s with thread := fun o' n' => if o' = o ∧ n' = n then t else s.thread o' n' }

def setControl (s : System) (p : ℕ) (c : Option Control) : System :=
  { s with control := fun p' => if p' = p then c else s.control p' }

def setLock (s : System) (p : ℕ) (holder : Option (String × ℕ)) : System :=
  { s with lock := fun p' => if p' = p then holder else s.lock p' }

def note (s : System) (e : Event) : System := { s with log := s.log ++ [e] }

def write (s : System) (j : Journal) : System := { s with journal := j }

def draw (s : System) (tokens : List String) : System := { s with drawn := tokens ++ s.drawn }

end System

/-! ## Processes and controls -/

/-- The module is loaded: `_AUTHORITY` gets its first epoch. -/
def boot (s : System) (p : ℕ) (epoch : String) : Option System :=
  if s.control p = none ∧ epoch ∉ s.drawn then
    some ((s.setControl p (some ⟨⟨epoch, false⟩, []⟩)).draw [epoch])
  else none

/-- A process ends at any point: its controllers and threads are gone, the file stays. -/
def crash (s : System) (p : ℕ) : System :=
  { (s.setControl p none).setLock p none with
    home := fun o => if s.home o = some p then none else s.home o
    thread := fun o n => if s.home o = some p then .idle else s.thread o n }

/-- `IntentJournal.__init__` draws the owner. -/
def openJournal (s : System) (p : ℕ) (o : String) : Option System :=
  if s.control p ≠ none ∧ o ∉ s.drawn then
    some { s.draw [o] with home := fun o' => if o' = o then some p else s.home o' }
  else none

def beginControlAt (s : System) (p : ℕ) (token epoch : String) : Option System := do
  let c ← s.control p
  if token ∉ s.drawn ∧ epoch ∉ s.drawn ∧ token ≠ epoch then
    some ((s.setControl p (some (beginControl c token epoch))).draw [token, epoch])
  else none

def endControlAt (s : System) (p : ℕ) (token epoch : String) : Option System := do
  let c ← s.control p
  if epoch ∉ s.drawn then
    some ((s.setControl p (some (endControl c token epoch))).draw [epoch])
  else none

/-! ## The cycle boundary -/

/-- `__enter__`. -/
def enter (s : System) (o : String) (n : ℕ) : Option System := do
  let _ ← s.live o
  match s.thread o n with
  | .idle => some (s.setThread o n (.cycle 0 []))
  | .cycle depth batch => some (s.setThread o n (.cycle (depth + 1) batch))
  | _ => none

/-- `__exit__`: the outermost one takes the batch, to abort it after an exception or
when the lock is still owned, else to dispatch it. -/
def exit (s : System) (o : String) (n : ℕ) (failed : Bool) : Option System := do
  let _ ← s.live o
  match s.thread o n with
  | .cycle (depth + 1) batch => some (s.setThread o n (.cycle depth batch))
  | .cycle 0 batch =>
    some (s.setThread o n (if batch = [] then .idle
      else if failed then .aborting batch else .dispatching batch))
  | _ => none

/-- `defer` up to the authority read of `enqueue`. -/
def beginEnqueue (codec : Codec) (s : System) (o : String) (n : ℕ) (intent : OrderIntent) :
    Option System := do
  let (_, c) ← s.live o
  match s.thread o n with
  | .cycle depth batch =>
    match draft codec c.authority o intent with
    | .ok d => some (s.setThread o n (.enqueuing depth batch d))
    | .error _ => some s
  | _ => none

/-- The transaction of `enqueue` and the rest of `defer`. -/
def endEnqueue (s : System) (o : String) (n : ℕ) (written : Bool) : Option System := do
  let _ ← s.live o
  match s.thread o n with
  | .enqueuing depth batch d =>
    if written then
      let (j, created) := insertDraft s.journal d
      let queued := (j.row? d.commandId).any (·.state = .queued)
      let batch' := if created ∧ queued then batch ++ [d.commandId] else batch
      let s' := (s.write j).setThread o n (.cycle depth batch')
      some (if created then s'.note (.created d.commandId) else s')
    else some (s.setThread o n (.cycle depth batch))
  | _ => none

/-- One `finish(…, "ABORTED")` of the loop over an aborted batch. -/
def abort (codec : Codec) (s : System) (o : String) (n : ℕ) (written : Bool) : Option System := do
  let _ ← s.live o
  match s.thread o n with
  | .aborting (id :: rest) =>
    let s' := s.setThread o n (.aborting rest)
    match written, finish codec o s.journal id .aborted [] with
    | true, .ok j => some ((s'.write j).note (.recorded id .aborted))
    | _, _ => some s'
  | _ => none

/-- The end of a batch, reached or forced by an exception. -/
def leave (s : System) (o : String) (n : ℕ) : Option System := do
  let _ ← s.live o
  match s.thread o n with
  | .aborting _ | .dispatching _ => some (s.setThread o n .idle)
  | _ => none

/-! ## One dispatch attempt -/

/-- `dispatch` takes the lock and claims the next command of the batch. -/
def claimNext (codec : Codec) (s : System) (o : String) (n : ℕ) (written : Bool) :
    Option System := do
  let (p, c) ← s.live o
  match s.thread o n with
  | .dispatching (id :: rest) =>
    if s.lock p ≠ none then none
    else match written, claim codec c.authority o s.journal id with
      | true, .ok (j, some row) =>
        some ((((s.write j).setThread o n (.attempting ⟨row, false, .claimed⟩ rest)).setLock p
          (some (o, n))).note (.claimed id))
      | true, .ok (j, none) => some ((s.write j).setThread o n (.dispatching rest))
      | _, _ => some (s.setThread o n (.dispatching rest))
  | _ => none

/-- The permission check of an attempt and, if it is given, the call of `submit`. -/
def check (s : System) (o : String) (n : ℕ) : Option System := do
  let (_, c) ← s.live o
  match s.thread o n with
  | .attempting ⟨row, handed, .claimed⟩ rest =>
    match row.sealedIntent >>= continuousDispatchAllowed c.authority
        (some (row.sealDict, row.payload)) with
    | .ok (true, _) =>
      some ((s.setThread o n (.attempting ⟨row, true, .running none⟩ rest)).note
        (.submitted row.commandId))
    | .ok (false, reason) =>
      let refusal := [("ok", Json.bool false), ("reason", .str reason)]
      some (s.setThread o n (.attempting ⟨row, handed, .running (some refusal)⟩ rest))
    | .error _ => some (s.setThread o n (.attempting ⟨row, handed, .failing⟩ rest))
  | _ => none

/-- How `submit` and the callback end. -/
inductive Reply where
  /-- `submit` returned this value and the callback returned. -/
  | result (value : Json)
  /-- One of them raised an `Exception`. -/
  | raised
  /-- One of them raised what `except Exception` does not catch. -/
  | escaped

/-- The outcome `_dispatch_serialized` reads off a result. -/
def verdictOf (codec : Codec) (value : Json) : Result (Verdict × Fields) := do
  let result ← value.fields
  let order ← ((result.at "order").orElse (.obj [])).fields
  let state := codec.text (order.at "state")
  let verdict : Verdict :=
    if state ∈ ["unknown", "dispatch_pending"] then .unknown
    else if (result.at "ok").isTrue then .completed else .blocked
  pure (verdict, result)

/-- `submit` and the callback end. -/
def reply (codec : Codec) (s : System) (o : String) (n : ℕ) (r : Reply) : Option System := do
  let (p, _) ← s.live o
  match s.thread o n with
  | .attempting ⟨row, handed, .running refusal⟩ rest =>
    let next (stage : Stage) := s.setThread o n (.attempting ⟨row, handed, stage⟩ rest)
    match r with
    | .result value =>
      match verdictOf codec ((refusal.map Json.obj).getD value) with
      | .ok (verdict, result) => some (next (.answered verdict result))
      | .error _ => some (next .failing)
    | .raised => some (next .failing)
    | .escaped => some ((s.setThread o n .idle).setLock p none)
  | _ => none

/-- `finish` with the outcome of the result. -/
def record (codec : Codec) (s : System) (o : String) (n : ℕ) (written : Bool) : Option System := do
  let (p, _) ← s.live o
  match s.thread o n with
  | .attempting ⟨row, handed, .answered verdict result⟩ rest =>
    match written, finish codec o s.journal row.commandId verdict.outcome result with
    | true, .ok j =>
      some ((((s.write j).setThread o n (.dispatching rest)).setLock p none).note
        (.recorded row.commandId verdict.outcome))
    | _, _ => some (s.setThread o n (.attempting ⟨row, handed, .failing⟩ rest))
  | _ => none

/-- `finish(…, "UNKNOWN")` of the `except` branch, whose own failure is swallowed. -/
def fallback (codec : Codec) (s : System) (o : String) (n : ℕ) (written : Bool) :
    Option System := do
  let (p, _) ← s.live o
  match s.thread o n with
  | .attempting ⟨row, _, .failing⟩ rest =>
    let s' := (s.setThread o n (.dispatching rest)).setLock p none
    match written, finish codec o s.journal row.commandId .unknown [] with
    | true, .ok j => some ((s'.write j).note (.recorded row.commandId .unknown))
    | _, _ => some s'
  | _ => none

/-- `reconcile`, by any living controller. -/
def reconcileAt (codec : Codec) (s : System) (o : String) (orders : List Fields) :
    Option System := do
  let _ ← s.live o
  match reconcile codec o s.journal orders with
  | .ok (j, _) => some ((s.write j).note (.reconciled o orders))
  | .error _ => some s

/-! ## The step function -/

inductive Action where
  | boot (p : ℕ) (epoch : String)
  | crash (p : ℕ)
  | openJournal (p : ℕ) (o : String)
  | beginControl (p : ℕ) (token epoch : String)
  | endControl (p : ℕ) (token epoch : String)
  | enter (o : String) (n : ℕ)
  | exit (o : String) (n : ℕ) (failed : Bool)
  | beginEnqueue (o : String) (n : ℕ) (intent : OrderIntent)
  | endEnqueue (o : String) (n : ℕ) (written : Bool)
  | abort (o : String) (n : ℕ) (written : Bool)
  | leave (o : String) (n : ℕ)
  | claim (o : String) (n : ℕ) (written : Bool)
  | check (o : String) (n : ℕ)
  | reply (o : String) (n : ℕ) (r : Reply)
  | record (o : String) (n : ℕ) (written : Bool)
  | fallback (o : String) (n : ℕ) (written : Bool)
  | reconcile (o : String) (orders : List Fields)

def step (codec : Codec) (s : System) : Action → Option System
  | .boot p epoch => boot s p epoch
  | .crash p => some (crash s p)
  | .openJournal p o => openJournal s p o
  | .beginControl p token epoch => beginControlAt s p token epoch
  | .endControl p token epoch => endControlAt s p token epoch
  | .enter o n => enter s o n
  | .exit o n failed => exit s o n failed
  | .beginEnqueue o n intent => beginEnqueue codec s o n intent
  | .endEnqueue o n written => endEnqueue s o n written
  | .abort o n written => abort codec s o n written
  | .leave o n => leave s o n
  | .claim o n written => claimNext codec s o n written
  | .check o n => check s o n
  | .reply o n r => reply codec s o n r
  | .record o n written => record codec s o n written
  | .fallback o n written => fallback codec s o n written
  | .reconcile o orders => reconcileAt codec s o orders

end LiveTrader.Dispatch
