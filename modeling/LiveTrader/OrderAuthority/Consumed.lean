/-
# `OrderAuthority.Consumed` — every transport is backed by current authority, once

Any number of threads enter boundaries, nest them and leave them in any order.  A lease is of
the thread; the sets of what has been burned are of the process.  `consume` reads the snapshot
first and burns afterwards, and other threads may come between the two.

`log` keeps every transport that was let through, with the boundaries its thread had open.

A lease stands for what its boundary has read (`Made`), and a thread has a lease only while the
boundary that made it is open (`Inv`).  So every transport that is let through is inside of a
boundary of its own thread that sealed these values, with a snapshot that fits the mode of the
boundary and is still that of its entry; and no lease and no intent is used twice
(`backed_of_run`).
-/
import LiveTrader.Lib.JsonText
import LiveTrader.Lib.Runs
import LiveTrader.OrderAuthority.Boundaries
import Mathlib.Data.List.Nodup
import Mathlib.Logic.Function.Basic

namespace LiveTrader.OrderAuthority

open Lib Lib.Py Lib.Runs

/-- An open boundary. -/
inductive Frame where
  /-- It has made the lease, with what it has read. -/
  | owner (lease : Lease) (initial : Snapshot)
  /-- It is nested in the boundary of the lease. -/
  | nested (lease : Lease)

/-- The arguments of a transport. -/
structure Transport where
  endpoint : String
  payloadHash : String
  accountFingerprint : String
  credentialConfigurationHash : String

/-- A transport whose authority has been read and is not burned yet. -/
structure Pending where
  transport : Transport
  lease : Lease
  snapshot : Snapshot
  /-- A short-live owner is in scope. -/
  short : Bool

/-- A transport that was let through. -/
structure Consumption where
  thread : ℕ
  pending : Pending
  /-- The boundaries that the thread had open. -/
  frames : List Frame

structure State where
  lease : ℕ → Option Lease := fun _ => none
  frames : ℕ → List Frame := fun _ => []
  pending : ℕ → Option Pending := fun _ => none
  serial : ℕ := 0
  /-- `_CONSUMED_KILL_CANCEL_LEASES`. -/
  kills : List (String × ℤ × String) := []
  /-- `_CONSUMED_TRANSPORT_LEASES`. -/
  leases : List String := []
  /-- `_CONSUMED_TRANSPORT_INTENTS`. -/
  intents : List (String × ℤ × String) := []
  log : List Consumption := []

/-- What a boundary is entered in. -/
structure Entry where
  /-- `emergency.get("active") is True`. -/
  emergencyActive : Bool := false
  /-- The thread has an authenticated scope of the mode. -/
  authenticated : Bool := true
  answers : Answers
  nonce : String
  /-- The durable burn of a kill returns. -/
  burned : Bool := true

namespace State

def setLease (s : State) (t : ℕ) (lease : Option Lease) : State := { s with lease := Function.update s.lease t lease }

def setFrames (s : State) (t : ℕ) (frames : List Frame) : State := { s with frames := Function.update s.frames t frames }

def setPending (s : State) (t : ℕ) (p : Option Pending) : State := { s with pending := Function.update s.pending t p }

end State

def Mode.isScoped (mode : Mode) : Bool := mode = .scopedOperational || mode = .scopedCleanup

/-- The first boundary of a thread has read the authority. -/
def openBoundary (env : Env) (s : State) (t : ℕ) (b : Sealed) (nonce : String) (initial : Snapshot) : State :=
  let lease := Lease.of env b s.serial nonce initial
  { (s.setLease t (some lease)).setFrames t (.owner lease initial :: s.frames t) with serial := s.serial + 1 }

/-- The key under which a kill is burned. -/
def killKey (env : Env) (b : Sealed) (initial : Snapshot) : String × ℤ × String :=
  (initial.ownerEpochHash, b.expectedRevision, env.intentHash b.intent)

/-- A boundary is entered, or raises. -/
def enter (env : Env) (s : State) (t : ℕ) (b : Sealed) (entry : Entry) : State :=
  match s.lease t with
  | some lease =>
    if sameAuthority env b lease = true then
      match lease.owner.read env (some lease) entry.answers b.intent.endpoint b.intent.payloadHash with
      | .ok _ => s.setFrames t (.nested lease :: s.frames t)
      | .error _ => s
    else s
  | none =>
    if emergencyFits b.mode entry.emergencyActive = false ∨ (b.mode.isScoped = true ∧ entry.authenticated = false) then s
    else
      let b := { b with emergencyActive := entry.emergencyActive }
      match b.read env none entry.answers b.intent.endpoint b.intent.payloadHash with
      | .error _ => s
      | .ok initial =>
        if b.mode = .kill then
          if killKey env b initial ∈ s.kills ∨ entry.burned = false then s
          else { openBoundary env s t b entry.nonce initial with kills := s.kills ++ [killKey env b initial] }
        else openBoundary env s t b entry.nonce initial

/-- What is left of the lease of a thread where a boundary is left. -/
def leaseAfter (current : Option Lease) : Frame → Option Lease
  | .nested _ => current
  | .owner lease _ => if lease.owner.mode.isScoped = true ∨ current = some lease then none else current

/-- `require_inherited_kis_transport_authority`. -/
def requireTransport (env : Env) (lease : Lease) (transport : Transport) (a : Answers) : Result Pending := do
  let snapshot ← lease.owner.read env (some lease) a transport.endpoint transport.payloadHash
  validateInheritedSnapshot env lease snapshot
  require (transport.accountFingerprint = lease.accountFingerprint ∧
    transport.credentialConfigurationHash = lease.credentialConfigurationHash)
    (refused "KIS final transport account/credential differs from inherited lease")
  pure { transport, lease, snapshot, short := a.short.toOption = some true }

/-- The key of an intent. -/
def Lease.key (lease : Lease) : String × ℤ × String := (lease.ownerEpochHash, lease.stateRevision, lease.intentHash)

/-- The second half of `consume_inherited_kis_transport_authority`. -/
def burn (s : State) (t : ℕ) (p : Pending) (a : Answers) : State :=
  let s := s.setPending t none
  if p.lease.owner.mode.isScoped = true ∧ (scopedRead a).toOption = none then s
  else if p.lease.nonce ∈ s.leases ∨ p.lease.key ∈ s.intents then s
  else { s with
    leases := s.leases ++ [p.lease.nonce]
    intents := s.intents ++ [p.lease.key]
    log := s.log ++ [{ thread := t, pending := p, frames := s.frames t }] }

inductive Label where
  /-- A boundary is entered; the first answers are for the checks of its arguments. -/
  | enter (t : ℕ) (call : Call) (first : Answers) (entry : Entry)
  /-- One of the open boundaries of the thread is left. -/
  | leave (t i : ℕ)
  | require (t : ℕ) (transport : Transport) (a : Answers)
  | burn (t : ℕ) (a : Answers)

/-- A step of a thread; what raises leaves all as it was. -/
def step (env : Env) (s : State) : Label → Option State
  | .enter t call first entry =>
    match s.pending t, call.check first with
    | some _, _ => none
    | none, .error _ => some s
    | none, .ok b => some (enter env s t b entry)
  | .leave t i =>
    match s.pending t, (s.frames t)[i]? with
    | none, some frame => some ((s.setLease t (leaseAfter (s.lease t) frame)).setFrames t ((s.frames t).eraseIdx i))
    | _, _ => none
  | .require t transport a =>
    match s.pending t, s.lease t with
    | some _, _ => none
    | none, none => some s
    | none, some lease =>
      match requireTransport env lease transport a with
      | .ok p => some (s.setPending t (some p))
      | .error _ => some s
  | .burn t a =>
    match s.pending t with
    | some p => some (burn s t p a)
    | none => none

/-! ## Every transport is backed by current authority, once -/

variable {env : Env}

/-! ## Hashes -/

theorem intent_of_hash {i j : Intent} (h : env.intentHash i = env.intentHash j) : i = j := by
  have hjson := env.hash_injective h
  obtain ⟨operation, claimId, ⟨date, organization, number⟩, account, credential, endpoint, payload⟩ := i
  obtain ⟨operation', claimId', ⟨date', organization', number'⟩, account', credential', endpoint', payload'⟩ := j
  simpa [Intent.json, OwnedOrderKey.json, and_assoc] using hjson

theorem control_of_hash {c c' : Option Control} (h : env.controlHash c = env.controlHash c') : c = c' := by
  have hjson := env.hash_injective h
  cases c with
  | none =>
    cases c' with
    | none => rfl
    | some d => exact absurd hjson (by simp [Control.json])
  | some c =>
    cases c' with
    | none => exact absurd hjson (by simp [Control.json])
    | some d =>
      obtain ⟨id, kind, revision, state, phase, binding⟩ := c
      obtain ⟨id', kind', revision', state', phase', binding'⟩ := d
      simpa [Control.json] using hjson

/-! ## What is read -/

/-- The conditions of a boundary on what it reads. -/
def ModeHolds (b : Sealed) (short : Bool) (s : Snapshot) : Prop :=
  match b.mode with
  | .ordinary => s.controlReservation = none ∧ (short = true ∨ functionalOpen s = false)
  | .kill => s.killOrdinaryCancelAllowed = true ∧ s.killOrdinaryCancelRevision = b.expectedRevision ∧
      normalizeIntent s.killOrdinaryCancelIntent b.operation = .ok b.intent
  | .functionalEntry => s.functionalPhase = "ACTIVE" ∧ normalizeIntent s.functionalMutationIntent b.operation = .ok b.intent
  | .functionalCleanup => s.functionalPhase ∈ ["CLEANUP", "RECONCILIATION_REQUIRED"] ∧
      normalizeIntent s.functionalMutationIntent b.operation = .ok b.intent
  | .scopedOperational | .scopedCleanup => s.controlReservation = none

/-- A snapshot that a boundary accepts. -/
structure Accepts (b : Sealed) (short : Bool) (s : Snapshot) : Prop where
  held : s.applicationInstanceLeaseHeld = true
  account : s.functionalAccountFingerprint = b.intent.accountFingerprint
  credential : s.credentialConfigurationHash = b.intent.credentialConfigurationHash
  mode : ModeHolds b short s

theorem sameAccount_iff {s : Snapshot} {i : Intent} : sameAccount s i = true ↔
    s.functionalAccountFingerprint = i.accountFingerprint ∧
      s.credentialConfigurationHash = i.credentialConfigurationHash := by
  simp [sameAccount]

theorem durable_of_durableIs {value : Json} {i : Intent} (h : durableIs env value i = true) :
    normalizeIntent value i.operation = .ok i := by
  rw [durableIs] at h
  split at h
  · next durable hdurable =>
    rw [hdurable, intent_of_hash (of_decide_eq_true h)]
  · exact absurd h (by decide)

theorem readOrdinary_eq_ok {b : Sealed} {lease : Option Lease} {a : Answers} {s : Snapshot} (hmode : b.mode = .ordinary)
    (h : readOrdinary env b lease a = .ok s) : Accepts b (a.short.toOption = some true) s ∧
      validateInherited env lease s = .ok () := by
  simp only [readOrdinary, bind_eq_ok, require_eq_ok, pure_eq_ok] at h
  obtain ⟨short, hshort, s, -, _, hinherited, _, hheld, _, hcontrol, _, hfunctional, _, haccount, rfl⟩ := h
  obtain ⟨haccount, hcredential⟩ := sameAccount_iff.mp haccount
  refine ⟨⟨hheld, haccount, hcredential, ?_⟩, hinherited⟩
  rw [ModeHolds, hmode]
  refine ⟨hcontrol, hfunctional.imp_left fun htrue => ?_⟩
  rw [hshort, htrue]
  rfl

theorem readKill_eq_ok {b : Sealed} {lease : Option Lease} {a : Answers} {s : Snapshot} (hmode : b.mode = .kill)
    {short : Bool} (h : readKill env b lease a = .ok s) : Accepts b short s ∧ validateInherited env lease s = .ok () := by
  simp only [readKill, bind_eq_ok, require_eq_ok, pure_eq_ok] at h
  obtain ⟨s, -, _, hinherited, _, hheld, _, -, _, ⟨hallowed, hrevision⟩, _, ⟨hdurable, haccount⟩, rfl⟩ := h
  obtain ⟨haccount, hcredential⟩ := sameAccount_iff.mp haccount
  refine ⟨⟨hheld, haccount, hcredential, ?_⟩, hinherited⟩
  rw [ModeHolds, hmode]
  exact ⟨hallowed, hrevision, durable_of_durableIs hdurable⟩

theorem readFunctional_eq_ok {b : Sealed} {lease : Option Lease} {a : Answers} {s : Snapshot}
    (hmode : b.mode = .functionalEntry ∨ b.mode = .functionalCleanup) {short : Bool}
    (h : readFunctional env b lease a = .ok s) : Accepts b short s ∧ validateInherited env lease s = .ok () := by
  simp only [readFunctional, bind_eq_ok, require_eq_ok, pure_eq_ok] at h
  obtain ⟨s, -, _, hinherited, _, -, _, -, _, hmatches, rfl⟩ := h
  obtain ⟨-, hheld, -, -, hphase, -, -, haccount, hdurable, -⟩ := hmatches
  obtain ⟨haccount, hcredential⟩ := sameAccount_iff.mp haccount
  refine ⟨⟨hheld, haccount, hcredential, ?_⟩, hinherited⟩
  rcases hmode with hmode | hmode
  · rw [hmode] at hphase
    rw [ModeHolds, hmode]
    exact ⟨List.mem_singleton.mp hphase, durable_of_durableIs hdurable⟩
  · rw [hmode] at hphase
    rw [ModeHolds, hmode]
    exact ⟨hphase, durable_of_durableIs hdurable⟩

theorem readScoped_eq_ok {b : Sealed} {lease : Option Lease} {a : Answers} {s : Snapshot}
    (hmode : b.mode = .scopedOperational ∨ b.mode = .scopedCleanup) {short : Bool}
    (h : readScoped env b lease a = .ok s) : Accepts b short s ∧ validateInherited env lease s = .ok () := by
  simp only [readScoped, bind_eq_ok, require_eq_ok, pure_eq_ok] at h
  obtain ⟨s, -, _, hinherited, _, ⟨hheld, hcontrol⟩, _, haccount, _, -, rfl⟩ := h
  obtain ⟨haccount, hcredential⟩ := sameAccount_iff.mp haccount
  refine ⟨⟨hheld, haccount, hcredential, ?_⟩, hinherited⟩
  rcases hmode with hmode | hmode
  · rw [ModeHolds, hmode]
    exact hcontrol
  · rw [ModeHolds, hmode]
    exact hcontrol

/-- **What a boundary reads.** -/
theorem read_eq_ok {b : Sealed} {lease : Option Lease} {a : Answers} {endpoint payloadHash : String} {s : Snapshot}
    (h : b.read env lease a endpoint payloadHash = .ok s) :
    (endpoint = b.intent.endpoint ∧ payloadHash = b.intent.payloadHash) ∧
      Accepts b (a.short.toOption = some true) s ∧ validateInherited env lease s = .ok () := by
  simp only [Sealed.read, validateTransport, bind_eq_ok, require_eq_ok] at h
  obtain ⟨_, htransport, h⟩ := h
  refine ⟨htransport, ?_⟩
  split at h
  · next hmode => exact readOrdinary_eq_ok hmode h
  · next hmode => exact readKill_eq_ok hmode h
  · next hmode => exact readFunctional_eq_ok (.inl hmode) h
  · next hmode => exact readFunctional_eq_ok (.inr hmode) h
  · next hmode => exact readScoped_eq_ok (.inl hmode) h
  · next hmode => exact readScoped_eq_ok (.inr hmode) h

/-! ## What is sealed -/

/-- The endpoint of the intent is one that its operation owns. -/
def Owns (b : Sealed) : Prop := b.intent.endpoint ∈ operationEndpoints b.operation

theorem owns_of_normalizeIntent {value : Json} {operation : String} {i : Intent}
    (h : normalizeIntent value operation = .ok i) : i.endpoint ∈ operationEndpoints i.operation := by
  simp only [normalizeIntent, bind_eq_ok, require_eq_ok, pure_eq_ok] at h
  obtain ⟨_, -, _, -, _, -, _, -, _, -, _, -, _, -, _, -, _, hendpoint, _, -, rfl⟩ := h
  exact hendpoint

/-- An intent that `_normalize_intent` has accepted. -/
def Intent.Normalized (i : Intent) : Prop := ∃ value operation, normalizeIntent value operation = .ok i

/-- **What a boundary seals.** -/
theorem normalized_of_check {a : Answers} {call : Call} {b : Sealed} (h : call.check a = .ok b) : b.intent.Normalized := by
  cases call with
  | ordinary operation intent =>
    simp only [Call.check, bind_eq_ok, pure_eq_ok] at h
    obtain ⟨_, -, i, hi, rfl⟩ := h
    exact ⟨_, _, hi⟩
  | kill intent expectedRevision =>
    simp only [Call.check, bind_eq_ok, pure_eq_ok] at h
    obtain ⟨_, -, i, hi, rfl⟩ := h
    exact ⟨_, _, hi⟩
  | functional operation sessionId cleanupOnly expectedRevision intent =>
    simp only [Call.check, checkFunctional, bind_eq_ok, require_eq_ok, pure_eq_ok] at h
    obtain ⟨_, -, _, -, _, -, _, -, _, -, i, hi, _, -, rfl⟩ := h
    exact ⟨_, _, hi⟩
  | scopedOperational operation intent =>
    simp only [Call.check, bind_eq_ok, require_eq_ok, pure_eq_ok] at h
    obtain ⟨_, -, i, hi, rfl⟩ := h
    exact ⟨_, _, hi⟩
  | scopedCleanup operation intent =>
    simp only [Call.check, bind_eq_ok, require_eq_ok, pure_eq_ok] at h
    obtain ⟨_, -, i, hi, rfl⟩ := h
    exact ⟨_, _, hi⟩

theorem owns_of_check {a : Answers} {call : Call} {b : Sealed} (h : call.check a = .ok b) : Owns b := by
  obtain ⟨value, operation, hvalue⟩ := normalized_of_check h
  exact owns_of_normalizeIntent hvalue

/-- The lease stands for what its boundary has read. -/
structure Made (env : Env) (lease : Lease) (initial : Snapshot) : Prop where
  owns : Owns lease.owner
  account : lease.accountFingerprint = lease.owner.intent.accountFingerprint
  credential : lease.credentialConfigurationHash = lease.owner.intent.credentialConfigurationHash
  stateRevision : lease.stateRevision = initial.stateRevision
  ownerEpochId : lease.ownerEpochId = initial.ownerEpochId
  ownerEpochHash : lease.ownerEpochHash = initial.ownerEpochHash
  accountRead : lease.accountFingerprint = initial.functionalAccountFingerprint
  credentialRead : lease.credentialConfigurationHash = initial.credentialConfigurationHash
  control : lease.controlReservationHash = env.controlHash initial.controlReservation

theorem made_of_read {b : Sealed} {a : Answers} {endpoint payloadHash : String} {initial : Snapshot} (howns : Owns b)
    (h : b.read env none a endpoint payloadHash = .ok initial) (serial : ℕ) (nonce : String) :
    Made env (Lease.of env b serial nonce initial) initial := by
  obtain ⟨-, haccepts, -⟩ := read_eq_ok h
  exact ⟨howns, haccepts.account, haccepts.credential, rfl, rfl, rfl, rfl, rfl, rfl⟩

/-- The authority that is read is still that of the entry. -/
structure Unchanged (s initial : Snapshot) : Prop where
  stateRevision : s.stateRevision = initial.stateRevision
  ownerEpochId : s.ownerEpochId = initial.ownerEpochId
  ownerEpochHash : s.ownerEpochHash = initial.ownerEpochHash
  account : s.functionalAccountFingerprint = initial.functionalAccountFingerprint
  credential : s.credentialConfigurationHash = initial.credentialConfigurationHash
  control : s.controlReservation = initial.controlReservation

theorem Made.unchanged {lease : Lease} {initial s : Snapshot} (h : Made env lease initial)
    (hvalid : validateInheritedSnapshot env lease s = .ok ()) : Unchanged s initial := by
  rw [validateInheritedSnapshot, require_eq_ok] at hvalid
  obtain ⟨hstate, hid, hhash, haccount, hcredential, hcontrol⟩ := hvalid
  exact ⟨hstate.trans h.stateRevision, hid.trans h.ownerEpochId, hhash.trans h.ownerEpochHash,
    haccount.trans h.accountRead, hcredential.trans h.credentialRead, control_of_hash (hcontrol.trans h.control)⟩

/-! ## A transport -/

/-- A transport whose authority has been read. -/
structure Checked (env : Env) (p : Pending) (initial : Snapshot) : Prop where
  made : Made env p.lease initial
  endpoint : p.transport.endpoint = p.lease.owner.intent.endpoint
  payloadHash : p.transport.payloadHash = p.lease.owner.intent.payloadHash
  account : p.transport.accountFingerprint = p.lease.owner.intent.accountFingerprint
  credential : p.transport.credentialConfigurationHash = p.lease.owner.intent.credentialConfigurationHash
  accepts : Accepts p.lease.owner p.short p.snapshot
  unchanged : Unchanged p.snapshot initial

theorem checked_of_requireTransport {lease : Lease} {initial : Snapshot} {transport : Transport} {a : Answers}
    {p : Pending} (hmade : Made env lease initial) (h : requireTransport env lease transport a = .ok p) :
    p.lease = lease ∧ Checked env p initial := by
  simp only [requireTransport, bind_eq_ok, require_eq_ok, pure_eq_ok] at h
  obtain ⟨s, hread, _, hvalid, _, ⟨haccount, hcredential⟩, rfl⟩ := h
  obtain ⟨⟨hendpoint, hpayload⟩, haccepts, -⟩ := read_eq_ok hread
  exact ⟨rfl, hmade, hendpoint, hpayload, haccount.trans hmade.account, hcredential.trans hmade.credential, haccepts,
    hmade.unchanged hvalid⟩

/-- A transport that was let through is inside of the boundary that made its lease. -/
structure Backed (env : Env) (c : Consumption) : Prop where
  inside : ∃ initial, .owner c.pending.lease initial ∈ c.frames ∧ Checked env c.pending initial

/-! ## The invariant -/

/-- The lease of a thread is that of one of its open boundaries, and so is the lease of the
transport it is about to burn. -/
structure ThreadInv (env : Env) (lease : Option Lease) (frames : List Frame) (pending : Option Pending) : Prop where
  lease : ∀ {l}, lease = some l → ∃ initial, .owner l initial ∈ frames ∧ Made env l initial
  pending : ∀ {p}, pending = some p → ∃ initial, .owner p.lease initial ∈ frames ∧ Checked env p initial

structure Inv (env : Env) (s : State) : Prop where
  threads : ∀ t, ThreadInv env (s.lease t) (s.frames t) (s.pending t)
  log : ∀ c ∈ s.log, Backed env c
  leases : s.leases = s.log.map (·.pending.lease.nonce)
  intents : s.intents = s.log.map (·.pending.lease.key)
  leasesOnce : s.leases.Nodup
  intentsOnce : s.intents.Nodup

theorem inv_init : Inv env {} := by
  refine ⟨fun t => ⟨fun h => ?_, fun h => ?_⟩, fun _ h => absurd h List.not_mem_nil, rfl, rfl, List.nodup_nil, List.nodup_nil⟩
  · cases h
  · cases h

theorem Inv.of_thread {s s' : State} (h : Inv env s) {t : ℕ} {lease : Option Lease} {frames : List Frame}
    {pending : Option Pending} (hlease : s'.lease = Function.update s.lease t lease)
    (hframes : s'.frames = Function.update s.frames t frames)
    (hpending : s'.pending = Function.update s.pending t pending) (hlog : s'.log = s.log)
    (hleases : s'.leases = s.leases) (hintents : s'.intents = s.intents) (ht : ThreadInv env lease frames pending) :
    Inv env s' := by
  refine ⟨fun u => ?_, by rw [hlog]; exact h.log, by rw [hleases, hlog]; exact h.leases,
    by rw [hintents, hlog]; exact h.intents, by rw [hleases]; exact h.leasesOnce, by rw [hintents]; exact h.intentsOnce⟩
  rw [hlease, hframes, hpending]
  by_cases hu : u = t
  · subst hu
    simp only [Function.update_self]
    exact ht
  · simp only [Function.update_of_ne hu]
    exact h.threads u

/-! ## Steps -/

/-- The first boundary of a thread has read what its lease stands for. -/
theorem Inv.openBoundary {s : State} (h : Inv env s) {t : ℕ} (hpending : s.pending t = none) {b : Sealed}
    (howns : Owns b) {a : Answers} {endpoint payloadHash : String} {initial : Snapshot}
    (hread : b.read env none a endpoint payloadHash = .ok initial) (nonce : String) :
    Inv env (openBoundary env s t b nonce initial) := by
  refine h.of_thread (t := t) rfl rfl (Function.update_eq_self t s.pending).symm rfl rfl rfl ⟨fun hl => ?_, fun hp => ?_⟩
  · obtain rfl := Option.some.inj hl
    exact ⟨initial, List.mem_cons_self, made_of_read howns hread s.serial nonce⟩
  · cases hpending.symm.trans hp

theorem Inv.enter {s : State} (h : Inv env s) {t : ℕ} (hpending : s.pending t = none) {b : Sealed} (howns : Owns b)
    (entry : Entry) : Inv env (enter env s t b entry) := by
  rw [OrderAuthority.enter]
  cases hlease : s.lease t with
  | some lease =>
    dsimp only
    split
    · split
      · refine h.of_thread (t := t) (Function.update_eq_self t s.lease).symm rfl (Function.update_eq_self t s.pending).symm
          rfl rfl rfl ⟨fun hl => ?_, fun hp => ?_⟩
        · obtain ⟨initial, hmem, hmade⟩ := (h.threads t).lease hl
          exact ⟨initial, List.mem_cons_of_mem _ hmem, hmade⟩
        · cases hpending.symm.trans hp
      · exact h
    · exact h
  | none =>
    dsimp only
    split
    · exact h
    · split
      · exact h
      · next initial hread =>
        have hopened := h.openBoundary (b := { b with emergencyActive := entry.emergencyActive }) hpending howns hread
          entry.nonce
        split
        · split
          · exact h
          · exact ⟨hopened.threads, hopened.log, hopened.leases, hopened.intents, hopened.leasesOnce, hopened.intentsOnce⟩
        · exact hopened

/-- A lease that outlives a boundary is not the one that the boundary made. -/
theorem leaseAfter_eq_some {current : Option Lease} {frame : Frame} {lease : Lease}
    (h : leaseAfter current frame = some lease) : current = some lease ∧ ∀ initial, frame ≠ .owner lease initial := by
  cases frame with
  | nested l => exact ⟨h, fun initial hframe => by cases hframe⟩
  | owner l read =>
    rw [leaseAfter] at h
    split at h
    · cases h
    · next hkept =>
      refine ⟨h, fun initial hframe => hkept (.inr ?_)⟩
      rw [h, (Frame.owner.inj hframe).1]

theorem Inv.leave {s : State} (h : Inv env s) {t i : ℕ} (hpending : s.pending t = none) {frame : Frame}
    (hframe : (s.frames t)[i]? = some frame) :
    Inv env ((s.setLease t (leaseAfter (s.lease t) frame)).setFrames t ((s.frames t).eraseIdx i)) := by
  refine h.of_thread (t := t) rfl rfl (Function.update_eq_self t s.pending).symm rfl rfl rfl ⟨fun hl => ?_, fun hp => ?_⟩
  · obtain ⟨hcurrent, hother⟩ := leaseAfter_eq_some hl
    obtain ⟨initial, hmem, hmade⟩ := (h.threads t).lease hcurrent
    obtain ⟨j, hj⟩ := List.mem_iff_getElem?.mp hmem
    refine ⟨initial, List.mem_eraseIdx_iff_getElem?.mpr ⟨j, fun hji => ?_, hj⟩, hmade⟩
    rw [hji, hframe] at hj
    exact hother initial (Option.some.inj hj)
  · cases hpending.symm.trans hp

theorem Inv.require {s : State} (h : Inv env s) {t : ℕ} {lease : Lease} (hlease : s.lease t = some lease)
    {transport : Transport} {a : Answers} {p : Pending} (hp : requireTransport env lease transport a = .ok p) :
    Inv env (s.setPending t (some p)) := by
  refine h.of_thread (t := t) (Function.update_eq_self t s.lease).symm (Function.update_eq_self t s.frames).symm rfl
    rfl rfl rfl ⟨(h.threads t).lease, fun hp' => ?_⟩
  obtain rfl := Option.some.inj hp'
  obtain ⟨initial, hmem, hmade⟩ := (h.threads t).lease hlease
  obtain ⟨rfl, hchecked⟩ := checked_of_requireTransport hmade hp
  exact ⟨initial, hmem, hchecked⟩

theorem Inv.burn {s : State} (h : Inv env s) {t : ℕ} {p : Pending} (hp : s.pending t = some p) (a : Answers) :
    Inv env (burn s t p a) := by
  have hdropped : Inv env (s.setPending t none) := by
    refine h.of_thread (t := t) (Function.update_eq_self t s.lease).symm (Function.update_eq_self t s.frames).symm rfl
      rfl rfl rfl ⟨(h.threads t).lease, fun hp' => ?_⟩
    cases hp'
  rw [OrderAuthority.burn]
  split
  · exact hdropped
  · split
    · exact hdropped
    · next hfresh =>
      obtain ⟨hlease, hintent⟩ := not_or.mp hfresh
      have hleases : (s.leases ++ [p.lease.nonce]).Nodup := by
        rw [← List.concat_eq_append]
        exact hdropped.leasesOnce.concat hlease
      have hintents : (s.intents ++ [p.lease.key]).Nodup := by
        rw [← List.concat_eq_append]
        exact hdropped.intentsOnce.concat hintent
      refine ⟨hdropped.threads, fun c hc => ?_, ?_, ?_, hleases, hintents⟩
      · rcases List.mem_append.mp hc with hc | hc
        · exact h.log c hc
        · rw [List.mem_singleton.mp hc]
          exact ⟨(h.threads t).pending hp⟩
      · rw [List.map_append, ← hdropped.leases]
        rfl
      · rw [List.map_append, ← hdropped.intents]
        rfl

/-- **A step of a thread.** -/
theorem inv_step {s s' : State} {label : Label} (hstep : step env s label = some s') (h : Inv env s) : Inv env s' := by
  cases label with
  | enter t call first entry =>
    rw [step] at hstep
    split at hstep
    · cases hstep
    · obtain rfl := Option.some.inj hstep
      exact h
    · next hpending hcheck =>
      obtain rfl := Option.some.inj hstep
      exact h.enter hpending (owns_of_check hcheck) entry
  | leave t i =>
    rw [step] at hstep
    split at hstep
    · next hpending hframe =>
      obtain rfl := Option.some.inj hstep
      exact h.leave hpending hframe
    · cases hstep
  | require t transport a =>
    rw [step] at hstep
    split at hstep
    · cases hstep
    · obtain rfl := Option.some.inj hstep
      exact h
    · next lease _ hlease =>
      split at hstep
      · next p hp =>
        obtain rfl := Option.some.inj hstep
        exact h.require hlease hp
      · obtain rfl := Option.some.inj hstep
        exact h
  | burn t a =>
    rw [step] at hstep
    split at hstep
    · next p hp =>
      obtain rfl := Option.some.inj hstep
      exact h.burn hp a
    · cases hstep

/-- **Every transport is backed by current authority, once.** -/
theorem backed_of_run {labels : List Label} {s : State} (h : Run (step env) Free {} labels s) :
    (∀ c ∈ s.log, Backed env c) ∧ (s.log.map (·.pending.lease.nonce)).Nodup ∧
      (s.log.map (·.pending.lease.key)).Nodup := by
  have hinv : Inv env s := h.invariant (fun _ => inv_step) inv_init
  refine ⟨hinv.log, ?_, ?_⟩
  · rw [← hinv.leases]
    exact hinv.leasesOnce
  · rw [← hinv.intents]
    exact hinv.intentsOnce

/-! ## A run that can be evaluated -/

def sampleHash (n : ℕ) : String := String.ofList (List.replicate 64 (Char.ofNat (48 + n)))

/-- An order of the ordinary route. -/
def sampleIntent : Json :=
  .obj [("operation", .str "PLACE_ORDER"), ("claimId", .str "claim-1"),
    ("ownedOrderKey", .obj [("orderDate", .str ""), ("organizationNo", .str ""), ("orderNo", .str "")]),
    ("accountFingerprint", .str (sampleHash 1)), ("credentialConfigurationHash", .str (sampleHash 2)),
    ("endpoint", .str "/uapi/domestic-stock/v1/trading/order-cash"), ("payloadHash", .str (sampleHash 3))]

/-- An authority with no functional phase. -/
def sampleAuthority (stateRevision : ℤ) : Json :=
  .obj [("durableAuthorityReadable", .bool true), ("functionalAuthorityOpen", .bool false),
    ("functionalPhase", .str "IDLE"), ("functionalRevision", .int 0), ("functionalSessionId", .str ""),
    ("functionalAccountFingerprint", .str (sampleHash 1)), ("credentialConfigurationHash", .str (sampleHash 2)),
    ("functionalMutationIntent", .obj []), ("killOrdinaryCancelAllowed", .bool false),
    ("killOrdinaryCancelRevision", .int 0), ("killOrdinaryCancelIntent", .obj []),
    ("applicationInstanceLeaseHeld", .bool true), ("ordinaryRoutesClosed", .bool false),
    ("ownerEpochId", .str "epoch-1"), ("ownerEpochHash", .str (sampleHash 4)), ("stateRevision", .int stateRevision),
    ("controlReservation", .obj [])]

def Env.sample : Env where
  hash := Json.digestAmong [.obj [], sampleIntent]
  hash_injective := Json.digestAmong_injective _

def sampleAnswers (stateRevision : ℤ) : Answers := { snapshot := .ok (sampleAuthority stateRevision) }

def sampleTransport : Transport where
  endpoint := "/uapi/domestic-stock/v1/trading/order-cash"
  payloadHash := sampleHash 3
  accountFingerprint := sampleHash 1
  credentialConfigurationHash := sampleHash 2

def sampleEntry (nonce : String) : Entry := { answers := sampleAnswers 1, nonce }

/-- A boundary with another one in it: the authority moves on and comes back before the transport,
and a second transport is not let through. -/
theorem backed_of_run_sample : ∃ s, Run (step Env.sample) Free {}
      [.enter 0 (.ordinary (.str "PLACE_ORDER") sampleIntent) (sampleAnswers 1) (sampleEntry "a"),
        .enter 0 (.ordinary (.str "PLACE_ORDER") sampleIntent) (sampleAnswers 1) (sampleEntry "b"),
        .require 0 sampleTransport (sampleAnswers 2), .require 0 sampleTransport (sampleAnswers 1),
        .burn 0 (sampleAnswers 1), .require 0 sampleTransport (sampleAnswers 1), .burn 0 (sampleAnswers 1),
        .leave 0 0] s ∧
    s.log.length = 1 ∧ ∀ c ∈ s.log, Backed Env.sample c := by
  obtain ⟨s, hs, hlength⟩ : ∃ s, runAll (step Env.sample) {}
      [.enter 0 (.ordinary (.str "PLACE_ORDER") sampleIntent) (sampleAnswers 1) (sampleEntry "a"),
        .enter 0 (.ordinary (.str "PLACE_ORDER") sampleIntent) (sampleAnswers 1) (sampleEntry "b"),
        .require 0 sampleTransport (sampleAnswers 2), .require 0 sampleTransport (sampleAnswers 1),
        .burn 0 (sampleAnswers 1), .require 0 sampleTransport (sampleAnswers 1), .burn 0 (sampleAnswers 1),
        .leave 0 0] = some s ∧ s.log.length = 1 := by
    decide
  exact ⟨s, free_of_runAll hs, hlength, (backed_of_run (free_of_runAll hs)).1⟩

end LiveTrader.OrderAuthority
