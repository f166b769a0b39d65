/-
# `SpotControl.Control` — the control row of the Binance functional lane

`DurableBinanceSpotFunctionalControl` keeps one row with the phase of the lane, its permit and session, the owner with the
hash of its token, and the owner's lease.  Each definition here is one transaction on the database, which the core ledger
shares: it raises and changes nothing, or says what the row and the sessions are afterwards and whether a new owner was put
in.  `update` is the transaction that looks at the phase of the row only; the callers of `_update` check the owner on a row
that they have read before.

`audit_incomplete_startup` looks at an ARMED row whose lease has ended, `audit_all_incomplete_startup` at everything else: it
compares the row with the sessions of the core ledger that are not over, revokes what it cannot explain, and hands a session
that can be cleaned up to a recovery owner.
-/
import LiveTrader.Lib.Json
import Mathlib.Algebra.Order.Ring.Rat

namespace LiveTrader.SpotControl

open Lib Lib.Py

/-! ## Rows -/

inductive Phase where
  | armed
  | active
  | cleanup
  | finalReset
  | finalized
  | failed
  deriving DecidableEq, Repr

/-- The phases in which somebody owns the row. -/
def Phase.live : Phase → Bool
  | .finalized | .failed => false
  | _ => true

/-- The row of `binance_spot_functional_control`. -/
structure Row where
  phase : Phase
  permitId : String
  permitHash : String
  sessionId : String
  capabilityHash : String
  ownerId : String
  ownerTokenHash : String
  ownerLeaseExpires : ℚ
  entryExpires : ℚ
  cleanupDeadline : ℚ
  revision : ℕ
  detail : String
  updated : ℚ
  deriving DecidableEq

/-- A row of `binance_spot_functional_sessions`, as far as the control reads it. -/
structure CoreSession where
  sessionId : String
  permitId : String
  permitHash : String
  state : String
  capabilityHash : String
  cleanupStarted : Bool
  finalNewEntriesBlocked : Bool
  expires : ℚ
  cleanupDeadline : ℚ
  finalEvidenceHash : String
  finalEvidenceJson : String
  detail : String
  deriving DecidableEq

/-- The database: the row, the sessions, and the number of actions of each session. -/
structure Database where
  row : Option Row
  sessions : List CoreSession
  actions : String → ℕ

/-- What is used of the standard library. -/
structure Env where
  /-- `_secret_hash`. -/
  secretHash : String → String
  /-- `json.loads`. -/
  loads : String → Result Json

/-- What a transaction leaves, and whether it put in a new owner. -/
structure Outcome where
  db : Database
  installed : Bool

/-- Nothing has changed. -/
def Database.kept (db : Database) : Outcome := ⟨db, false⟩

/-- The row has changed, the owner has not. -/
def Database.withRow (db : Database) (row : Row) : Outcome := ⟨{ db with row := some row }, false⟩

/-- The exception of the control. -/
def refused (msg : String) : Error := .runtime msg

/-- `_text(detail)[:length]`. -/
def clipped (length : ℕ) (detail : String) : String := String.ofList ((strip detail).toList.take length)

/-- What every change adds. -/
def Row.bump (row : Row) (now : ℚ) : Row := { row with revision := row.revision + 1, updated := now }

/-- The row with its authority revoked. -/
def Row.revoke (row : Row) (now : ℚ) (detail : String) : Row :=
  { row with phase := .failed, capabilityHash := "", ownerTokenHash := "", ownerLeaseExpires := 0, detail }.bump now

variable (env : Env)

/-! ## Owners -/

/-- The owner id and the token are those of the row. -/
def ownedBy (row : Row) (ownerId ownerToken : String) : Bool :=
  strip row.ownerId = strip ownerId && strip row.ownerTokenHash = env.secretHash ownerToken

/-- `_require_owner`, at the time of its check. -/
def requireOwner (row : Row) (ownerId ownerToken : String) (allowExpired : Bool) (now : ℚ) : Result Unit := do
  require (ownedBy env row ownerId ownerToken = true) (refused "functional lifecycle owner changed")
  require (allowExpired = true ∨ now < row.ownerLeaseExpires) (refused "functional lifecycle owner lease expired")

/-- `_update`. -/
def update (expected : List Phase) (change : Row → Row) (now : ℚ) (db : Database) : Result Outcome := do
  let row ← orRaise (refused "functional lifecycle phase changed") db.row
  require (row.phase ∈ expected) (refused "functional lifecycle phase changed")
  pure (db.withRow ((change row).bump now))

/-- `_owned_transition`; the row is read again before the commit, which finds what was written. -/
def ownedTransition (expected : List Phase) (sessionId ownerId ownerToken : String) (allowExpired : Bool) (change : Row → Row) (now : ℚ)
    (db : Database) : Result Outcome := do
  let changed : Error := refused "functional lifecycle owner/session epoch changed"
  let row ← orRaise changed db.row
  require (row.phase ∈ expected ∧ strip row.sessionId = strip sessionId ∧ ownedBy env row ownerId ownerToken = true ∧
    (allowExpired = true ∨ now < row.ownerLeaseExpires)) changed
  require (row.sessionId = strip sessionId ∧ row.ownerId = strip ownerId ∧ row.ownerTokenHash = env.secretHash ownerToken)
    (refused "functional lifecycle owner transition CAS changed")
  pure (db.withRow ((change row).bump now))

/-! ## Arming and renewing -/

/-- What a permit says. -/
structure Permit where
  permitId : String
  permitHash : String
  expires : ℚ
  cleanupDeadline : ℚ

/-- `MAX_OWNER_LEASE_SECONDS`. -/
def maxOwnerLease : ℚ := 60

/-- The form of a prepared session id. -/
def isPlannedSession (session : String) : Bool :=
  "bnsft-".toList.isPrefixOf session.toList && 24 ≤ session.toList.length && session.toList.length ≤ 96 &&
    session.toList.all fun c => ('a' ≤ c && c ≤ 'z') || ('A' ≤ c && c ≤ 'Z') || ('0' ≤ c && c ≤ '9') || c ∈ ['-', '.', '_', ':']

/-- The row that `arm` writes. -/
def armedRow (permit : Permit) (ownerId ownerToken session : String) (lease now : ℚ) (revision : ℕ) : Row where
  phase := .armed
  permitId := permit.permitId
  permitHash := permit.permitHash
  sessionId := session
  capabilityHash := ""
  ownerId := strip ownerId
  ownerTokenHash := env.secretHash ownerToken
  ownerLeaseExpires := min (now + lease) permit.expires
  entryExpires := permit.expires
  cleanupDeadline := permit.cleanupDeadline
  revision := revision
  detail := "armed with ordinary/smoke routes closed"
  updated := now

/-- `arm`. -/
def arm (permit : Permit) (ownerId ownerToken planned : String) (lease now : ℚ) (db : Database) : Result Outcome := do
  require (strip ownerId ≠ "" ∧ 24 ≤ (strip ownerToken).toList.length) (refused "owner id/token is invalid")
  require (strip planned = "" ∨ isPlannedSession (strip planned) = true) (refused "prepared lifecycle session id is invalid")
  require (0 < lease ∧ lease ≤ maxOwnerLease) (refused "owner lease must be within 60 seconds")
  require (∀ row ∈ db.row, row.phase.live = false) (refused "functional lifecycle is already armed")
  let revision := (db.row.map Row.revision).getD 0 + 1
  pure ⟨{ db with row := some (armedRow env permit ownerId ownerToken (strip planned) lease now revision) }, true⟩

/-- `heartbeat_prepared`. -/
def heartbeatPrepared (sessionId permitId permitHash ownerId ownerToken : String) (lease now : ℚ) (db : Database) : Result Outcome := do
  require (0 < lease ∧ lease ≤ maxOwnerLease) (refused "prepared owner lease must be within 60 seconds")
  let changed : Error := refused "prepared lifecycle binding changed"
  let row ← orRaise changed db.row
  require (row.phase = .armed ∧ strip row.sessionId = strip sessionId ∧ strip row.permitId = strip permitId ∧
    strip row.permitHash = lower (strip permitHash) ∧ strip row.capabilityHash = "" ∧ ownedBy env row ownerId ownerToken = true ∧
    now < row.entryExpires) changed
  require (row.sessionId = strip sessionId ∧ row.permitId = strip permitId ∧ row.permitHash = lower (strip permitHash) ∧
    row.capabilityHash = "" ∧ row.ownerId = strip ownerId ∧ row.ownerTokenHash = env.secretHash ownerToken)
    (refused "prepared lifecycle heartbeat CAS changed")
  pure (db.withRow ({ row with
    ownerLeaseExpires := min (now + lease) row.entryExpires, detail := "prepared inert owner heartbeat; capability absent" }.bump now))

/-! ## Changes after a read

The row is the one that was read before the transaction. -/

/-- `activate`. -/
def activate (seen : Option Row) (checked : ℚ) (sessionId capabilityHash ownerId ownerToken : String) (now : ℚ) (db : Database) :
    Result Outcome := do
  let row ← orRaise (refused "functional lifecycle is not armed") seen
  requireOwner env row ownerId ownerToken false checked
  update [.armed] (fun row => { row with
    phase := .active, sessionId := strip sessionId, capabilityHash := lower (strip capabilityHash),
    detail := "exact functional capability active" }) now db

/-- `fail_armed`. -/
def failArmed (seen : Option Row) (ownerId ownerToken detail : String) (now : ℚ) (db : Database) : Result Outcome := do
  let row ← orRaise (refused "functional lifecycle is missing") seen
  requireOwner env row ownerId ownerToken true now
  update [.armed] (fun row => { row with phase := .failed, detail := clipped 500 detail }) now db

/-- `mark_start_abort_pending`. -/
def markStartAbortPending (seen : Option Row) (checked : ℚ) (sessionId ownerId ownerToken detail : String) (now : ℚ) (db : Database) :
    Result Outcome := do
  let row ← orRaise (refused "functional lifecycle is missing") seen
  requireOwner env row ownerId ownerToken false checked
  update [.armed] (fun row => { row with sessionId := strip sessionId, detail := clipped 500 detail }) now db

/-- `heartbeat`; the clock is read at `renewed` for the new lease. -/
def heartbeat (seen : Option Row) (checked : ℚ) (ownerId ownerToken : String) (lease renewed now : ℚ) (db : Database) : Result Outcome := do
  let row ← orRaise (refused "functional lifecycle is missing") seen
  requireOwner env row ownerId ownerToken false checked
  require (row.phase = .active) (refused "only ACTIVE lifecycle can heartbeat")
  require (0 < lease ∧ lease ≤ maxOwnerLease) (refused "owner lease must be within 60 seconds")
  require (renewed < row.entryExpires) (refused "entry permit expired")
  update [.active] (fun current => { current with
    ownerLeaseExpires := min (renewed + lease) row.entryExpires, detail := "owner heartbeat renewed" }) now db

/-- `seal_final`. -/
def sealFinal (seen : Option Row) (now : ℚ) (db : Database) : Result Outcome :=
  if ∃ row ∈ seen, row.phase = .finalized then .ok db.kept
  else
    update [.finalReset] (fun row => { row with
      phase := .finalized, capabilityHash := "", ownerTokenHash := "", ownerLeaseExpires := 0,
      detail := "baseline-flat final evidence sealed; capabilities reset" }) now db

/-- `resume_final_reset`, with the row, the sessions and the row again as they were read. -/
def resumeFinalReset (seen : Option Row) (sessions : List CoreSession) (again : Option Row) (sessionId : String) (now : ℚ)
    (db : Database) : Result Outcome := do
  let row ← orRaise (refused "final-reset session changed") seen
  require (strip row.sessionId = strip sessionId) (refused "final-reset session changed")
  if row.phase = .finalized then pure db.kept
  else do
    require (row.phase = .finalReset) (refused "functional lifecycle is not in FINAL_RESET")
    require ((sessions.find? (·.sessionId = strip sessionId)).any (fun session =>
        upper (strip session.state) ∈ ["FINAL_PREPARED", "FINALIZED"]) = true)
      (refused "core final seal is absent; wait for owner expiry then rotate cleanup authority")
    sealFinal again now db

/-- The change that `authority_snapshot` makes. -/
def authoritySnapshot (seen : Option Row) (checked now : ℚ) (db : Database) : Result Outcome :=
  if ∃ row ∈ seen, row.phase = .active ∧ min row.ownerLeaseExpires row.entryExpires ≤ checked then
    update [.active] (fun row => { row with
      phase := .cleanup, detail := "owner lease or entry permit expired; cleanup only" }) now db
  else .ok db.kept

/-! ## Cleaning up -/

/-- `begin_cleanup`. -/
def beginCleanup (sessionId ownerId ownerToken detail : String) (now : ℚ) (db : Database) : Result Outcome :=
  ownedTransition env [.active, .cleanup] sessionId ownerId ownerToken true
    (fun row => { row with phase := .cleanup, detail := clipped 500 detail }) now db

/-- `prepare_final_reset`. -/
def prepareFinalReset (sessionId ownerId ownerToken : String) (now : ℚ) (db : Database) : Result Outcome :=
  ownedTransition env [.active, .cleanup] sessionId ownerId ownerToken true
    (fun row => { row with phase := .finalReset, detail := "authority pointers reset before final seal" }) now db

/-- `restore_cleanup_after_failed_final`. -/
def restoreCleanupAfterFailedFinal (detail : String) (now : ℚ) (db : Database) : Result Outcome :=
  update [.finalReset] (fun row => { row with phase := .cleanup, detail := clipped 500 detail }) now db

/-- A session that is handed over to manual reconciliation. -/
def CoreSession.reconcile (session : CoreSession) (detail : String) : CoreSession :=
  { session with state := "RECONCILIATION_REQUIRED", capabilityHash := "", cleanupStarted := true, finalNewEntriesBlocked := true, detail }

/-- `UPDATE … WHERE …` on the sessions. -/
def Database.reconciled (db : Database) (p : CoreSession → Bool) (detail : String) : List CoreSession :=
  db.sessions.map fun session => if p session then session.reconcile detail else session

/-- The session and the row are revoked together. -/
def revokeBoth (db : Database) (row : Row) (p : CoreSession → Bool) (sessionDetail detail : String) (now : ℚ) : Outcome :=
  ⟨{ db with sessions := db.reconciled p sessionDetail, row := some (row.revoke now detail) }, false⟩

/-- `expire_cleanup_to_reconciliation`. -/
def expireCleanupToReconciliation (sessionId capabilityHash detail : String) (now : ℚ) (db : Database) : Result Outcome := do
  let changed : Error := refused "cleanup deadline revocation authority changed"
  let row ← orRaise changed db.row
  require (row.phase ∈ [.active, .cleanup, .finalReset] ∧ strip row.sessionId = strip sessionId ∧
    strip row.capabilityHash = strip capabilityHash ∧ row.cleanupDeadline ≤ now) changed
  pure (revokeBoth db row (fun session => session.sessionId = strip sessionId && session.state ∈ ["RUNNING", "CLEANUP", "RECONCILIATION_REQUIRED"])
    (clipped 1000 detail) (clipped 500 detail) now)

/-- `fail_closed_owner_health`. -/
def failClosedOwnerHealth (sessionId capabilityHash detail : String) (now : ℚ) (db : Database) : Result Outcome := do
  let changed : Error := refused "owner-health revocation authority changed"
  let row ← orRaise changed db.row
  require (strip row.sessionId = strip sessionId ∧ strip row.capabilityHash = strip capabilityHash ∧ row.phase ∈ [.active, .cleanup]) changed
  pure (revokeBoth db row (fun session => session.sessionId = strip sessionId && session.state ∈ ["RUNNING", "CLEANUP"])
    (clipped 1000 detail) (clipped 500 detail) now)

/-- A session whose cleanup capability is rotated. -/
def CoreSession.rotate (session : CoreSession) (capabilityHash detail : String) : CoreSession :=
  { session with state := "CLEANUP", cleanupStarted := true, capabilityHash, detail }

/-- `takeover_expired_cleanup`; the capability is drawn before. -/
def takeoverExpiredCleanup (sessionId ownerId ownerToken capability : String) (lease now : ℚ) (db : Database) : Result Outcome := do
  require (24 ≤ (strip ownerToken).toList.length) (refused "recovery owner token is invalid")
  require (0 < lease ∧ lease ≤ maxOwnerLease) (refused "owner lease must be within 60 seconds")
  let row ← orRaise (refused "functional lifecycle is missing") db.row
  require (row.phase ∈ [.active, .cleanup, .finalReset]) (refused "functional lifecycle phase changed")
  require (min row.ownerLeaseExpires row.entryExpires ≤ now) (refused "active owner lease has not expired")
  require (strip row.sessionId = strip sessionId) (refused "recovery session changed")
  require (now < row.cleanupDeadline) (refused "cleanup deadline exceeded")
  let unrecoverable : Error := refused "durable functional session is not cleanup-recoverable"
  let session ← orRaise unrecoverable (db.sessions.find? (·.sessionId = strip sessionId))
  require (upper (strip session.state) ≠ "FINALIZED") unrecoverable
  let hash := env.secretHash capability
  pure ⟨{ db with
    sessions := db.sessions.map fun session =>
      if session.sessionId = strip sessionId then session.rotate hash "owner-loss attested; cleanup capability rotated" else session
    row := some ({ row with
      phase := .cleanup, capabilityHash := hash, ownerId := strip ownerId, ownerTokenHash := env.secretHash ownerToken,
      ownerLeaseExpires := min (now + lease) row.cleanupDeadline,
      detail := "expired owner replaced; fresh cleanup-only capability" }.bump now) }, true⟩

end LiveTrader.SpotControl

namespace LiveTrader.SpotControl

open Lib Lib.Py

/-! ## The startup audits -/

variable (env : Env)

/-! ## Before the activation -/

/-- `evidence.get("startupAbortAttestation", {}).get("durableActionCount") == 0`. -/
def isNoAction (evidence : Fields) : Result Bool := do
  let attestation ← evidence.section "startupAbortAttestation"
  pure ((attestation.at "durableActionCount").eq (.int 0))

/-- The evidence of a failed session says that no action was taken. -/
def attestsNoAction (text : String) : Result Bool :=
  if strip text = "" then .ok false
  else do
    let evidence ← env.loads (strip text)
    match evidence with
    | .obj evidence => isNoAction evidence
    | _ => pure false

/-- The sessions of the permit of the row. -/
def Database.ofPermit (db : Database) (row : Row) : List CoreSession :=
  db.sessions.filter fun session => session.permitId = strip row.permitId && session.permitHash = strip row.permitHash

/-- An ARMED row whose lease has ended and that has no running session. -/
def failWithoutSession (row : Row) (now : ℚ) (db : Database) : Result Outcome := do
  let failed ← ((db.ofPermit row).filter fun session => session.state = "FAILED" && session.finalEvidenceHash ≠ "").filterM
    fun session => attestsNoAction env session.finalEvidenceJson
  match failed with
  | [] => pure (db.withRow (row.revoke now "startup audit: ARMED expired before core session"))
  | [_] => pure db.kept
  | _ => .error (refused "startup audit found ambiguous failed sessions")

/-- An ARMED row whose lease has ended and that has one running session. -/
def auditUnactivated (row : Row) (session : CoreSession) (now : ℚ) (db : Database) : Outcome :=
  if db.actions (strip session.sessionId) ≠ 0 ∨ session.cleanupDeadline ≤ now then
    revokeBoth db { row with sessionId := strip session.sessionId }
      (fun other => other.sessionId = strip session.sessionId && other.state = "RUNNING")
      "startup audit found actions or exceeded cleanup deadline"
      "startup audit: preactivation state requires manual review" now
  else db.kept

/-- An ARMED row whose lease has ended. -/
def auditArmed (row : Row) (now : ℚ) (db : Database) : Result Outcome :=
  match (db.ofPermit row).filter (·.state = "RUNNING") with
  | [] => failWithoutSession env row now db
  | [session] => .ok (auditUnactivated row session now db)
  | _ => .error (refused "startup audit found ambiguous unactivated sessions")

/-- `audit_incomplete_startup`. -/
def auditIncompleteStartup (now : ℚ) (db : Database) : Result Outcome :=
  match db.row with
  | none => .ok db.kept
  | some row =>
    if row.phase = .armed then do
      require (row.ownerLeaseExpires ≤ now) (refused "ARMED startup owner lease is still active")
      auditArmed env row now db
    else .ok db.kept

/-! ## Everything else -/

/-- The sessions that are not over. -/
def Database.nonterminal (db : Database) : List CoreSession :=
  db.sessions.filter fun session => session.state ∈ ["RUNNING", "CLEANUP", "RECONCILIATION_REQUIRED"]

/-- The start of the row failed with an attestation that nothing was done. -/
def failedWithAttestation (row : Row) (db : Database) : Result Bool :=
  if row.phase = .failed ∧ strip row.sessionId ≠ "" then
    match (db.ofPermit row).find? (·.sessionId = strip row.sessionId) with
    | none => .ok false
    | some session =>
      if upper (strip session.state) = "FAILED" ∧ (strip session.finalEvidenceHash).toList.length = 64 then
        attestsNoAction env session.finalEvidenceJson
      else .ok false
  else .ok false

/-- The final evidence of the row's session is there. -/
def finalResetReady (row : Row) (db : Database) : Bool :=
  row.phase = .finalReset && (db.sessions.find? (·.sessionId = strip row.sessionId)).any fun session =>
    upper (strip session.state) ∈ ["FINAL_PREPARED", "FINALIZED"] && (strip session.finalEvidenceHash).toList.length = 64

/-- Nothing is to be done about the row, whatever the other sessions are. -/
def awaitsRetirement (row : Option Row) (db : Database) : Result Bool :=
  match row with
  | none => .ok false
  | some row => do
    let attested ← failedWithAttestation env row db
    pure (attested || finalResetReady row db)

/-- Sessions and row are revoked. -/
def revokeAll (db : Database) (p : CoreSession → Bool) (sessionDetail detail : String) (change : Row → Row) (now : ℚ) : Outcome :=
  ⟨{ db with
    sessions := db.reconciled p sessionDetail
    row := db.row.map fun row => (change row).revoke now detail }, false⟩

/-- No session is left that the row could be about. -/
def auditOrphan (now : ℚ) (db : Database) : Outcome :=
  match db.row with
  | none => db.kept
  | some row =>
    if row.phase ∈ [.active, .cleanup, .finalReset] then db.withRow (row.revoke now "startup audit: authority without core session")
    else db.kept

/-- What the audit draws for the recovery owner. -/
structure Fresh where
  capability : String
  ownerId : String
  ownerToken : String

/-- The cleanup of the session is handed to a recovery owner. -/
def rotate (session : CoreSession) (fresh : Fresh) (now : ℚ) (db : Database) : Outcome :=
  let hash := env.secretHash fresh.capability
  ⟨{ db with
    sessions := db.sessions.map fun other =>
      if other.sessionId = strip session.sessionId ∧ other.state ∈ ["RUNNING", "CLEANUP"] then
        other.rotate hash "startup audit rotated orphan cleanup authority"
      else other
    row := some {
      phase := .cleanup
      permitId := strip session.permitId
      permitHash := strip session.permitHash
      sessionId := strip session.sessionId
      capabilityHash := hash
      ownerId := fresh.ownerId
      ownerTokenHash := env.secretHash fresh.ownerToken
      ownerLeaseExpires := min (now + maxOwnerLease) session.cleanupDeadline
      entryExpires := session.expires
      cleanupDeadline := session.cleanupDeadline
      revision := (db.row.map Row.revision).getD 0 + 1
      detail := "startup audit: all orphan entry authority revoked"
      updated := now } }, true⟩

/-- The row is about another session or another permit. -/
def mismatched (row : Row) (session : CoreSession) : Bool :=
  strip row.sessionId ≠ strip session.sessionId || strip row.permitId ≠ strip session.permitId || strip row.permitHash ≠ strip session.permitHash

/-- The one session that is not over. -/
def auditSession (session : CoreSession) (fresh : Fresh) (now : ℚ) (db : Database) : Result Outcome :=
  let mine : CoreSession → Bool := fun other => other.sessionId = strip session.sessionId
  if upper (strip session.state) = "RECONCILIATION_REQUIRED" ∨ session.cleanupDeadline ≤ now then
    .ok (revokeAll db mine "startup audit: cleanup cannot be automated" "startup audit: manual reconciliation required"
      (fun row => { row with sessionId := strip session.sessionId }) now)
  else
    match db.row with
    | none => .ok (rotate env session fresh now db)
    | some row =>
      if row.phase ∈ [.active, .cleanup, .finalReset] then
        if mismatched row session then
          .ok (revokeAll db mine "startup audit: control/core identity mismatch" "startup audit: control/core identity mismatch" id now)
        else if now < row.ownerLeaseExpires then .error (refused "startup audit owner lease is still active")
        else .ok (rotate env session fresh now db)
      else .ok (rotate env session fresh now db)

/-- The transaction of `audit_all_incomplete_startup`. -/
def auditSessions (fresh : Fresh) (now : ℚ) (db : Database) : Result Outcome := do
  let retires ← awaitsRetirement env db.row db
  if retires then pure db.kept
  else
    match db.nonterminal with
    | [] => pure (auditOrphan now db)
    | [session] => auditSession env session fresh now db
    | _ => pure (revokeAll db (fun session => session.state ∈ ["RUNNING", "CLEANUP", "RECONCILIATION_REQUIRED"])
        "startup audit: multiple nonterminal sessions" "startup audit: ambiguous nonterminal sessions" id now)

/-- `audit_all_incomplete_startup`, with the row as it was read before. -/
def auditAllIncompleteStartup (seen : Option Row) (fresh : Fresh) (now : ℚ) (db : Database) : Result Outcome :=
  if ∃ row ∈ seen, row.phase = .armed then auditIncompleteStartup env now db
  else auditSessions env fresh now db

end LiveTrader.SpotControl
