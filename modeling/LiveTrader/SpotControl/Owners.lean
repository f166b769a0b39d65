/-
# `SpotControl.Owners` — what each transaction does to the owner

Any number of objects work on the row: each read of the row and each transaction is a step, and a call may use any row that
was read before.  The core ledger changes its sessions in between, and the clock does not go back.  How many owners were put
in so far is counted, and a read notes the count: the code does not know it, but it says whether a row that was read is still
the one of the same owner.

A step is fair if a change that an owner asked for was made on a row of this owner, if an owner was replaced only after its
lease or its window for entries, and if no audit touched anything under a lease.

A transaction either keeps the owner of the row, or puts in another one where the owner could be replaced: this is one lemma
for each transaction, and the audits are the only ones for which it takes a condition.  The transactions that an owner asks for
are inverted: the ones that compare owner and session themselves have found them, the others have only looked at the phase.
-/
import LiveTrader.Lib.Runs
import LiveTrader.SpotControl.Control

namespace LiveTrader.SpotControl

open Lib Lib.Py Lib.Runs

/-! ## Steps -/

/-- What one read has found. -/
structure Seen where
  row : Option Row
  sessions : List CoreSession
  installs : ℕ

structure System where
  db : Database
  clock : ℚ
  reads : List Seen
  /-- How many owners were put in. -/
  installs : ℕ

/-- The calls, with the numbers of the reads that they use. -/
inductive Call where
  | arm (permit : Permit) (ownerId ownerToken planned : String) (lease : ℚ)
  | heartbeatPrepared (sessionId permitId permitHash ownerId ownerToken : String) (lease : ℚ)
  | activate (read : ℕ) (checked : ℚ) (sessionId capabilityHash ownerId ownerToken : String)
  | failArmed (read : ℕ) (ownerId ownerToken detail : String)
  | markStartAbortPending (read : ℕ) (checked : ℚ) (sessionId ownerId ownerToken detail : String)
  | heartbeat (read : ℕ) (checked : ℚ) (ownerId ownerToken : String) (lease renewed : ℚ)
  | beginCleanup (sessionId ownerId ownerToken detail : String)
  | prepareFinalReset (sessionId ownerId ownerToken : String)
  | restoreCleanupAfterFailedFinal (detail : String)
  | sealFinal (read : ℕ)
  | resumeFinalReset (read readSessions again : ℕ) (sessionId : String)
  | authoritySnapshot (read : ℕ) (checked : ℚ)
  | expireCleanupToReconciliation (sessionId capabilityHash detail : String)
  | failClosedOwnerHealth (sessionId capabilityHash detail : String)
  | takeoverExpiredCleanup (sessionId ownerId ownerToken capability : String) (lease : ℚ)
  | auditIncompleteStartup
  | auditAllIncompleteStartup (read : ℕ) (fresh : Fresh)

inductive Act where
  | tick (later : ℚ)
  /-- The core ledger commits. -/
  | core (sessions : List CoreSession) (actions : String → ℕ)
  | read
  /-- The transaction of a call, with the time that it has taken from the clock. -/
  | call (now : ℚ) (call : Call)

/-- The row of a read. -/
def System.rowAt (s : System) (read : ℕ) : Option Row := (s.reads[read]?).bind Seen.row

def System.sessionsAt (s : System) (read : ℕ) : List CoreSession := ((s.reads[read]?).map Seen.sessions).getD []

section steps

variable (env : Env)

/-- The transaction of a call. -/
def Call.transact (s : System) (now : ℚ) : Call → Result Outcome
  | .arm permit ownerId ownerToken planned lease => SpotControl.arm env permit ownerId ownerToken planned lease now s.db
  | .heartbeatPrepared sessionId permitId permitHash ownerId ownerToken lease =>
    SpotControl.heartbeatPrepared env sessionId permitId permitHash ownerId ownerToken lease now s.db
  | .activate read checked sessionId capabilityHash ownerId ownerToken =>
    SpotControl.activate env (s.rowAt read) checked sessionId capabilityHash ownerId ownerToken now s.db
  | .failArmed read ownerId ownerToken detail => SpotControl.failArmed env (s.rowAt read) ownerId ownerToken detail now s.db
  | .markStartAbortPending read checked sessionId ownerId ownerToken detail =>
    SpotControl.markStartAbortPending env (s.rowAt read) checked sessionId ownerId ownerToken detail now s.db
  | .heartbeat read checked ownerId ownerToken lease renewed =>
    SpotControl.heartbeat env (s.rowAt read) checked ownerId ownerToken lease renewed now s.db
  | .beginCleanup sessionId ownerId ownerToken detail => SpotControl.beginCleanup env sessionId ownerId ownerToken detail now s.db
  | .prepareFinalReset sessionId ownerId ownerToken => SpotControl.prepareFinalReset env sessionId ownerId ownerToken now s.db
  | .restoreCleanupAfterFailedFinal detail => SpotControl.restoreCleanupAfterFailedFinal detail now s.db
  | .sealFinal read => SpotControl.sealFinal (s.rowAt read) now s.db
  | .resumeFinalReset read readSessions again sessionId =>
    SpotControl.resumeFinalReset (s.rowAt read) (s.sessionsAt readSessions) (s.rowAt again) sessionId now s.db
  | .authoritySnapshot read checked => SpotControl.authoritySnapshot (s.rowAt read) checked now s.db
  | .expireCleanupToReconciliation sessionId capabilityHash detail =>
    SpotControl.expireCleanupToReconciliation sessionId capabilityHash detail now s.db
  | .failClosedOwnerHealth sessionId capabilityHash detail => SpotControl.failClosedOwnerHealth sessionId capabilityHash detail now s.db
  | .takeoverExpiredCleanup sessionId ownerId ownerToken capability lease =>
    SpotControl.takeoverExpiredCleanup env sessionId ownerId ownerToken capability lease now s.db
  | .auditIncompleteStartup => SpotControl.auditIncompleteStartup env now s.db
  | .auditAllIncompleteStartup read fresh => SpotControl.auditAllIncompleteStartup env (s.rowAt read) fresh now s.db

/-- The reads of a call. -/
def Call.reads : Call → List ℕ
  | .activate read .. | .failArmed read .. | .markStartAbortPending read .. | .heartbeat read .. | .sealFinal read
  | .authoritySnapshot read _ | .auditAllIncompleteStartup read _ => [read]
  | .resumeFinalReset read readSessions again _ => [read, readSessions, again]
  | _ => []

/-- The times at which a call has looked at the clock before. -/
def Call.times : Call → List ℚ
  | .activate _ checked .. | .markStartAbortPending _ checked .. | .authoritySnapshot _ checked => [checked]
  | .heartbeat _ checked _ _ _ renewed => [checked, renewed]
  | _ => []

/-- A call that raises has changed nothing. -/
def System.after (s : System) : Result Outcome → System
  | .ok outcome => { s with db := outcome.db, installs := s.installs + if outcome.installed then 1 else 0 }
  | .error _ => s

def step (s : System) : Act → Option System
  | .tick later => if s.clock ≤ later then some { s with clock := later } else none
  | .core sessions actions => some { s with db := { s.db with sessions, actions } }
  | .read => some { s with reads := s.reads ++ [⟨s.db.row, s.db.sessions, s.installs⟩] }
  | .call now call =>
    if now ≤ s.clock ∧ (∀ t ∈ call.times, t ≤ now) ∧ ∀ read ∈ call.reads, read < s.reads.length then
      some (s.after (call.transact env s now))
    else none

/-! ## Fair steps -/

/-- Who asks for a change of its row. -/
def Call.requester : Call → Option (String × String)
  | .heartbeatPrepared _ _ _ ownerId ownerToken _ | .activate _ _ _ _ ownerId ownerToken | .failArmed _ ownerId ownerToken _
  | .markStartAbortPending _ _ _ ownerId ownerToken _ | .heartbeat _ _ ownerId ownerToken _ _ | .beginCleanup _ ownerId ownerToken _
  | .prepareFinalReset _ ownerId ownerToken => some (ownerId, ownerToken)
  | _ => none

/-- The permit is that of the row that was read. -/
def System.SamePermit (s : System) (read : ℕ) (row : Row) : Prop :=
  ∃ before, s.rowAt read = some before ∧ before.permitId = row.permitId ∧ before.permitHash = row.permitHash

/-- The row is in the epoch that the call is about: what it names of the session and the permit, or the permit it has read. -/
def Call.InEpoch (s : System) (row : Row) : Call → Prop
  | .heartbeatPrepared sessionId permitId permitHash .. =>
    strip row.sessionId = strip sessionId ∧ strip row.permitId = strip permitId ∧ strip row.permitHash = lower (strip permitHash)
  | .beginCleanup sessionId .. | .prepareFinalReset sessionId .. => strip row.sessionId = strip sessionId
  | .activate read .. | .failArmed read .. | .markStartAbortPending read .. | .heartbeat read .. => s.SamePermit read row
  | _ => True

/-- Whose row it is. -/
def Row.owner (row : Row) : String × String × String × String := (row.ownerId, row.ownerTokenHash, row.permitId, row.permitHash)

def Call.isAudit : Call → Bool
  | .auditIncompleteStartup | .auditAllIncompleteStartup .. => true
  | _ => false

/-- The owner of the row may be replaced. -/
def Row.Expired (row : Row) (clock : ℚ) : Prop := row.phase.live = false ∨ min row.ownerLeaseExpires row.entryExpires ≤ clock

/-- What is asked of a call. -/
structure Call.Fair (s : System) (call : Call) (s' : System) : Prop where
  owned : ∀ ownerId ownerToken, call.requester = some (ownerId, ownerToken) → s'.db ≠ s.db →
    ∃ row, s.db.row = some row ∧ row.phase.live = true ∧ ownedBy env row ownerId ownerToken = true ∧ call.InEpoch s row
  replaced : ∀ row, s.db.row = some row → ∃ row', s'.db.row = some row' ∧
    (row'.phase.live = true → row'.owner ≠ row.owner → row.Expired s.clock)
  audited : call.isAudit = true → ∀ row, s.db.row = some row → row.phase.live = true → s.clock < row.ownerLeaseExpires → s'.db = s.db

/-- Where the step can be taken, it is fair; only calls touch the row. -/
def Fair (s : System) : Act → Prop
  | .call now call => ∀ s', step env s (.call now call) = some s' → call.Fair env s s'
  | _ => True

/-! ## The condition -/

/-- The read on which a call has looked who the owner is, and the phases in which its update finds the row. -/
def Call.basis : Call → Option (ℕ × List Phase)
  | .activate read .. | .failArmed read .. | .markStartAbortPending read .. => some (read, [.armed])
  | .heartbeat read .. => some (read, [.active])
  | _ => none

/-- No owner was put in since the read. -/
def System.Current (s : System) (read : ℕ) : Prop := ∀ seen ∈ s.reads[read]?, seen.installs = s.installs

/-- An owner that has read its own row updates a row to which no owner was put in since. -/
def Call.Undisturbed (s : System) (call : Call) : Prop :=
  ∀ basis ∈ call.basis, ∀ requester ∈ call.requester, ∀ before ∈ s.rowAt basis.1,
    ownedBy env before requester.1 requester.2 = true → ∀ row ∈ s.db.row, row.phase ∈ basis.2 → s.Current basis.1

instance (s : System) (read : ℕ) : Decidable (s.Current read) := inferInstanceAs (Decidable (∀ seen ∈ s.reads[read]?, _))

instance (s : System) (call : Call) : Decidable (call.Undisturbed env s) := inferInstanceAs (Decidable (∀ basis ∈ call.basis, _))

/-- A row under a lease has nothing that an audit could take offence at. -/
def Harmless (row : Row) (now : ℚ) (db : Database) : Prop :=
  finalResetReady row db = true ∨ (row.phase = .armed ∧ db.nonterminal = []) ∨
    ∃ session ∈ db.nonterminal, db.nonterminal = [session] ∧ row.phase ≠ .armed ∧ mismatched row session = false ∧
      upper (strip session.state) ≠ "RECONCILIATION_REQUIRED" ∧ now < session.cleanupDeadline

instance (row : Row) (now : ℚ) (db : Database) : Decidable (Harmless row now db) := inferInstanceAs (Decidable (_ ∨ _ ∨ _))

/-- The read on which the second audit looks whether the row is ARMED. -/
def Call.auditRead : Call → Option ℕ
  | .auditAllIncompleteStartup read _ => some read
  | _ => none

/-- An audit that has not read an ARMED row finds nothing wrong with a row under a lease. -/
def Call.Harmless (s : System) (now : ℚ) (call : Call) : Prop :=
  ∀ read ∈ call.auditRead, (∀ before ∈ s.rowAt read, before.phase ≠ .armed) →
    ∀ row ∈ s.db.row, row.phase.live = true → s.clock < row.ownerLeaseExpires → SpotControl.Harmless row now s.db

instance (s : System) (now : ℚ) (call : Call) : Decidable (call.Harmless s now) := inferInstanceAs (Decidable (∀ read ∈ call.auditRead, _))

def Meets (s : System) : Act → Prop
  | .call now call => call.Undisturbed env s ∧ call.Harmless s now
  | _ => True

instance (s : System) : (a : Act) → Decidable (Meets env s a)
  | .call now call => inferInstanceAs (Decidable (call.Undisturbed env s ∧ call.Harmless s now))
  | .tick _ | .core .. | .read => .isTrue trivial

end steps

/-- The objects have read nothing yet. -/
def System.initial (db : Database) (clock : ℚ) : System := ⟨db, clock, [], 0⟩

/-! ## What each transaction does to the owner -/

variable {env : Env} {db : Database} {outcome : Outcome} {row row' : Row} {now : ℚ}

/-! ## Rows of one owner -/

/-- The row is still that of the owner, or it is over. -/
structure Row.Follows (before row : Row) : Prop where
  ownerId : row.ownerId = before.ownerId
  permitId : row.permitId = before.permitId
  permitHash : row.permitHash = before.permitHash
  live : row.phase.live = true → before.phase.live = true ∧ row.ownerTokenHash = before.ownerTokenHash

theorem Row.Follows.refl (row : Row) : row.Follows row := ⟨rfl, rfl, rfl, fun h => ⟨h, rfl⟩⟩

theorem Row.Follows.trans {row'' : Row} (h : row.Follows row') (h' : row'.Follows row'') : row.Follows row'' := by
  refine ⟨h'.ownerId.trans h.ownerId, h'.permitId.trans h.permitId, h'.permitHash.trans h.permitHash, fun hlive => ?_⟩
  obtain ⟨hlive', htoken'⟩ := h'.live hlive
  obtain ⟨hlive'', htoken⟩ := h.live hlive'
  exact ⟨hlive'', htoken'.trans htoken⟩

theorem Row.Follows.revoked {detail : String} (hid : row'.ownerId = row.ownerId) (hpermit : row'.permitId = row.permitId)
    (hhash : row'.permitHash = row.permitHash) : row.Follows (row'.revoke now detail) :=
  ⟨hid, hpermit, hhash, fun h => absurd h Bool.false_ne_true⟩

theorem Row.Follows.owner_eq (h : row.Follows row') (hlive : row'.phase.live = true) : row'.owner = row.owner := by
  rw [Row.owner, Row.owner, h.ownerId, h.permitId, h.permitHash, (h.live hlive).2]

/-- While the row is not over, who owned it owns it. -/
theorem Row.Follows.ownedBy {ownerId ownerToken : String} (h : row.Follows row') (hlive : row'.phase.live = true)
    (howned : ownedBy env row ownerId ownerToken = true) : ownedBy env row' ownerId ownerToken = true := by
  rw [SpotControl.ownedBy] at howned ⊢
  rw [h.ownerId, (h.live hlive).2]
  exact howned

/-! ## Outcomes -/

/-- Nobody is put in, and a row stays that of its owner. -/
structure Outcome.Keeps (outcome : Outcome) (db : Database) : Prop where
  installed : outcome.installed = false
  row : ∀ row, db.row = some row → ∃ row', outcome.db.row = some row' ∧ row.Follows row'

/-- An owner is kept, or replaced where this is permitted. -/
def Outcome.Lawful (outcome : Outcome) (db : Database) (clock : ℚ) : Prop :=
  outcome.Keeps db ∨ (outcome.installed = true ∧ (∃ row', outcome.db.row = some row') ∧ ∀ row, db.row = some row → row.Expired clock)

theorem keeps_kept (db : Database) : db.kept.Keeps db :=
  ⟨rfl, fun row hrow => ⟨row, hrow, .refl row⟩⟩

/-- The row of the database is replaced by one that follows it. -/
theorem keeps_of_follows (hrow : db.row = some row) (hrow' : outcome.db.row = some row') (hinstalled : outcome.installed = false)
    (h : row.Follows row') : outcome.Keeps db := by
  refine ⟨hinstalled, fun before hbefore => ⟨row', hrow', ?_⟩⟩
  obtain rfl := Option.some.inj (hrow.symm.trans hbefore)
  exact h

theorem keeps_revokeBoth {p : CoreSession → Bool} {sessionDetail detail : String} (hrow : db.row = some row)
    (hid : row'.ownerId = row.ownerId) (hpermit : row'.permitId = row.permitId) (hhash : row'.permitHash = row.permitHash) :
    (revokeBoth db row' p sessionDetail detail now).Keeps db :=
  keeps_of_follows hrow rfl rfl (.revoked hid hpermit hhash)

theorem update_eq_ok {expected : List Phase} {change : Row → Row} (h : update expected change now db = .ok outcome) :
    ∃ row, db.row = some row ∧ row.phase ∈ expected ∧ outcome = db.withRow ((change row).bump now) := by
  obtain ⟨row, hrow, h⟩ := bind_eq_ok.mp h
  obtain ⟨_, hphase, h⟩ := bind_eq_ok.mp h
  exact ⟨row, orRaise_eq_ok.mp hrow, require_eq_ok.mp hphase, (Except.ok.inj h).symm⟩

theorem keeps_update {expected : List Phase} {change : Row → Row} (h : update expected change now db = .ok outcome)
    (hchange : ∀ row : Row, row.phase ∈ expected → row.Follows (change row)) : outcome.Keeps db := by
  obtain ⟨row, hrow, hphase, rfl⟩ := update_eq_ok h
  have hfollows := hchange row hphase
  exact keeps_of_follows hrow rfl rfl ⟨hfollows.ownerId, hfollows.permitId, hfollows.permitHash, hfollows.live⟩

theorem ownedTransition_eq_ok {expected : List Phase} {sessionId ownerId ownerToken : String} {allowExpired : Bool} {change : Row → Row}
    (h : ownedTransition env expected sessionId ownerId ownerToken allowExpired change now db = .ok outcome) :
    ∃ row, db.row = some row ∧ row.phase ∈ expected ∧ strip row.sessionId = strip sessionId ∧
      ownedBy env row ownerId ownerToken = true ∧ outcome = db.withRow ((change row).bump now) := by
  obtain ⟨row, hrow, h⟩ := bind_eq_ok.mp h
  obtain ⟨_, hchecks, h⟩ := bind_eq_ok.mp h
  obtain ⟨_, -, h⟩ := bind_eq_ok.mp h
  obtain ⟨hphase, hsession, howned, -⟩ := require_eq_ok.mp hchecks
  exact ⟨row, orRaise_eq_ok.mp hrow, hphase, hsession, howned, (Except.ok.inj h).symm⟩

theorem requireOwner_eq_ok {ownerId ownerToken : String} {allowExpired : Bool} {u : Unit}
    (h : requireOwner env row ownerId ownerToken allowExpired now = .ok u) : ownedBy env row ownerId ownerToken = true := by
  obtain ⟨_, howned, -⟩ := bind_eq_ok.mp h
  exact require_eq_ok.mp howned

/-! ## Transactions that keep the owner -/

variable {seen again : Option Row} {checked : ℚ} {sessionId permitId permitHash capabilityHash ownerId ownerToken detail : String}

theorem heartbeatPrepared_eq_ok {lease : ℚ}
    (h : heartbeatPrepared env sessionId permitId permitHash ownerId ownerToken lease now db = .ok outcome) :
    ∃ row, db.row = some row ∧ row.phase = .armed ∧ strip row.sessionId = strip sessionId ∧ strip row.permitId = strip permitId ∧
      strip row.permitHash = lower (strip permitHash) ∧ ownedBy env row ownerId ownerToken = true ∧ outcome.Keeps db := by
  obtain ⟨_, -, h⟩ := bind_eq_ok.mp h
  obtain ⟨row, hrow, h⟩ := bind_eq_ok.mp h
  obtain ⟨_, hchecks, h⟩ := bind_eq_ok.mp h
  obtain ⟨_, -, h⟩ := bind_eq_ok.mp h
  obtain ⟨hphase, hsession, hpermit, hhash, -, howned, -⟩ := require_eq_ok.mp hchecks
  obtain rfl := Except.ok.inj h
  rw [orRaise_eq_ok] at hrow
  exact ⟨row, hrow, hphase, hsession, hpermit, hhash, howned, keeps_of_follows hrow rfl rfl ⟨rfl, rfl, rfl, fun hlive => ⟨hlive, rfl⟩⟩⟩

/-- What a change after a read comes to: the requester owned the row that was read. -/
theorem activate_eq_ok (h : activate env seen checked sessionId capabilityHash ownerId ownerToken now db = .ok outcome) :
    ∃ before row, seen = some before ∧ ownedBy env before ownerId ownerToken = true ∧ db.row = some row ∧ row.phase ∈ [Phase.armed] ∧
      outcome.Keeps db := by
  obtain ⟨before, hbefore, h⟩ := bind_eq_ok.mp h
  obtain ⟨_, howner, h⟩ := bind_eq_ok.mp h
  obtain ⟨row, hrow, hphase, -⟩ := update_eq_ok h
  refine ⟨before, row, orRaise_eq_ok.mp hbefore, requireOwner_eq_ok howner, hrow, hphase, keeps_update h fun row hphase => ?_⟩
  exact ⟨rfl, rfl, rfl, fun _ => ⟨by rw [List.mem_singleton.mp hphase]; rfl, rfl⟩⟩

theorem failArmed_eq_ok (h : failArmed env seen ownerId ownerToken detail now db = .ok outcome) :
    ∃ before row, seen = some before ∧ ownedBy env before ownerId ownerToken = true ∧ db.row = some row ∧ row.phase ∈ [Phase.armed] ∧
      outcome.Keeps db := by
  obtain ⟨before, hbefore, h⟩ := bind_eq_ok.mp h
  obtain ⟨_, howner, h⟩ := bind_eq_ok.mp h
  obtain ⟨row, hrow, hphase, -⟩ := update_eq_ok h
  refine ⟨before, row, orRaise_eq_ok.mp hbefore, requireOwner_eq_ok howner, hrow, hphase, keeps_update h fun row hphase => ?_⟩
  exact ⟨rfl, rfl, rfl, fun _ => ⟨by rw [List.mem_singleton.mp hphase]; rfl, rfl⟩⟩

theorem markStartAbortPending_eq_ok
    (h : markStartAbortPending env seen checked sessionId ownerId ownerToken detail now db = .ok outcome) :
    ∃ before row, seen = some before ∧ ownedBy env before ownerId ownerToken = true ∧ db.row = some row ∧ row.phase ∈ [Phase.armed] ∧
      outcome.Keeps db := by
  obtain ⟨before, hbefore, h⟩ := bind_eq_ok.mp h
  obtain ⟨_, howner, h⟩ := bind_eq_ok.mp h
  obtain ⟨row, hrow, hphase, -⟩ := update_eq_ok h
  refine ⟨before, row, orRaise_eq_ok.mp hbefore, requireOwner_eq_ok howner, hrow, hphase, keeps_update h fun row _ => ?_⟩
  exact ⟨rfl, rfl, rfl, fun hlive => ⟨hlive, rfl⟩⟩

theorem heartbeat_eq_ok {lease renewed : ℚ} (h : heartbeat env seen checked ownerId ownerToken lease renewed now db = .ok outcome) :
    ∃ before row, seen = some before ∧ ownedBy env before ownerId ownerToken = true ∧ db.row = some row ∧ row.phase ∈ [Phase.active] ∧
      outcome.Keeps db := by
  obtain ⟨before, hbefore, h⟩ := bind_eq_ok.mp h
  obtain ⟨_, howner, h⟩ := bind_eq_ok.mp h
  obtain ⟨_, -, h⟩ := bind_eq_ok.mp h
  obtain ⟨_, -, h⟩ := bind_eq_ok.mp h
  obtain ⟨_, -, h⟩ := bind_eq_ok.mp h
  obtain ⟨row, hrow, hphase, -⟩ := update_eq_ok h
  refine ⟨before, row, orRaise_eq_ok.mp hbefore, requireOwner_eq_ok howner, hrow, hphase, keeps_update h fun row _ => ?_⟩
  exact ⟨rfl, rfl, rfl, fun hlive => ⟨hlive, rfl⟩⟩

/-- The row of an owned transition into a phase of an owner. -/
theorem owned_eq_ok {expected : List Phase} {change : Row → Row}
    (h : ownedTransition env expected sessionId ownerId ownerToken true change now db = .ok outcome)
    (hexpected : ∀ phase ∈ expected, phase.live = true)
    (hchange : ∀ row, (change row).ownerId = row.ownerId ∧ (change row).permitId = row.permitId ∧
      (change row).permitHash = row.permitHash ∧ (change row).ownerTokenHash = row.ownerTokenHash) :
    ∃ row, db.row = some row ∧ row.phase.live = true ∧ strip row.sessionId = strip sessionId ∧
      ownedBy env row ownerId ownerToken = true ∧ outcome.Keeps db := by
  obtain ⟨row, hrow, hphase, hsession, howned, rfl⟩ := ownedTransition_eq_ok h
  obtain ⟨hid, hpermit, hhash, htoken⟩ := hchange row
  have hlive := hexpected row.phase hphase
  exact ⟨row, hrow, hlive, hsession, howned, keeps_of_follows hrow rfl rfl ⟨hid, hpermit, hhash, fun _ => ⟨hlive, htoken⟩⟩⟩

theorem beginCleanup_eq_ok (h : beginCleanup env sessionId ownerId ownerToken detail now db = .ok outcome) :
    ∃ row, db.row = some row ∧ row.phase.live = true ∧ strip row.sessionId = strip sessionId ∧
      ownedBy env row ownerId ownerToken = true ∧ outcome.Keeps db :=
  owned_eq_ok h (by decide) fun _ => ⟨rfl, rfl, rfl, rfl⟩

theorem prepareFinalReset_eq_ok (h : prepareFinalReset env sessionId ownerId ownerToken now db = .ok outcome) :
    ∃ row, db.row = some row ∧ row.phase.live = true ∧ strip row.sessionId = strip sessionId ∧
      ownedBy env row ownerId ownerToken = true ∧ outcome.Keeps db :=
  owned_eq_ok h (by decide) fun _ => ⟨rfl, rfl, rfl, rfl⟩

theorem restoreCleanup_keeps (h : restoreCleanupAfterFailedFinal detail now db = .ok outcome) : outcome.Keeps db := by
  refine keeps_update h fun row hphase => ⟨rfl, rfl, rfl, fun _ => ⟨?_, rfl⟩⟩
  rw [List.mem_singleton.mp hphase]
  rfl

theorem sealFinal_keeps (h : sealFinal seen now db = .ok outcome) : outcome.Keeps db := by
  rw [sealFinal] at h
  split at h
  · obtain rfl := Except.ok.inj h
    exact keeps_kept db
  · exact keeps_update h fun row _ => ⟨rfl, rfl, rfl, fun hlive => absurd hlive Bool.false_ne_true⟩

theorem resumeFinalReset_keeps {sessions : List CoreSession} (h : resumeFinalReset seen sessions again sessionId now db = .ok outcome) :
    outcome.Keeps db := by
  obtain ⟨before, -, h⟩ := bind_eq_ok.mp h
  obtain ⟨_, -, h⟩ := bind_eq_ok.mp h
  split at h
  · obtain rfl := Except.ok.inj h
    exact keeps_kept db
  · obtain ⟨_, -, h⟩ := bind_eq_ok.mp h
    obtain ⟨_, -, h⟩ := bind_eq_ok.mp h
    exact sealFinal_keeps h

theorem authoritySnapshot_keeps (h : authoritySnapshot seen checked now db = .ok outcome) : outcome.Keeps db := by
  rw [authoritySnapshot] at h
  split at h
  · refine keeps_update h fun row hphase => ⟨rfl, rfl, rfl, fun _ => ⟨?_, rfl⟩⟩
    rw [List.mem_singleton.mp hphase]
    rfl
  · obtain rfl := Except.ok.inj h
    exact keeps_kept db

theorem expireCleanup_keeps (h : expireCleanupToReconciliation sessionId capabilityHash detail now db = .ok outcome) :
    outcome.Keeps db := by
  obtain ⟨row, hrow, h⟩ := bind_eq_ok.mp h
  obtain ⟨_, -, h⟩ := bind_eq_ok.mp h
  obtain rfl := Except.ok.inj h
  exact keeps_revokeBoth (orRaise_eq_ok.mp hrow) rfl rfl rfl

theorem failClosed_keeps (h : failClosedOwnerHealth sessionId capabilityHash detail now db = .ok outcome) : outcome.Keeps db := by
  obtain ⟨row, hrow, h⟩ := bind_eq_ok.mp h
  obtain ⟨_, -, h⟩ := bind_eq_ok.mp h
  obtain rfl := Except.ok.inj h
  exact keeps_revokeBoth (orRaise_eq_ok.mp hrow) rfl rfl rfl

/-! ## Transactions that put in an owner -/

theorem arm_lawful {permit : Permit} {planned : String} {lease : ℚ} (h : arm env permit ownerId ownerToken planned lease now db = .ok outcome)
    (clock : ℚ) : outcome.Lawful db clock := by
  obtain ⟨_, -, h⟩ := bind_eq_ok.mp h
  obtain ⟨_, -, h⟩ := bind_eq_ok.mp h
  obtain ⟨_, -, h⟩ := bind_eq_ok.mp h
  obtain ⟨_, hover, h⟩ := bind_eq_ok.mp h
  obtain rfl := Except.ok.inj h
  exact .inr ⟨rfl, ⟨_, rfl⟩, fun row hrow => .inl (require_eq_ok.mp hover row hrow)⟩

theorem takeover_lawful {capability : String} {lease clock : ℚ} (hclock : now ≤ clock)
    (h : takeoverExpiredCleanup env sessionId ownerId ownerToken capability lease now db = .ok outcome) : outcome.Lawful db clock := by
  obtain ⟨_, -, h⟩ := bind_eq_ok.mp h
  obtain ⟨_, -, h⟩ := bind_eq_ok.mp h
  obtain ⟨row, hrow, h⟩ := bind_eq_ok.mp h
  obtain ⟨_, -, h⟩ := bind_eq_ok.mp h
  obtain ⟨_, hexpired, h⟩ := bind_eq_ok.mp h
  obtain ⟨_, -, h⟩ := bind_eq_ok.mp h
  obtain ⟨_, -, h⟩ := bind_eq_ok.mp h
  obtain ⟨_, -, h⟩ := bind_eq_ok.mp h
  obtain ⟨_, -, h⟩ := bind_eq_ok.mp h
  obtain rfl := Except.ok.inj h
  refine .inr ⟨rfl, ⟨_, rfl⟩, fun before hbefore => .inr ?_⟩
  obtain rfl := Option.some.inj ((orRaise_eq_ok.mp hrow).symm.trans hbefore)
  exact (require_eq_ok.mp hexpired).trans hclock

/-! ## Audits -/

theorem auditArmed_keeps (hrow : db.row = some row) (h : auditArmed env row now db = .ok outcome) : outcome.Keeps db := by
  rw [auditArmed] at h
  split at h
  · rw [failWithoutSession] at h
    obtain ⟨failed, -, h⟩ := bind_eq_ok.mp h
    split at h
    · obtain rfl := Except.ok.inj h
      exact keeps_of_follows hrow rfl rfl (.revoked rfl rfl rfl)
    · obtain rfl := Except.ok.inj h
      exact keeps_kept db
    · cases h
  · obtain rfl := Except.ok.inj h
    rw [auditUnactivated]
    split
    · exact keeps_revokeBoth hrow rfl rfl rfl
    · exact keeps_kept db
  · cases h

/-- The first audit puts nobody in, and touches nothing under a lease. -/
theorem auditIncomplete_eq_ok (h : auditIncompleteStartup env now db = .ok outcome) :
    outcome.Keeps db ∧ ∀ row, db.row = some row → now < row.ownerLeaseExpires → outcome.db = db := by
  rw [auditIncompleteStartup] at h
  split at h
  · obtain rfl := Except.ok.inj h
    exact ⟨keeps_kept db, fun _ _ _ => rfl⟩
  · next row hrow =>
    split at h
    · obtain ⟨_, hexpired, h⟩ := bind_eq_ok.mp h
      refine ⟨auditArmed_keeps hrow h, fun before hbefore hlease => ?_⟩
      obtain rfl := Option.some.inj (hrow.symm.trans hbefore)
      exact absurd hlease (not_lt.mpr (require_eq_ok.mp hexpired))
    · obtain rfl := Except.ok.inj h
      exact ⟨keeps_kept db, fun _ _ _ => rfl⟩

/-- Revoking everything puts nobody in. -/
theorem revokeAll_keeps {p : CoreSession → Bool} {sessionDetail : String} {change : Row → Row}
    (hchange : ∀ row, (change row).ownerId = row.ownerId ∧ (change row).permitId = row.permitId ∧ (change row).permitHash = row.permitHash) :
    (revokeAll db p sessionDetail detail change now).Keeps db := by
  refine ⟨rfl, fun row hrow => ⟨(change row).revoke now detail, ?_, ?_⟩⟩
  · show db.row.map _ = _
    rw [hrow]
    rfl
  · obtain ⟨hid, hpermit, hhash⟩ := hchange row
    exact .revoked hid hpermit hhash

/-- An audit that is not about an ARMED row keeps the owner, or puts in its own. -/
def Outcome.Audits (outcome : Outcome) (db : Database) : Prop :=
  outcome.Keeps db ∨ (outcome.installed = true ∧ ∃ row', outcome.db.row = some row')

theorem auditSession_audits {session : CoreSession} {fresh : Fresh} (h : auditSession env session fresh now db = .ok outcome) :
    outcome.Audits db := by
  rw [auditSession] at h
  split at h
  · obtain rfl := Except.ok.inj h
    exact .inl (revokeAll_keeps fun _ => ⟨rfl, rfl, rfl⟩)
  · split at h
    · obtain rfl := Except.ok.inj h
      exact .inr ⟨rfl, _, rfl⟩
    · split at h
      · split at h
        · obtain rfl := Except.ok.inj h
          exact .inl (revokeAll_keeps fun _ => ⟨rfl, rfl, rfl⟩)
        · split at h
          · cases h
          · obtain rfl := Except.ok.inj h
            exact .inr ⟨rfl, _, rfl⟩
      · obtain rfl := Except.ok.inj h
        exact .inr ⟨rfl, _, rfl⟩

theorem auditSessions_audits {fresh : Fresh} (h : auditSessions env fresh now db = .ok outcome) : outcome.Audits db := by
  obtain ⟨retires, -, h⟩ := bind_eq_ok.mp h
  split at h
  · obtain rfl := Except.ok.inj h
    exact .inl (keeps_kept db)
  · split at h
    · obtain rfl := Except.ok.inj h
      rw [auditOrphan]
      split
      · exact .inl (keeps_kept db)
      · next row hrow =>
        split
        · exact .inl (keeps_of_follows hrow rfl rfl (.revoked rfl rfl rfl))
        · exact .inl (keeps_kept db)
    · exact auditSession_audits h
    · obtain rfl := Except.ok.inj h
      exact .inl (revokeAll_keeps fun _ => ⟨rfl, rfl, rfl⟩)

/-- Where nothing is wrong with a row under a lease, the audit leaves everything as it is. -/
theorem auditSessions_kept {fresh : Fresh} (hrow : db.row = some row) (hlive : row.phase.live = true)
    (hlease : now < row.ownerLeaseExpires) (hharmless : Harmless row now db) (h : auditSessions env fresh now db = .ok outcome) :
    outcome = db.kept := by
  rw [auditSessions, hrow] at h
  obtain ⟨retires, hretires, h⟩ := bind_eq_ok.mp h
  rw [awaitsRetirement] at hretires
  obtain ⟨attested, -, hretires⟩ := bind_eq_ok.mp hretires
  obtain rfl := Except.ok.inj hretires
  split at h
  · exact (Except.ok.inj h).symm
  · next hready =>
    rcases hharmless with hfinal | ⟨hphase, hnone⟩ | ⟨session, -, hone, hphase, hmatch, hstate, hdeadline⟩
    · rw [hfinal, Bool.or_true] at hready
      exact absurd rfl hready
    · rw [hnone] at h
      dsimp only at h
      rw [auditOrphan, hrow] at h
      dsimp only at h
      rw [if_neg (by rw [hphase]; decide)] at h
      exact (Except.ok.inj h).symm
    · have hmember : row.phase ∈ [Phase.active, .cleanup, .finalReset] := by
        cases hcase : row.phase with
        | armed => exact absurd hcase hphase
        | active => decide
        | cleanup => decide
        | finalReset => decide
        | finalized =>
          rw [hcase] at hlive
          cases hlive
        | failed =>
          rw [hcase] at hlive
          cases hlive
      rw [hone] at h
      dsimp only at h
      rw [auditSession, if_neg (not_or.mpr ⟨hstate, not_le.mpr hdeadline⟩), hrow] at h
      dsimp only at h
      rw [if_pos hmember, if_neg (by rw [hmatch]; exact Bool.false_ne_true), if_pos hlease] at h
      cases h

end LiveTrader.SpotControl
