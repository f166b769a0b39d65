/-
# `SpotControl.OneOwner` — one owner at a time

A row that was read is followed by the row of the database as long as no owner was put in since: this is the invariant of the
reads.  A change after a read is then made on a row of the same owner, and the phase that the update looks at says that the
row is not over.  Without the condition a slow `activate` activates the row of the next owner (`stale_activation`).
-/
import LiveTrader.SpotControl.Owners

namespace LiveTrader.SpotControl

open Lib Lib.Py Lib.Runs

variable {env : Env} {s s' : System} {outcome : Outcome} {row before : Row} {now : ℚ} {call : Call}

/-! ## The transactions of the calls -/

/-- **Every transaction** keeps the owner, or puts one in where it is permitted. -/
theorem transact_lawful (hclock : now ≤ s.clock) (hharmless : call.Harmless s now) (h : call.transact env s now = .ok outcome) :
    outcome.Lawful s.db s.clock := by
  cases call with
  | arm permit ownerId ownerToken planned lease => exact arm_lawful h s.clock
  | heartbeatPrepared sessionId permitId permitHash ownerId ownerToken lease =>
    obtain ⟨_, -, -, -, -, -, -, hkeeps⟩ := heartbeatPrepared_eq_ok h
    exact .inl hkeeps
  | activate read checked sessionId capabilityHash ownerId ownerToken =>
    obtain ⟨_, _, -, -, -, -, hkeeps⟩ := activate_eq_ok h
    exact .inl hkeeps
  | failArmed read ownerId ownerToken detail =>
    obtain ⟨_, _, -, -, -, -, hkeeps⟩ := failArmed_eq_ok h
    exact .inl hkeeps
  | markStartAbortPending read checked sessionId ownerId ownerToken detail =>
    obtain ⟨_, _, -, -, -, -, hkeeps⟩ := markStartAbortPending_eq_ok h
    exact .inl hkeeps
  | heartbeat read checked ownerId ownerToken lease renewed =>
    obtain ⟨_, _, -, -, -, -, hkeeps⟩ := heartbeat_eq_ok h
    exact .inl hkeeps
  | beginCleanup sessionId ownerId ownerToken detail =>
    obtain ⟨_, -, -, -, -, hkeeps⟩ := beginCleanup_eq_ok h
    exact .inl hkeeps
  | prepareFinalReset sessionId ownerId ownerToken =>
    obtain ⟨_, -, -, -, -, hkeeps⟩ := prepareFinalReset_eq_ok h
    exact .inl hkeeps
  | restoreCleanupAfterFailedFinal detail => exact .inl (restoreCleanup_keeps h)
  | sealFinal read => exact .inl (sealFinal_keeps h)
  | resumeFinalReset read readSessions again sessionId => exact .inl (resumeFinalReset_keeps h)
  | authoritySnapshot read checked => exact .inl (authoritySnapshot_keeps h)
  | expireCleanupToReconciliation sessionId capabilityHash detail => exact .inl (expireCleanup_keeps h)
  | failClosedOwnerHealth sessionId capabilityHash detail => exact .inl (failClosed_keeps h)
  | takeoverExpiredCleanup sessionId ownerId ownerToken capability lease => exact takeover_lawful hclock h
  | auditIncompleteStartup => exact .inl (auditIncomplete_eq_ok h).1
  | auditAllIncompleteStartup read fresh =>
    change auditAllIncompleteStartup env (s.rowAt read) fresh now s.db = .ok outcome at h
    rw [auditAllIncompleteStartup] at h
    split at h
    · exact .inl (auditIncomplete_eq_ok h).1
    · next hread =>
      have hnot : ∀ before ∈ s.rowAt read, before.phase ≠ .armed := fun before hbefore harmed => hread ⟨before, hbefore, harmed⟩
      rcases auditSessions_audits h with hkeeps | ⟨hinstalled, hinstalls⟩
      · exact .inl hkeeps
      · -- under a lease the audit has left everything as it was
        by_cases hlease : ∃ row, s.db.row = some row ∧ row.phase.live = true ∧ s.clock < row.ownerLeaseExpires
        · obtain ⟨row, hrow, hlive, hlease⟩ := hlease
          obtain rfl := auditSessions_kept hrow hlive (hclock.trans_lt hlease) (hharmless read rfl hnot row hrow hlive hlease) h
          exact .inl (keeps_kept s.db)
        · refine .inr ⟨hinstalled, hinstalls, fun row hrow => ?_⟩
          by_cases hlive : row.phase.live = true
          · have hexpired : row.ownerLeaseExpires ≤ s.clock := not_lt.mp fun hlt => hlease ⟨row, hrow, hlive, hlt⟩
            exact .inr ((min_le_left _ _).trans hexpired)
          · exact .inl (Bool.eq_false_of_not_eq_true hlive)

/-- No audit changes anything under a lease. -/
theorem transact_audited (hclock : now ≤ s.clock) (hharmless : call.Harmless s now) (haudit : call.isAudit = true)
    (hrow : s.db.row = some row) (hlive : row.phase.live = true) (hlease : s.clock < row.ownerLeaseExpires)
    (h : call.transact env s now = .ok outcome) : outcome.db = s.db := by
  have hnow : now < row.ownerLeaseExpires := hclock.trans_lt hlease
  cases call with
  | auditIncompleteStartup => exact (auditIncomplete_eq_ok h).2 row hrow hnow
  | auditAllIncompleteStartup read fresh =>
    change auditAllIncompleteStartup env (s.rowAt read) fresh now s.db = .ok outcome at h
    rw [auditAllIncompleteStartup] at h
    split at h
    · exact (auditIncomplete_eq_ok h).2 row hrow hnow
    · next hread =>
      have hnot : ∀ before ∈ s.rowAt read, before.phase ≠ .armed := fun before hbefore harmed => hread ⟨before, hbefore, harmed⟩
      rw [auditSessions_kept hrow hlive hnow (hharmless read rfl hnot row hrow hlive hlease) h]
      rfl
  | _ => cases haudit

/-! ## Reads -/

/-- The row of a read is followed by the row of the database, unless an owner was put in since. -/
structure Reads (s : System) : Prop where
  installs : ∀ seen ∈ s.reads, seen.installs ≤ s.installs
  follows : ∀ seen ∈ s.reads, seen.installs = s.installs → ∀ before, seen.row = some before →
    ∃ row, s.db.row = some row ∧ before.Follows row

theorem reads_initial (db : Database) (clock : ℚ) : Reads (.initial db clock) :=
  ⟨fun _ h => absurd h List.not_mem_nil, fun _ h => absurd h List.not_mem_nil⟩

theorem Reads.after (h : Reads s) (hlawful : outcome.Lawful s.db s.clock) : Reads (s.after (.ok outcome)) := by
  refine ⟨fun seen hseen => (h.installs seen hseen).trans (Nat.le_add_right _ _), fun seen hseen heq before hbefore => ?_⟩
  have hle := h.installs seen hseen
  replace heq : seen.installs = s.installs + if outcome.installed = true then 1 else 0 := heq
  rcases hlawful with hkeeps | ⟨hinstalled, -⟩
  · rw [hkeeps.installed, if_neg Bool.false_ne_true] at heq
    obtain ⟨row, hrow, hfollows⟩ := h.follows seen hseen heq before hbefore
    obtain ⟨row', hrow', hnext⟩ := hkeeps.row row hrow
    exact ⟨row', hrow', hfollows.trans hnext⟩
  · rw [hinstalled, if_pos rfl] at heq
    omega

theorem step_call {call : Call} (h : step env s (.call now call) = some s') : now ≤ s.clock ∧ s.after (call.transact env s now) = s' := by
  obtain ⟨⟨hclock, -⟩, h⟩ := Option.ite_none_right_eq_some.mp h
  exact ⟨hclock, Option.some.inj h⟩

theorem Reads.next {a : Act} (hmeets : Meets env s a) (hstep : step env s a = some s') (h : Reads s) : Reads s' := by
  cases a with
  | tick later =>
    obtain ⟨-, hstep⟩ := Option.ite_none_right_eq_some.mp hstep
    obtain rfl := Option.some.inj hstep
    exact ⟨h.installs, h.follows⟩
  | core sessions actions =>
    obtain rfl := Option.some.inj hstep
    exact ⟨h.installs, h.follows⟩
  | read =>
    obtain rfl := Option.some.inj hstep
    refine ⟨fun seen hseen => ?_, fun seen hseen heq before hbefore => ?_⟩
    · rcases List.mem_append.mp hseen with hold | hnew
      · exact h.installs seen hold
      · obtain rfl := List.mem_singleton.mp hnew
        exact le_rfl
    · rcases List.mem_append.mp hseen with hold | hnew
      · exact h.follows seen hold heq before hbefore
      · obtain rfl := List.mem_singleton.mp hnew
        exact ⟨before, hbefore, .refl before⟩
  | call now call =>
    obtain ⟨hclock, rfl⟩ := step_call hstep
    cases hresult : call.transact env s now with
    | error e => exact h
    | ok outcome => exact h.after (transact_lawful hclock hmeets.2 hresult)

/-! ## Requests -/

theorem Reads.current {read : ℕ} (h : Reads s) (hcurrent : s.Current read) (hbefore : s.rowAt read = some before) :
    ∃ row, s.db.row = some row ∧ before.Follows row := by
  obtain ⟨seen, hseen, hrow⟩ := Option.bind_eq_some_iff.mp hbefore
  exact h.follows seen (List.mem_of_getElem? hseen) (hcurrent seen hseen) before hrow

/-- A change after a current read is made on a row of the requester, under the permit that it has read. -/
theorem Reads.owned {read : ℕ} {phases : List Phase} {ownerId ownerToken : String} (h : Reads s) (hundisturbed : call.Undisturbed env s)
    (hbasis : call.basis = some (read, phases)) (hrequester : call.requester = some (ownerId, ownerToken))
    (hphases : ∀ phase ∈ phases, phase.live = true) (hbefore : s.rowAt read = some before)
    (howned : ownedBy env before ownerId ownerToken = true) (hrow : s.db.row = some row) (hphase : row.phase ∈ phases) :
    row.phase.live = true ∧ ownedBy env row ownerId ownerToken = true ∧ s.SamePermit read row := by
  have hcurrent := hundisturbed (read, phases) hbasis (ownerId, ownerToken) hrequester before hbefore howned row hrow hphase
  obtain ⟨found, hfound, hfollows⟩ := h.current hcurrent hbefore
  obtain rfl := Option.some.inj (hrow.symm.trans hfound)
  have hlive := hphases row.phase hphase
  exact ⟨hlive, hfollows.ownedBy hlive howned, before, hbefore, hfollows.permitId.symm, hfollows.permitHash.symm⟩

theorem transact_owned {ownerId ownerToken : String} (hreads : Reads s) (hundisturbed : call.Undisturbed env s)
    (hrequester : call.requester = some (ownerId, ownerToken)) (h : call.transact env s now = .ok outcome) :
    ∃ row, s.db.row = some row ∧ row.phase.live = true ∧ ownedBy env row ownerId ownerToken = true ∧ call.InEpoch s row := by
  cases call with
  | heartbeatPrepared sessionId permitId permitHash owner token lease =>
    obtain ⟨rfl, rfl⟩ := Prod.mk.inj (Option.some.inj hrequester)
    obtain ⟨row, hrow, hphase, hsession, hpermit, hhash, howned, -⟩ := heartbeatPrepared_eq_ok h
    exact ⟨row, hrow, by rw [hphase]; rfl, howned, hsession, hpermit, hhash⟩
  | activate read checked sessionId capabilityHash owner token =>
    obtain ⟨rfl, rfl⟩ := Prod.mk.inj (Option.some.inj hrequester)
    obtain ⟨before, row, hbefore, howned, hrow, hphase, -⟩ := activate_eq_ok h
    exact ⟨row, hrow, hreads.owned hundisturbed rfl rfl (by decide) hbefore howned hrow hphase⟩
  | failArmed read owner token detail =>
    obtain ⟨rfl, rfl⟩ := Prod.mk.inj (Option.some.inj hrequester)
    obtain ⟨before, row, hbefore, howned, hrow, hphase, -⟩ := failArmed_eq_ok h
    exact ⟨row, hrow, hreads.owned hundisturbed rfl rfl (by decide) hbefore howned hrow hphase⟩
  | markStartAbortPending read checked sessionId owner token detail =>
    obtain ⟨rfl, rfl⟩ := Prod.mk.inj (Option.some.inj hrequester)
    obtain ⟨before, row, hbefore, howned, hrow, hphase, -⟩ := markStartAbortPending_eq_ok h
    exact ⟨row, hrow, hreads.owned hundisturbed rfl rfl (by decide) hbefore howned hrow hphase⟩
  | heartbeat read checked owner token lease renewed =>
    obtain ⟨rfl, rfl⟩ := Prod.mk.inj (Option.some.inj hrequester)
    obtain ⟨before, row, hbefore, howned, hrow, hphase, -⟩ := heartbeat_eq_ok h
    exact ⟨row, hrow, hreads.owned hundisturbed rfl rfl (by decide) hbefore howned hrow hphase⟩
  | beginCleanup sessionId owner token detail =>
    obtain ⟨rfl, rfl⟩ := Prod.mk.inj (Option.some.inj hrequester)
    obtain ⟨row, hrow, hlive, hsession, howned, -⟩ := beginCleanup_eq_ok h
    exact ⟨row, hrow, hlive, howned, hsession⟩
  | prepareFinalReset sessionId owner token =>
    obtain ⟨rfl, rfl⟩ := Prod.mk.inj (Option.some.inj hrequester)
    obtain ⟨row, hrow, hlive, hsession, howned, -⟩ := prepareFinalReset_eq_ok h
    exact ⟨row, hrow, hlive, howned, hsession⟩
  | _ => cases hrequester

/-! ## Runs -/

/-- A call that meets the condition is fair. -/
theorem Reads.fair {a : Act} (h : Reads s) (hmeets : Meets env s a) : Fair env s a := by
  cases a with
  | call now call =>
    intro s' hstep
    obtain ⟨hclock, rfl⟩ := step_call hstep
    cases hresult : call.transact env s now with
    | error e =>
      refine ⟨fun _ _ _ hne => absurd rfl hne, fun row hrow => ⟨row, hrow, fun _ hne => absurd rfl hne⟩, fun _ _ _ _ _ => rfl⟩
    | ok outcome =>
      refine ⟨fun ownerId ownerToken hrequester _ => transact_owned h hmeets.1 hrequester hresult, fun row hrow => ?_,
        fun haudit row hrow hlive hlease => transact_audited hclock hmeets.2 haudit hrow hlive hlease hresult⟩
      rcases transact_lawful hclock hmeets.2 hresult with hkeeps | ⟨-, ⟨row', hrow'⟩, hexpired⟩
      · obtain ⟨row', hrow', hfollows⟩ := hkeeps.row row hrow
        exact ⟨row', hrow', fun hlive hne => absurd (hfollows.owner_eq hlive) hne⟩
      · exact ⟨row', hrow', fun _ _ => hexpired row hrow⟩
  | _ => trivial

/-- **One owner at a time.**  From any database, every run whose steps meet the condition is a run of fair steps. -/
theorem one_owner {db : Database} {clock : ℚ} {acts : List Act} {t : System}
    (h : Run (step env) (Meets env) (.initial db clock) acts t) : Run (step env) (Fair env) (.initial db clock) acts t := by
  have hreads := reads_initial db clock
  generalize System.initial db clock = s at h hreads
  induction h with
  | nil s => exact .nil s
  | cons hmeets hstep _ ih => exact .cons (hreads.fair hmeets) hstep (ih (hreads.next hmeets hstep))

/-! ## Two owners -/

/-- The digests of the tokens, and the texts of no evidence. -/
def sampleEnv : Env where
  secretHash text :=
    if strip text = "owner-a-token-0123456789" then "021f41074f75088920f53af02a2ea44721e4be2a38edf0db15ac10e81caf2c64"
    else "4210be4554e3c05d6f5789b8a1d599b5d4a30c5668d2a82ebb004b6ed0a7db65"
  loads _ := .error (.value "Expecting value")

def samplePermit (name : String) (start : ℚ) : Permit := ⟨name, name ++ "-hash", start + 7200, start + 9000⟩

def sampleDatabase : Database := ⟨none, [], fun _ => 0⟩

def sampleArm (now : ℚ) (name : String) : Act :=
  .call now (.arm (samplePermit ("permit-" ++ name) now) ("owner-" ++ name) ("owner-" ++ name ++ "-token-0123456789") "" 60)

def sampleActivate (now : ℚ) (read : ℕ) (checked : ℚ) (name : String) : Act :=
  .call now (.activate read checked ("session-" ++ name) "capability-hash" ("owner-" ++ name) ("owner-" ++ name ++ "-token-0123456789"))

/-- The first owner loses its lease before the activation, and a second one activates. -/
def sampleRun : List Act :=
  [sampleArm 0 "a", .tick 61, .call 61 .auditIncompleteStartup, sampleArm 61 "b", .read, sampleActivate 61 0 61 "b", .read,
    .call 61 (.heartbeat 1 61 "owner-b" "owner-b-token-0123456789" 60 61), .tick 100,
    .call 100 (.beginCleanup "session-b" "owner-b" "owner-b-token-0123456789" "stop")]

theorem one_owner_sample : ∃ t, Run (step sampleEnv) (Fair sampleEnv) (.initial sampleDatabase 0) sampleRun t ∧
    ∃ row, t.db.row = some row ∧ row.phase = .cleanup ∧ row.ownerId = "owner-b" := by
  have hrun : ∃ t, runAll (fun s a => if decide (Meets sampleEnv s a) then step sampleEnv s a else none) (.initial sampleDatabase 0) sampleRun =
      some t ∧ ∃ row, t.db.row = some row ∧ row.phase = .cleanup ∧ row.ownerId = "owner-b" := by
    decide +kernel
  obtain ⟨t, hrun, hrow⟩ := hrun
  exact ⟨t, one_owner ((run_of_guarded hrun).weaken fun _ _ hok => of_decide_eq_true hok), hrow⟩

/-- The first owner has read its row for the activation, and activates that of the second. -/
def staleRun : List Act :=
  [sampleArm 0 "a", .read, .tick 61, .call 61 .auditIncompleteStartup, sampleArm 61 "b"]

/-- **An owner that was failed** activates the row of the next one. -/
theorem stale_activation : ∃ s s', runAll (step sampleEnv) (.initial sampleDatabase 0) staleRun = some s ∧
    step sampleEnv s (sampleActivate 61 0 0 "a") = some s' ∧
    (∃ row, s.db.row = some row ∧ row.phase = .armed ∧ row.ownerId = "owner-b" ∧
      ownedBy sampleEnv row "owner-a" "owner-a-token-0123456789" = false) ∧
    (∃ row, s'.db.row = some row ∧ row.phase = .active ∧ row.ownerId = "owner-b" ∧ row.sessionId = "session-a") ∧
    ¬ Fair sampleEnv s (sampleActivate 61 0 0 "a") := by
  have hrun : ∃ s, runAll (step sampleEnv) (.initial sampleDatabase 0) staleRun = some s ∧
      ∃ s', step sampleEnv s (sampleActivate 61 0 0 "a") = some s' ∧
        (∃ row, s.db.row = some row ∧ row.phase = .armed ∧ row.ownerId = "owner-b" ∧
          ownedBy sampleEnv row "owner-a" "owner-a-token-0123456789" = false) ∧
        ∃ row, s'.db.row = some row ∧ row.phase = .active ∧ row.ownerId = "owner-b" ∧ row.sessionId = "session-a" := by
    decide +kernel
  obtain ⟨s, hs, s', hs', hbefore, hafter⟩ := hrun
  refine ⟨s, s', hs, hs', hbefore, hafter, fun hfair => ?_⟩
  obtain ⟨row, hrow, hphase, -, hother⟩ := hbefore
  obtain ⟨row', hrow', hphase', -⟩ := hafter
  have hne : s'.db ≠ s.db := by
    intro heq
    rw [heq, hrow] at hrow'
    obtain rfl := Option.some.inj hrow'
    rw [hphase] at hphase'
    cases hphase'
  obtain ⟨found, hfound, -, howned, -⟩ := (hfair s' hs').owned "owner-a" "owner-a-token-0123456789" rfl hne
  obtain rfl := Option.some.inj (hrow.symm.trans hfound)
  rw [hother] at howned
  cases howned

end LiveTrader.SpotControl
