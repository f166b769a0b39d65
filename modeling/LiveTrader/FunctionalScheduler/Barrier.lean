/-
# `FunctionalScheduler.Barrier` — a stop is a strict barrier

`Sound` reads the log call by call, against what came before.  After a stop was observed, or a tick
has failed, no heartbeat is sent, and nothing is evaluated, proved or finalized before a status
showed the cleanup of this session and owner and the owner token was verified for it.

In every run whose passes meet the condition the log is sound (`barrier_of_run`).  A failed heartbeat
takes whatever `CLEANUP` it reads for the cleanup of this owner, and a stop after it verifies
nothing (`sample_unverified_tick`).
-/
import LiveTrader.FunctionalScheduler.Pass

namespace LiveTrader.FunctionalScheduler

open Lib Lib.Py Lib.Runs

variable {env : Env} {setup : Setup} {p : Pass} {gate : Gate} {s : Loop} {now : ℚ} {phase : String} {α : Type}

/-! ## The log -/

/-- A stop was observed, or a tick has failed. -/
def Barred (log : List Event) : Prop := .stopSeen ∈ log ∨ .tickFailed ∈ log

def Event.status? : Event → Option Fields
  | .status report => some report
  | _ => none

def Event.clock? : Event → Option ℚ
  | .clock now => some now
  | _ => none

def Event.beginCleanup? : Event → Option Fields
  | .beginCleanup before _ => some before
  | _ => none

variable (env setup) in
/-- The status is about the cleanup of this session and owner, the token is verified for its revision,
and the revision is above that before the last transition of this run. -/
structure Verified (fresh token : Fields) (early : List Event) (revision : ℤ) : Prop where
  owns : ownsCleanup env setup fresh = true
  read : env.int (fresh.at "revision") = .ok (some revision)
  token : ∃ tokenRevision, env.int ((token.at "revision").orElse (.int (-1))) = .ok tokenRevision ∧
    tokenMatches env setup token revision tokenRevision = true
  above : ∀ before, early.findSome? Event.beginCleanup? = some before →
    ∃ b, env.int (before.at "revision") = .ok (some b) ∧ b < revision

variable (env setup) in
/-- The cleanup was shown, and verified. -/
def Shown (log : List Event) : Prop :=
  ∃ late early fresh token revision, log = late ++ .token token :: .status fresh :: early ∧
    Verified env setup fresh token early revision

variable (env setup) in
/-- What a call owes to the past. -/
def Allowed (past : List Event) : Event → Prop
  | .heartbeat => ¬ Barred past
  | .tick => (Barred past → Shown env setup past) ∧
      (∃ report, past.findSome? Event.status? = some report ∧
        phaseOf env report ∉ ["FINAL_RESET", "FINALIZED", "FAILED"]) ∧
      ∃ now, past.findSome? Event.clock? = some now ∧ now < setup.cleanupDeadlineEpoch
  | .prove _ | .finalize => Barred past → Shown env setup past
  | .returned ok _ => ok = true →
      (∃ report, .status report ∈ past ∧ phaseOf env report = "FINALIZED") ∨ .finalized ∈ past
  | _ => True

variable (env setup) in
/-- Every call is allowed by its past. -/
def Sound : List Event → Prop
  | [] => True
  | e :: past => Allowed env setup past e ∧ Sound past

/-! ## The condition -/

/-- The tick fails, and not for the market data. -/
def Pass.tickFails (p : Pass) : Bool :=
  match p.tick with
  | .error e => !e.transientMarketData
  | .ok _ => false

variable (setup) in
/-- A cleanup is to be latched. -/
def Barring (gate : Gate) : Prop :=
  (stopRequested setup gate.iterations = true ∨ gate.cleanupBarrierReason ≠ "") ∧ gate.operatorCleanupLatched = false

variable (env setup) in
/-- A cleanup that is to be latched can be verified. -/
structure Verifiable (p : Pass) (status : Fields) (log : List Event) : Prop where
  verifier : setup.hasVerifier = true
  /-- A cleanup is begun after a status with a revision. -/
  begin : phaseOf env status ≠ "CLEANUP" → env.int (status.at "revision") ≠ .ok none
  /-- A cleanup that an earlier pass has begun shows a revision above that before it. -/
  retry : phaseOf env status = "CLEANUP" → ∀ before fresh, log.findSome? Event.beginCleanup? = some before →
    p.verifyStatus = .ok fresh → ∀ revision, env.int (fresh.at "revision") = .ok (some revision) →
      ∃ b, env.int (before.at "revision") = .ok (some b) ∧ b < revision

/-- The gate of the next pass. -/
abbrev Gate.next (gate : Gate) : Gate := { gate with iterations := gate.iterations + 1 }

variable (env setup) in
/-- The passes that keep the barrier. -/
structure Meets (s : Loop) (p : Pass) : Prop where
  verifiable : ∀ status, p.status = .ok status → Barring setup s.gate.next → Verifiable env setup p status s.gate.log
  /-- After a heartbeat was lost, no stop is observed. -/
  stop : .heartbeatLost ∈ s.gate.log → stopRequested setup (s.gate.iterations + 1) = false
  /-- After a heartbeat was lost, or where one fails, no tick fails. -/
  tick : .heartbeatLost ∈ s.gate.log ∨ (∃ e, p.heartbeat = .error e) → p.tickFails = false

/-! ## The invariant -/

variable (env setup) in
/-- What holds between the passes. -/
structure Kept (gate : Gate) : Prop where
  sound : Sound env setup gate.log
  latched : gate.operatorCleanupLatched = true →
    gate.nextHeartbeat = none ∧ (Shown env setup gate.log ∨ .heartbeatLost ∈ gate.log)
  lost : .heartbeatLost ∈ gate.log → gate.operatorCleanupLatched = true ∧ ¬ Barred gate.log
  barred : Barred gate.log →
    (gate.nextHeartbeat = none ∧ (Shown env setup gate.log ∨ gate.cleanupBarrierReason ≠ "")) ∨
      stopRequested setup gate.iterations = true

/-- The last clock and the last status of a log. -/
structure Seen (env : Env) (now : ℚ) (phase : String) (log : List Event) : Prop where
  clock : log.findSome? Event.clock? = some now
  status : ∃ report, log.findSome? Event.status? = some report ∧ phaseOf env report = phase

variable (env setup) in
/-- The barrier is passed. -/
structure Ready (p : Pass) (now : ℚ) (phase : String) (gate : Gate) : Prop where
  kept : Kept env setup gate
  shown : Barred gate.log → gate.nextHeartbeat = none ∧ Shown env setup gate.log
  seen : Seen env now phase gate.log
  live : phase ∉ ["FINAL_RESET", "FINALIZED", "FAILED"]
  deadline : now < setup.cleanupDeadlineEpoch
  steady : .heartbeatLost ∈ gate.log → p.tickFails = false
  heartbeat : (∃ e, p.heartbeat = .error e) → p.tickFails = false

/-! ## Notes -/

/-- The event changes nothing about the barrier. -/
def Event.plain : Event → Bool
  | .stopSeen | .tickFailed | .heartbeatLost => false
  | _ => true

theorem Shown.cons {log : List Event} (h : Shown env setup log) (e : Event) : Shown env setup (e :: log) := by
  obtain ⟨late, early, fresh, token, revision, rfl, hverified⟩ := h
  exact ⟨e :: late, early, fresh, token, revision, rfl, hverified⟩

theorem barred_cons {e : Event} {log : List Event} (hplain : e.plain = true) : Barred (e :: log) ↔ Barred log := by
  constructor
  · rintro (h | h)
    · rcases List.mem_cons.mp h with rfl | h
      · exact absurd hplain (by decide)
      · exact .inl h
    · rcases List.mem_cons.mp h with rfl | h
      · exact absurd hplain (by decide)
      · exact .inr h
  · rintro (h | h)
    · exact .inl (List.mem_cons_of_mem _ h)
    · exact .inr (List.mem_cons_of_mem _ h)

theorem lost_cons {e : Event} {log : List Event} (hplain : e.plain = true) :
    .heartbeatLost ∈ e :: log ↔ .heartbeatLost ∈ log := by
  constructor
  · intro h
    rcases List.mem_cons.mp h with rfl | h
    · exact absurd hplain (by decide)
    · exact h
  · exact List.mem_cons_of_mem _

/-- The gate after a note. -/
abbrev Gate.noted (gate : Gate) (e : Event) : Gate := { gate with log := e :: gate.log }

theorem Kept.note (h : Kept env setup gate) {e : Event} (hplain : e.plain = true)
    (hallowed : Allowed env setup gate.log e) : Kept env setup (gate.noted e) where
  sound := ⟨hallowed, h.sound⟩
  latched hlatched := by
    obtain ⟨hnone, hshown⟩ := h.latched hlatched
    exact ⟨hnone, hshown.imp (Shown.cons · e) (List.mem_cons_of_mem _)⟩
  lost hlost := by
    obtain ⟨hlatched, hopen⟩ := h.lost ((lost_cons hplain).mp hlost)
    exact ⟨hlatched, fun hbarred => hopen ((barred_cons hplain).mp hbarred)⟩
  barred hbarred := by
    rcases h.barred ((barred_cons hplain).mp hbarred) with ⟨hnone, hshown⟩ | hstop
    · exact .inl ⟨hnone, hshown.imp_left (Shown.cons · e)⟩
    · exact .inr hstop

theorem Kept.stopHeartbeats (h : Kept env setup gate) : Kept env setup { gate with nextHeartbeat := none } where
  sound := h.sound
  latched hlatched := ⟨rfl, (h.latched hlatched).2⟩
  lost := h.lost
  barred hbarred := by
    rcases h.barred hbarred with ⟨-, hshown⟩ | hstop
    · exact .inl ⟨rfl, hshown⟩
    · exact .inr hstop

theorem stopRequested_succ {iterations : ℕ} (h : stopRequested setup iterations = true) :
    stopRequested setup (iterations + 1) = true := by
  rw [stopRequested, Option.any_eq_true] at h ⊢
  obtain ⟨first, hfirst, hle⟩ := h
  exact ⟨first, hfirst, decide_eq_true (Nat.le_succ_of_le (of_decide_eq_true hle))⟩

theorem Kept.next (h : Kept env setup gate) : Kept env setup gate.next where
  sound := h.sound
  latched := h.latched
  lost := h.lost
  barred hbarred := (h.barred hbarred).imp_right stopRequested_succ

/-! ## Statements -/

section statements

variable {Q : α → Loop → Prop} {R : Loop → Prop}

theorem wp_answer {a : Answer α} (hok : ∀ v, a = .ok v → Q v s) (herror : R s) : (answer a).wp Q R s := by
  cases a with
  | ok v => exact hok v rfl
  | error e => exact herror

theorem readStatus_spec {a : Answer Fields} {Q : Fields → Loop → Prop}
    (hok : ∀ report, a = .ok report → Q report { s with gate := s.gate.noted (.status report) }) (herror : R s) :
    (readStatus a).wp Q R s :=
  Proc.wp_then (wp_answer (Q := fun report s' => s' = s ∧ a = .ok report) (fun _ hv => ⟨rfl, hv⟩) herror)
    (fun report s' hs' => by obtain ⟨rfl, ha⟩ := hs'; exact hok report ha) fun _ hr => hr

/-- A change of the loop, and what follows it. -/
theorem wp_modify_then {f : Loop → Loop} {m : Unit → Prog α} :
    (Proc.modify f >>= m).wp Q R s ↔ (m ()).wp Q R (f s) := Iff.rfl

theorem wp_note_then {e : Event} {m : Unit → Prog α} :
    (note e >>= m).wp Q R s ↔ (m ()).wp Q R { s with gate := s.gate.noted e } := Iff.rfl

/-- The pass ends here, and what holds between the passes holds. -/
theorem finish_spec {ok : Bool} {status : String} (h : Kept env setup s.gate)
    (hok : ok = true → (∃ report, .status report ∈ s.gate.log ∧ phaseOf env report = "FINALIZED") ∨ .finalized ∈ s.gate.log) :
    (finish ok status : Prog α).wp Q (fun s' => Kept env setup s'.gate) s :=
  h.note rfl hok

theorem waitAgain_spec (h : Kept env setup s.gate) :
    (waitAgain setup p : Prog α).wp Q (fun s' => Kept env setup s'.gate) s := by
  have hnoted : Kept env setup (s.gate.noted (.wait setup.marketPollIntervalSeconds)) := h.note rfl trivial
  refine wp_note_then.mpr (Proc.wp_bind.mpr (wp_answer (fun _ _ => ?_) hnoted))
  exact Proc.wp_raise.mpr hnoted

end statements

/-! ## Verification -/

variable (env setup) in
/-- The verification has just read this status and this token. -/
def Fresh (before : Option ℤ) (s s' : Loop) : Prop :=
  ∃ fresh token revision, p.verifyStatus = .ok fresh ∧
    s' = { s with gate := (s.gate.noted (.status fresh)).noted (.token token) } ∧
    ownsCleanup env setup fresh = true ∧ env.int (fresh.at "revision") = .ok (some revision) ∧
    (∃ tokenRevision, env.int ((token.at "revision").orElse (.int (-1))) = .ok tokenRevision ∧
      tokenMatches env setup token revision tokenRevision = true) ∧
    ∀ b, before = some b → b < revision

theorem verifyTransition_spec {fresh : Fields} {revision : ℤ} (transition : Json) (h : Kept env setup s.gate) :
    (verifyTransition env fresh revision transition).wp (fun _ s' => s' = s) (fun s' => Kept env setup s'.gate) s := by
  cases transition with
  | null => exact rfl
  | obj transition =>
    refine Proc.wp_then (Q := fun _ s' => s' = s) (wp_answer (fun _ _ => rfl) h) (fun _ s' hs' => ?_) fun _ hr => hr
    subst hs'
    exact Proc.wp_check (fun _ => rfl) h
  | _ => exact h

theorem verifyToken_spec {revision : ℤ} (hverifier : setup.hasVerifier = true) (h : Kept env setup s.gate) :
    (verifyToken env setup p revision).wp
      (fun _ s' => ∃ token tokenRevision, s' = { s with gate := s.gate.noted (.token token) } ∧
        env.int ((token.at "revision").orElse (.int (-1))) = .ok tokenRevision ∧
        tokenMatches env setup token revision tokenRevision = true)
      (fun s' => Kept env setup s'.gate) s := by
  rw [verifyToken, if_pos hverifier]
  refine Proc.wp_then (Q := fun _ s' => s' = s) (wp_answer (fun _ _ => rfl) h) (fun token s' hs' => ?_) fun _ hr => hr
  subst hs'
  have hnoted : Kept env setup (s'.gate.noted (.token token)) := h.note rfl trivial
  refine wp_note_then.mpr (Proc.wp_bind.mpr (wp_answer (fun tokenRevision hread => ?_) hnoted))
  exact Proc.wp_check (fun hmatches => ⟨token, tokenRevision, rfl, hread, hmatches⟩) hnoted

theorem verifiedCleanupPhase_spec (before : Option ℤ) (transition : Json) (hverifier : setup.hasVerifier = true)
    (h : Kept env setup s.gate) : (verifiedCleanupPhase env setup p before transition).wp
      (fun _ s' => Fresh (p := p) env setup before s s') (fun s' => Kept env setup s'.gate) s := by
  refine Proc.wp_bind.mpr (readStatus_spec (fun fresh hfresh => ?_) h)
  have hnoted : Kept env setup (s.gate.noted (.status fresh)) := h.note rfl trivial
  refine Proc.wp_bind.mpr (wp_answer (fun revision hrevision => ?_) hnoted)
  refine Proc.wp_bind.mpr (Proc.wp_check (fun hchecked => ?_) hnoted)
  obtain ⟨howns, hpositive, habove⟩ := hchecked
  refine Proc.wp_then (verifyTransition_spec transition hnoted) (fun _ s' hs' => ?_) fun _ hr => hr
  subst hs'
  refine Proc.wp_mono (verifyToken_spec hverifier hnoted) (fun _ s' hs' => ?_) fun _ hr => hr
  obtain ⟨token, tokenRevision, rfl, hread, hmatches⟩ := hs'
  cases revision with
  | none => exact absurd hpositive (by decide)
  | some revision =>
    refine ⟨fresh, token, revision, hfresh, rfl, howns, hrevision, ⟨tokenRevision, hread, hmatches⟩, fun b hb => ?_⟩
    subst hb
    exact of_decide_eq_true habove

/-- However the verification ends, it only reads. -/
theorem verifiedCleanupPhase_kept (before : Option ℤ) (transition : Json) (h : Kept env setup s.gate) :
    (verifiedCleanupPhase env setup p before transition).wp (fun _ s' => Kept env setup s'.gate)
      (fun s' => Kept env setup s'.gate) s := by
  refine Proc.wp_bind.mpr (readStatus_spec (fun fresh _ => ?_) h)
  have hnoted : Kept env setup (s.gate.noted (.status fresh)) := h.note rfl trivial
  refine Proc.wp_bind.mpr (wp_answer (fun revision _ => Proc.wp_bind.mpr (Proc.wp_check (fun _ => ?_) hnoted)) hnoted)
  refine Proc.wp_then (verifyTransition_spec transition hnoted) (fun _ s' hs' => ?_) fun _ hr => hr
  subst hs'
  refine Proc.wp_ite (fun hverifier => ?_) fun _ => Proc.wp_check (fun _ => hnoted) hnoted
  refine Proc.wp_bind.mpr (wp_answer (fun token _ => wp_note_then.mpr ?_) hnoted)
  have htoken : Kept env setup ((s.gate.noted (.status fresh)).noted (.token token)) := hnoted.note rfl trivial
  exact Proc.wp_bind.mpr (wp_answer (fun _ _ => Proc.wp_check (fun _ => htoken) htoken) htoken)

/-! ## The barrier -/

theorem phaseOf_of_owns {fresh : Fields} (h : ownsCleanup env setup fresh = true) : phaseOf env fresh = "CLEANUP" := by
  rw [ownsCleanup, Bool.and_eq_true, Bool.and_eq_true, decide_eq_true_eq] at h
  exact h.1.1

variable (env setup) in
/-- The cleanup is verified in this pass. -/
structure Latching (now : ℚ) (gate : Gate) : Prop where
  kept : Kept env setup gate
  shown : Shown env setup gate.log
  seen : Seen env now "CLEANUP" gate.log
  unlost : .heartbeatLost ∉ gate.log

theorem Fresh.latching {before : Option ℤ} {s' : Loop} (h : Fresh (p := p) env setup before s s')
    (hkept : Kept env setup s.gate) (hunlost : .heartbeatLost ∉ s.gate.log)
    (hclock : s.gate.log.findSome? Event.clock? = some now)
    (habove : ∀ fresh revision, p.verifyStatus = .ok fresh → env.int (fresh.at "revision") = .ok (some revision) →
      (∀ b, before = some b → b < revision) →
      ∀ report, s.gate.log.findSome? Event.beginCleanup? = some report →
        ∃ b, env.int (report.at "revision") = .ok (some b) ∧ b < revision) :
    Latching env setup now s'.gate := by
  obtain ⟨fresh, token, revision, hfresh, rfl, howns, hread, htoken, hbefore⟩ := h
  have hverified : Verified env setup fresh token s.gate.log revision :=
    ⟨howns, hread, htoken, habove fresh revision hfresh hread hbefore⟩
  have hnoted : Kept env setup (s.gate.noted (.status fresh)) := hkept.note rfl trivial
  refine ⟨hnoted.note rfl trivial, ⟨[], s.gate.log, fresh, token, revision, rfl, hverified⟩,
    ⟨hclock, fresh, rfl, phaseOf_of_owns howns⟩, fun hlost => ?_⟩
  exact hunlost ((lost_cons rfl).mp ((lost_cons rfl).mp hlost))

variable (env setup) in
/-- A pass before its barrier. -/
structure Asking (p : Pass) (now : ℚ) (status : Fields) (gate : Gate) : Prop where
  kept : Kept env setup gate
  clock : gate.log.findSome? Event.clock? = some now
  shows : gate.log.findSome? Event.status? = some status
  verifiable : Barring setup gate → Verifiable env setup p status gate.log
  stop : .heartbeatLost ∈ gate.log → stopRequested setup gate.iterations = false
  tick : .heartbeatLost ∈ gate.log ∨ (∃ e, p.heartbeat = .error e) → p.tickFails = false

theorem attemptCleanup_spec {status : Fields} (h : Asking env setup p now status s.gate)
    (hbarring : Barring setup s.gate) : (attemptCleanup env setup p s.gate (phaseOf env status) status).wp
      (fun result s' => Kept env setup s'.gate ∧ ∀ u, result = .ok u → Latching env setup now s'.gate)
      (fun s' => Kept env setup s'.gate) s := by
  have hunlost : .heartbeatLost ∉ s.gate.log := fun hlost => by
    have hunlatched := hbarring.2
    rw [(h.kept.lost hlost).1] at hunlatched
    cases hunlatched
  obtain ⟨hverifier, hbegin, hretry⟩ := h.verifiable hbarring
  refine Proc.wp_ite (fun hcleanup => ?_) fun hcleanup => ?_
  · -- an earlier pass has begun it, or the manager has
    refine Proc.wp_outcome (J := fun s' => Kept env setup s'.gate) ?_ (fun _ _ hs' => ⟨hs', fun _ hu => by cases hu⟩)
      fun _ hs' => hs'
    refine Proc.wp_mono (verifiedCleanupPhase_spec none .null hverifier h.kept) (fun _ s' hs' => ?_) fun _ hr => hr
    have hlatching : Latching env setup now s'.gate := hs'.latching h.kept hunlost h.clock
      fun fresh revision hfresh hread _ report hreport => hretry hcleanup report fresh hreport hfresh revision hread
    exact ⟨hlatching.kept, fun _ _ => hlatching⟩
  · refine Proc.wp_bind.mpr (wp_answer (fun before hb => ?_) h.kept)
    obtain ⟨b, rfl⟩ := Option.ne_none_iff_exists'.mp fun hnone => hbegin hcleanup (hnone ▸ hb)
    have hnoted : ∀ reason, Kept env setup (s.gate.noted (.beginCleanup status reason)) := fun _ => h.kept.note rfl trivial
    refine wp_note_then.mpr (Proc.wp_outcome (J := fun s' => Kept env setup s'.gate) ?_
      (fun _ _ hs' => ⟨hs', fun _ hu => by cases hu⟩) fun _ hs' => hs')
    refine Proc.wp_mono (verifiedCleanupPhase_spec (some b) _ hverifier (hnoted _)) (fun _ s' hs' => ?_) fun _ hr => hr
    have hlatching : Latching env setup now s'.gate := hs'.latching (hnoted _) (fun hlost => hunlost ((lost_cons rfl).mp hlost)) h.clock
      fun fresh revision _ _ habove report hreport => by
        obtain rfl := Option.some.inj hreport
        exact ⟨b, hb, habove b rfl⟩
    exact ⟨hlatching.kept, fun _ _ => hlatching⟩

theorem Latching.ready (h : Latching env setup now gate) (hdeadline : now < setup.cleanupDeadlineEpoch)
    (htick : (∃ e, p.heartbeat = .error e) → p.tickFails = false) :
    Ready env setup p now "CLEANUP"
      { gate with operatorCleanupLatched := true, cleanupBarrierReason := "", nextHeartbeat := none } where
  kept := {
    sound := h.kept.sound
    latched := fun _ => ⟨rfl, .inl h.shown⟩
    lost := fun hlost => absurd hlost h.unlost
    barred := fun _ => .inl ⟨rfl, .inl h.shown⟩ }
  shown _ := ⟨rfl, h.shown⟩
  seen := h.seen
  live := by decide
  deadline := hdeadline
  steady hlost := absurd hlost h.unlost
  heartbeat := htick

theorem latchCleanup_spec {status : Fields} (h : Asking env setup p now status s.gate)
    (hdeadline : now < setup.cleanupDeadlineEpoch)
    (hlive : phaseOf env status ∉ ["FINAL_RESET", "FINALIZED", "FAILED"]) :
    (latchCleanup env setup p s.gate now (phaseOf env status) status).wp
      (fun phase s' => Ready env setup p now phase s'.gate) (fun s' => Kept env setup s'.gate) s := by
  refine Proc.wp_ite (fun hcond => ?_) fun hcond => ?_
  · refine Proc.wp_then (attemptCleanup_spec h hcond) (fun result s' hs' => ?_) fun _ hr => hr
    obtain ⟨hkept, hlatching⟩ := hs'
    cases result with
    | error e =>
      refine wp_modify_then.mpr (wp_modify_then.mpr (waitAgain_spec ?_))
      exact hkept.stopHeartbeats
    | ok u =>
      refine wp_modify_then.mpr (wp_modify_then.mpr (Proc.wp_pure.mpr ?_))
      exact (hlatching u rfl).ready hdeadline fun herror => h.tick (.inr herror)
  · refine ⟨h.kept, fun hbarred => ?_, ⟨h.clock, status, h.shows, rfl⟩, hlive, hdeadline, fun hlost => h.tick (.inl hlost),
      fun herror => h.tick (.inr herror)⟩
    cases hlatched : s.gate.operatorCleanupLatched with
    | true =>
      obtain ⟨hnone, hshown | hlost⟩ := h.kept.latched hlatched
      · exact ⟨hnone, hshown⟩
      · exact absurd hbarred (h.kept.lost hlost).2
    | false =>
      -- neither a stop nor a failed tick is left to be answered
      have hno : ¬ (stopRequested setup s.gate.iterations = true ∨ s.gate.cleanupBarrierReason ≠ "") :=
        fun hor => hcond ⟨hor, hlatched⟩
      rcases h.kept.barred hbarred with ⟨hnone, hshown⟩ | hstop
      · exact ⟨hnone, hshown.resolve_right fun hreason => hno (.inr hreason)⟩
      · exact absurd (.inl hstop) hno

/-! ## Heartbeats -/

theorem heartbeatFailed_spec {e : Raised} (h : Ready env setup p now phase s.gate) (hopen : ¬ Barred s.gate.log)
    (herror : p.heartbeat = .error e) : (heartbeatFailed env p now e).wp
      (fun phase' s' => Ready env setup p now phase' s'.gate) (fun s' => Kept env setup s'.gate) s := by
  refine wp_modify_then.mpr (Proc.wp_bind.mpr (readStatus_spec (fun report _ => ?_) h.kept))
  have hnoted : Kept env setup (s.gate.noted (.status report)) := h.kept.note rfl trivial
  refine Proc.wp_ite (fun _ => finish_spec hnoted fun hno => absurd hno Bool.false_ne_true) fun hphase => ?_
  refine wp_modify_then.mpr (wp_modify_then.mpr (wp_modify_then.mpr (Proc.wp_pure.mpr ?_)))
  have hopen' : ¬ Barred (.heartbeatLost :: .status report :: s.gate.log) := by
    rintro (hmem | hmem)
    · rcases List.mem_cons.mp hmem with heq | hmem
      · cases heq
      · exact hopen ((barred_cons rfl).mp (.inl hmem))
    · rcases List.mem_cons.mp hmem with heq | hmem
      · cases heq
      · exact hopen ((barred_cons rfl).mp (.inr hmem))
  refine ⟨⟨⟨trivial, hnoted.sound⟩, fun _ => ⟨rfl, .inr List.mem_cons_self⟩, fun _ => ⟨rfl, hopen'⟩,
    fun hbarred => absurd hbarred hopen'⟩, fun hbarred => absurd hbarred hopen',
    ⟨h.seen.clock, report, rfl, Classical.not_not.mp hphase⟩, by decide, h.deadline, fun _ => h.heartbeat ⟨e, herror⟩,
    h.heartbeat⟩

theorem heartbeat_spec (h : Ready env setup p now phase s.gate) :
    (heartbeat env setup p s.gate now phase).wp
      (fun phase' s' => Ready env setup p now phase' s'.gate) (fun s' => Kept env setup s'.gate) s := by
  refine Proc.wp_ite (fun hdue => ?_) fun _ => h
  obtain ⟨-, -, hdue⟩ := hdue
  have hsome : s.gate.nextHeartbeat ≠ none := fun hnone => by
    rw [heartbeatDue, hnone] at hdue
    cases hdue
  have hopen : ¬ Barred s.gate.log := fun hbarred => hsome (h.shown hbarred).1
  have hopen' : ¬ Barred (s.gate.noted .heartbeat).log := fun hbarred => hopen ((barred_cons rfl).mp hbarred)
  have hnoted : Ready env setup p now phase (s.gate.noted .heartbeat) :=
    ⟨h.kept.note rfl hopen, fun hbarred => absurd hbarred hopen', ⟨h.seen.clock, h.seen.status⟩, h.live, h.deadline,
      fun hlost => h.steady ((lost_cons rfl).mp hlost), h.heartbeat⟩
  refine wp_note_then.mpr ?_
  cases hheartbeat : p.heartbeat with
  | error e => exact heartbeatFailed_spec hnoted hopen' hheartbeat
  | ok u =>
    refine wp_modify_then.mpr (Proc.wp_pure.mpr ?_)
    exact ⟨⟨hnoted.kept.sound, fun hlatched => absurd (hnoted.kept.latched hlatched).1 hsome,
      hnoted.kept.lost, fun hbarred => absurd hbarred hopen'⟩, fun hbarred => absurd hbarred hopen', hnoted.seen,
      h.live, h.deadline, hnoted.steady, h.heartbeat⟩

/-! ## Evaluations -/

variable (env setup) in
/-- What is evaluated after the barrier. -/
structure Clear (gate : Gate) : Prop where
  kept : Kept env setup gate
  shown : Barred gate.log → Shown env setup gate.log

theorem Clear.note (h : Clear env setup gate) {e : Event} (hplain : e.plain = true)
    (hallowed : Allowed env setup gate.log e) : Clear env setup (gate.noted e) :=
  ⟨h.kept.note hplain hallowed, fun hbarred => (h.shown ((barred_cons hplain).mp hbarred)).cons e⟩

theorem Ready.note (h : Ready env setup p now phase gate) {e : Event} (hplain : e.plain = true)
    (hallowed : Allowed env setup gate.log e) (hclock : e.clock? = none) (hstatus : e.status? = none) :
    Ready env setup p now phase (gate.noted e) where
  kept := h.kept.note hplain hallowed
  shown hbarred := (h.shown ((barred_cons hplain).mp hbarred)).imp_right (·.cons e)
  seen := by
    obtain ⟨report, hreport, hphase⟩ := h.seen.status
    exact ⟨by rw [List.findSome?_cons, hclock]; exact h.seen.clock, report,
      by rw [List.findSome?_cons, hstatus]; exact hreport, hphase⟩
  live := h.live
  deadline := h.deadline
  steady hlost := h.steady ((lost_cons hplain).mp hlost)
  heartbeat := h.heartbeat

theorem failAmbiguous_spec {Q : α → Loop → Prop} (h : Kept env setup s.gate) :
    (failAmbiguous setup p : Prog α).wp Q (fun s' => Kept env setup s'.gate) s := by
  refine Proc.wp_ite (fun _ => ?_) fun _ => finish_spec h fun hno => absurd hno Bool.false_ne_true
  exact Proc.wp_bind.mpr (wp_answer (fun _ _ => finish_spec h fun hno => absurd hno Bool.false_ne_true) h)

theorem proveAmbiguous_spec (h : Ready env setup p now phase s.gate) : (proveAmbiguous setup p).wp
    (fun _ s' => Ready env setup p now phase s'.gate) (fun s' => Kept env setup s'.gate) s := by
  refine Proc.wp_ite (fun _ => ?_) fun _ => h
  cases p.nextDueAmbiguousClaim with
  | error e => exact failAmbiguous_spec h.kept
  | ok due =>
    cases due with
    | none => exact h
    | some claimId =>
      have hnoted : Ready env setup p now phase (s.gate.noted (.prove claimId)) :=
        h.note rfl (fun hbarred => (h.shown hbarred).2) rfl rfl
      refine wp_note_then.mpr ?_
      cases p.proveAmbiguousNotAccepted with
      | error e => exact failAmbiguous_spec hnoted.kept
      | ok proof => exact hnoted

theorem tickFailed_spec {Q : α → Loop → Prop} {e : Raised} (h : Clear env setup s.gate) (hfails : p.tick = .error e)
    (hsteady : .heartbeatLost ∈ s.gate.log → p.tickFails = false) :
    (tickFailed setup p now e : Prog α).wp Q (fun s' => Kept env setup s'.gate) s := by
  refine Proc.wp_ite (fun _ => h.kept) fun hbarrier => ?_
  have hunlost : .heartbeatLost ∉ s.gate.log := fun hlost => by
    have hno := hsteady hlost
    rw [Pass.tickFails, hfails] at hno
    dsimp only at hno
    rw [Bool.not_eq_false'] at hno
    exact hbarrier hno
  have hunlost' : .heartbeatLost ∉ .tickFailed :: s.gate.log := fun hlost => by
    rcases List.mem_cons.mp hlost with heq | hlost
    · cases heq
    · exact hunlost hlost
  have hreason : "managed scheduler tick/evaluator failed:" ++ e.name ≠ "" := fun heq => by
    have hlength := congrArg String.length heq
    rw [String.length_append] at hlength
    exact absurd hlength (by simp)
  refine wp_note_then.mpr (wp_modify_then.mpr (wp_modify_then.mpr (wp_modify_then.mpr (waitAgain_spec ?_))))
  exact ⟨⟨trivial, h.kept.sound⟩, fun hlatched => ⟨rfl, (h.kept.latched hlatched).2.imp (Shown.cons · _)
    (List.mem_cons_of_mem _)⟩, fun hlost => absurd hlost hunlost', fun _ => .inl ⟨rfl, .inr hreason⟩⟩

theorem finalizeSession_spec (h : Clear env setup s.gate) : (finalizeSession env p phase).wp
    (fun _ s' => Kept env setup s'.gate) (fun s' => Kept env setup s'.gate) s := by
  have hnoted : Kept env setup (s.gate.noted .finalize) := h.kept.note rfl h.shown
  refine wp_note_then.mpr ?_
  cases p.finalize with
  | error e =>
    refine Proc.wp_bind.mpr (readStatus_spec (fun report _ => ?_) hnoted)
    have hread : Kept env setup ((s.gate.noted .finalize).noted (.status report)) := hnoted.note rfl trivial
    exact Proc.wp_ite (fun _ => hread) fun _ => hread
  | ok final =>
    cases final with
    | none => exact hnoted
    | some final =>
      refine wp_note_then.mpr (finish_spec ?_ fun _ => .inr List.mem_cons_self)
      exact hnoted.note rfl trivial

theorem tick_spec (h : Ready env setup p now phase s.gate) : (tick env setup p now).wp
    (fun _ s' => Kept env setup s'.gate) (fun s' => Kept env setup s'.gate) s := by
  obtain ⟨report, hreport, hphase⟩ := h.seen.status
  have hallowed : Allowed env setup s.gate.log .tick :=
    ⟨fun hbarred => (h.shown hbarred).2, ⟨report, hreport, hphase ▸ h.live⟩, now, h.seen.clock, h.deadline⟩
  have hclear : Clear env setup s.gate := ⟨h.kept, fun hbarred => (h.shown hbarred).2⟩
  have hnoted : Clear env setup (s.gate.noted .tick) := hclear.note rfl hallowed
  refine wp_note_then.mpr ?_
  cases htick : p.tick with
  | error e => exact tickFailed_spec hnoted htick fun hlost => h.steady ((lost_cons rfl).mp hlost)
  | ok result =>
    refine wp_modify_then.mpr (wp_modify_then.mpr (Proc.wp_bind.mpr (readStatus_spec (fun status _ => ?_) hnoted.kept)))
    have hread : Clear env setup ((s.gate.noted .tick).noted (.status status)) := hnoted.note rfl trivial
    dsimp only
    split
    · exact finalizeSession_spec hread
    · exact hread.kept

theorem poll_spec {nextMarketPoll : ℚ} (h : Ready env setup p now phase s.gate) :
    (poll env setup p now nextMarketPoll phase).wp (fun _ s' => Kept env setup s'.gate)
      (fun s' => Kept env setup s'.gate) s := by
  refine Proc.wp_ite (fun _ => ?_) fun _ => h.kept
  refine Proc.wp_then (Q := fun _ s' => Ready env setup p now phase s'.gate) ?_ (fun _ _ hs' => tick_spec hs') fun _ hr => hr
  exact Proc.wp_ite (fun _ => proveAmbiguous_spec h) fun _ => h

theorem sleepUntilDue_spec (h : Kept env setup s.gate) (phase : String) : (sleepUntilDue p phase).wp
    (fun _ s' => Kept env setup s'.gate) (fun s' => Kept env setup s'.gate) s := by
  refine Proc.wp_bind.mpr (Proc.wp_read.mpr (Proc.wp_bind.mpr (wp_answer (fun late _ => ?_) h)))
  have hnoted : Kept env setup
      (s.gate.noted (.wait (max (1 / 1000) (min 20 (wakeAt s phase - late))))) := h.note rfl trivial
  exact wp_note_then.mpr (wp_answer (fun _ _ => hnoted) hnoted)

/-! ## A pass -/

theorem pollAfterExpiry_spec (h : Ready env setup p now phase s.gate) : (pollAfterExpiry setup now).wp
    (fun _ s' => Ready env setup p now phase s'.gate) (fun s' => Kept env setup s'.gate) s :=
  Proc.wp_ite (fun _ => h) fun _ => h

theorem askStop_spec {status : Fields} (h : Asking env setup p now status s.gate) : (askStop setup s.gate).wp
    (fun _ s' => Asking env setup p now status s'.gate) (fun s' => Kept env setup s'.gate) s := by
  refine Proc.wp_ite (fun hstop => ?_) fun _ => h
  have hunlost : .heartbeatLost ∉ s.gate.log := fun hlost => by
    rw [h.stop hlost] at hstop
    cases hstop
  have hunlost' : .heartbeatLost ∉ .stopSeen :: s.gate.log := fun hlost => by
    rcases List.mem_cons.mp hlost with heq | hlost
    · cases heq
    · exact hunlost hlost
  refine ⟨⟨⟨trivial, h.kept.sound⟩, fun hlatched => ?_, fun hlost => absurd hlost hunlost', fun _ => .inr hstop⟩,
    h.clock, h.shows, fun hbarring => ⟨(h.verifiable hbarring).verifier, (h.verifiable hbarring).begin,
      (h.verifiable hbarring).retry⟩, fun hlost => absurd hlost hunlost', fun hor => ?_⟩
  · obtain ⟨hnone, hshown⟩ := h.kept.latched hlatched
    exact ⟨hnone, hshown.imp (Shown.cons · _) (List.mem_cons_of_mem _)⟩
  · exact h.tick (.inr (hor.resolve_left hunlost'))

theorem drive_spec {status : Fields} (h : Asking env setup p now status s.gate)
    (hdeadline : now < setup.cleanupDeadlineEpoch)
    (hlive : phaseOf env status ∉ ["FINAL_RESET", "FINALIZED", "FAILED"]) :
    (drive env setup p now status).wp (fun _ s' => Kept env setup s'.gate) (fun s' => Kept env setup s'.gate) s := by
  refine Proc.wp_bind.mpr (Proc.wp_read.mpr ?_)
  refine Proc.wp_then (askStop_spec h) (fun _ s₁ hasking => ?_) fun _ hr => hr
  refine Proc.wp_bind.mpr (Proc.wp_read.mpr ?_)
  refine Proc.wp_then (latchCleanup_spec hasking hdeadline hlive) (fun phase s₂ hready => ?_) fun _ hr => hr
  refine Proc.wp_then (pollAfterExpiry_spec hready) (fun _ s₃ hready => ?_) fun _ hr => hr
  refine Proc.wp_bind.mpr (Proc.wp_read.mpr ?_)
  refine Proc.wp_then (heartbeat_spec hready) (fun phase s₄ hready => ?_) fun _ hr => hr
  refine Proc.wp_bind.mpr (Proc.wp_read.mpr ?_)
  refine Proc.wp_then (poll_spec hready) (fun phase s₅ hkept => ?_) fun _ hr => hr
  exact sleepUntilDue_spec hkept phase

theorem resumeFinalReset_spec {Q : Unit → Loop → Prop} (h : Kept env setup s.gate) : (resumeFinalReset env setup p).wp
    Q (fun s' => Kept env setup s'.gate) s := by
  refine Proc.wp_ite (fun _ => ?_) fun _ => finish_spec h fun hno => absurd hno Bool.false_ne_true
  cases p.resumeFinalReset with
  | error e => exact wp_modify_then.mpr (waitAgain_spec h)
  | ok resumed =>
    refine Proc.wp_bind.mpr (readStatus_spec (fun report _ => ?_) h)
    have hnoted : Kept env setup (s.gate.noted (.status report)) := h.note rfl trivial
    refine Proc.wp_ite (fun _ => wp_modify_then.mpr (waitAgain_spec hnoted)) fun hphase => ?_
    exact finish_spec hnoted fun _ => .inl ⟨report, List.mem_cons_self, Classical.not_not.mp hphase⟩

/-- The pass goes on only in a phase that is not terminal. -/
theorem leaveIfTerminal_spec {status : Fields} (h : Kept env setup s.gate) (hstatus : .status status ∈ s.gate.log) :
    (leaveIfTerminal env setup p (phaseOf env status)).wp
      (fun _ s' => s' = s ∧ phaseOf env status ∉ ["FINAL_RESET", "FINALIZED", "FAILED"])
      (fun s' => Kept env setup s'.gate) s := by
  refine Proc.wp_ite (fun _ => ?_) fun hnot => Proc.wp_ite (fun _ => resumeFinalReset_spec h) fun hreset => ⟨rfl, ?_⟩
  · exact finish_spec h fun hok => .inl ⟨status, hstatus, of_decide_eq_true hok⟩
  · intro hmem
    rcases List.mem_cons.mp hmem with heq | hmem
    · exact hreset heq
    · rcases List.mem_cons.mp hmem with heq | hmem
      · exact hnot (.inl heq)
      · exact hnot (.inr (List.mem_singleton.mp hmem))

theorem leaveAfterDeadline_spec (h : Kept env setup s.gate) : (leaveAfterDeadline setup p now).wp
    (fun _ s' => s' = s ∧ now < setup.cleanupDeadlineEpoch) (fun s' => Kept env setup s'.gate) s := by
  refine Proc.wp_ite (fun _ => ?_) fun hearly => ⟨rfl, not_le.mp hearly⟩
  exact Proc.wp_bind.mpr (wp_answer (fun _ _ => finish_spec h fun hno => absurd hno Bool.false_ne_true) h)

theorem boundIterations_spec (h : Kept env setup s.gate) :
    (boundIterations env setup p s.gate).wp (fun _ s' => s' = s) (fun s' => Kept env setup s'.gate) s := by
  have hfinish : ∀ {s' : Loop} {status : String} {Q : Unit → Loop → Prop}, Kept env setup s'.gate →
      (finish false status : Prog Unit).wp Q (fun s' => Kept env setup s'.gate) s' :=
    fun hkept => finish_spec hkept fun hno => absurd hno Bool.false_ne_true
  refine Proc.wp_ite (fun _ => ?_) fun _ => rfl
  refine Proc.wp_bind.mpr (readStatus_spec (fun before _ => ?_) h)
  have hread : Kept env setup (s.gate.noted (.status before)) := h.note rfl trivial
  refine Proc.wp_bind.mpr (wp_answer (fun beforeRevision _ => ?_) hread)
  have hbegun : Kept env setup ((s.gate.noted (.status before)).noted
      (.beginCleanup before "test iteration bound reached")) := hread.note rfl trivial
  refine wp_note_then.mpr ?_
  cases p.beginCleanup with
  | error e => exact hfinish hbegun
  | ok transition =>
    refine Proc.wp_then (Q := fun _ s' => Kept env setup s'.gate) (Proc.wp_outcome (J := fun s' => Kept env setup s'.gate)
      ?_ (fun _ _ hs' => hs') fun _ hs' => hs') (fun verified s' hs' => ?_) fun _ hr => hr
    · exact verifiedCleanupPhase_kept beforeRevision transition hbegun
    · cases verified with
      | error e => exact hfinish hs'
      | ok u => exact hfinish hs'

/-- A pass that meets the condition keeps the log sound. -/
theorem pass_spec (h : Kept env setup s.gate) (hmeets : Meets env setup s p) : (pass env setup p).wp
    (fun _ s' => Kept env setup s'.gate) (fun s' => Kept env setup s'.gate) s := by
  refine wp_modify_then.mpr (Proc.wp_bind.mpr (Proc.wp_read.mpr ?_))
  have hnext := h.next
  refine Proc.wp_then (boundIterations_spec (s := { s with gate := s.gate.next }) hnext) (fun _ s₁ hs₁ => ?_) fun _ hr => hr
  subst hs₁
  refine Proc.wp_bind.mpr (wp_answer (fun now _ => ?_) hnext)
  have hclock : Kept env setup (s.gate.next.noted (.clock now)) :=
    hnext.note rfl trivial
  refine wp_note_then.mpr (Proc.wp_bind.mpr (readStatus_spec (fun status hstatus => ?_) hclock))
  have hread : Kept env setup ((s.gate.next.noted (.clock now)).noted
      (.status status)) := hclock.note rfl trivial
  refine Proc.wp_then (leaveIfTerminal_spec hread List.mem_cons_self) (fun _ s₂ hs₂ => ?_) fun _ hr => hr
  obtain ⟨rfl, hlive⟩ := hs₂
  refine Proc.wp_then (leaveAfterDeadline_spec hread) (fun _ s₃ hs₃ => ?_) fun _ hr => hr
  obtain ⟨rfl, hdeadline⟩ := hs₃
  have hlost : .heartbeatLost ∈ .status status :: .clock now :: s.gate.log → .heartbeatLost ∈ s.gate.log :=
    fun hmem => (lost_cons rfl).mp ((lost_cons rfl).mp hmem)
  have hverifiable : Barring setup s.gate.next → Verifiable env setup p status (.status status :: .clock now :: s.gate.log) :=
    fun hbarring =>
      let h := hmeets.verifiable status hstatus hbarring
      ⟨h.verifier, h.begin, h.retry⟩
  refine drive_spec ⟨hread, rfl, rfl, hverifiable,
    fun hmem => hmeets.stop (hlost hmem), fun hor => hmeets.tick (hor.imp_left hlost)⟩ hdeadline hlive

/-! ## Runs -/

theorem after_gate (x : Except Exit Unit × Loop) : (Loop.after x).gate = x.2.gate := by
  obtain ⟨answer, s⟩ := x
  cases answer with
  | ok u => rfl
  | error e => cases e <;> rfl

theorem Kept.step {s' : Loop} (h : Kept env setup s.gate) (hmeets : Meets env setup s p)
    (hstep : step env setup s p = some s') : Kept env setup s'.gate := by
  rw [FunctionalScheduler.step] at hstep
  obtain ⟨-, hstep⟩ := Option.ite_none_left_eq_some.mp hstep
  obtain rfl := Option.some.inj hstep
  rw [after_gate]
  exact Proc.of_wp (pass_spec h hmeets)

theorem kept_start (nextHeartbeat nextMarketPoll : ℚ) :
    Kept env setup (Loop.start nextHeartbeat nextMarketPoll).gate where
  sound := trivial
  latched hno := absurd hno Bool.false_ne_true
  lost hno := absurd hno List.not_mem_nil
  barred hno := by
    rcases hno with hno | hno
    · exact absurd hno List.not_mem_nil
    · exact absurd hno List.not_mem_nil

/-- **The barrier.**  In every run whose passes meet the condition, whatever the manager answers and
whenever the stop comes, every call is allowed by what was called and answered before it. -/
theorem barrier_of_run {nextHeartbeat nextMarketPoll : ℚ} {passes : List Pass}
    (h : Run (step env setup) (Meets env setup) (Loop.start nextHeartbeat nextMarketPoll) passes s) :
    Sound env setup s.gate.log := by
  have hkept : Kept env setup s.gate := h.invariant (P := fun s => Kept env setup s.gate)
    (fun hmeets hstep hs => hs.step hmeets hstep) (kept_start nextHeartbeat nextMarketPoll)
  exact hkept.sound

/-! ## Runs that are evaluated -/

def Env.sample : Env where
  text _ := ""
  int
    | .int n => .ok (some n)
    | _ => .ok none

/-- The stop event is set before the second pass. -/
def Setup.sample : Setup where
  sessionId := "s"
  ownerId := "o"
  expiresEpoch := 100
  cleanupDeadlineEpoch := 200
  heartbeatIntervalSeconds := 20
  marketPollIntervalSeconds := 5
  maxIterations := none
  allowMockLifecycle := false
  hasVerifier := true
  hasResume := true
  hasProver := false
  hasFailer := false
  stopFrom := some 2

def sampleReport (phase sessionId : String) (revision : ℤ) : Fields :=
  [("phase", .str phase), ("revision", .int revision), ("sessionId", .str sessionId), ("session_id", .str sessionId),
    ("ownerId", .str "o"), ("owner_id", .str "o")]

/-- The session is active when the pass starts, and in cleanup when it ends. -/
def Pass.sample (now : ℚ) (status : Fields) : Pass where
  clock := .ok now
  status := .ok status
  resumeFinalReset := .ok []
  resumedStatus := .ok status
  failCleanupDeadline := .ok ()
  beginCleanup := .ok .null
  verifyStatus := .ok (sampleReport "CLEANUP" "s" 2)
  verifyHandle := .ok (sampleReport "CLEANUP" "s" 2)
  heartbeat := .ok ()
  heartbeatStatus := .ok (sampleReport "CLEANUP" "other" 7)
  nextDueAmbiguousClaim := .ok none
  proveAmbiguousNotAccepted := .ok []
  failAmbiguousReconciliation := .ok ()
  tick := .ok []
  tickStatus := .ok status
  finalize := .ok (some .null)
  finalizeStatus := .ok status
  lateClock := .ok now
  wait := .ok ()

/-- A pass while the session is active, and the pass of the stop. -/
def samplePasses : List Pass :=
  [Pass.sample 0 (sampleReport "ACTIVE" "s" 1),
    { Pass.sample 5 (sampleReport "ACTIVE" "s" 1) with tickStatus := .ok (sampleReport "CLEANUP" "s" 2) }]

/-- The heartbeat fails and reads the cleanup of another session.  Then comes the stop. -/
def sampleLostPasses : List Pass :=
  [{ Pass.sample 0 (sampleReport "ACTIVE" "s" 1) with heartbeat := .error ⟨"RuntimeError", "stale", false⟩ },
    Pass.sample 5 (sampleReport "CLEANUP" "other" 7)]

def Event.isLost : Event → Bool
  | .heartbeatLost => true
  | _ => false

def Event.isToken : Event → Bool
  | .token _ => true
  | _ => false

def Event.isStop : Event → Bool
  | .stopSeen => true
  | _ => false

/-- No heartbeat was lost, no cleanup was begun, and the status has a revision. -/
def sampleMeets (s : Loop) (p : Pass) : Bool :=
  !s.gate.log.any Event.isLost && p.heartbeat.isOk && (s.gate.log.findSome? Event.beginCleanup?).isNone &&
    match p.status with
    | .ok status => (status.at "revision").int?.isSome
    | .error _ => false

theorem meets_of_sampleMeets {s : Loop} {p : Pass} (h : sampleMeets s p = true) : Meets Env.sample Setup.sample s p := by
  simp only [sampleMeets, Bool.and_eq_true, Bool.not_eq_true'] at h
  obtain ⟨⟨⟨hlost, hheartbeat⟩, hbegun⟩, hstatus⟩ := h
  have hunlost : .heartbeatLost ∉ s.gate.log := fun hmem => by
    rw [List.any_eq_true.mpr ⟨_, hmem, rfl⟩] at hlost
    cases hlost
  refine ⟨fun status hread _ => ⟨rfl, fun _ => ?_, fun _ before fresh hbefore => ?_⟩, fun hmem => absurd hmem hunlost, ?_⟩
  · rw [hread] at hstatus
    cases hrevision : status.at "revision" with
    | int n => exact fun heq => by cases heq
    | _ =>
      dsimp only at hstatus
      rw [hrevision] at hstatus
      cases hstatus
  · rw [hbefore] at hbegun
    cases hbegun
  · rintro (hmem | ⟨e, herror⟩)
    · exact absurd hmem hunlost
    · rw [herror] at hheartbeat
      cases hheartbeat

/-- The stop is verified, and the session is finalized. -/
theorem barrier_of_run_sample : ∃ s, Run (step Env.sample Setup.sample) (Meets Env.sample Setup.sample) (Loop.start 0 0)
    samplePasses s ∧ s.gate.operatorCleanupLatched = true ∧ s.ended = true ∧
    Sound Env.sample Setup.sample s.gate.log := by
  have heval : ∃ s, runAll (fun s p => if sampleMeets s p then step Env.sample Setup.sample s p else none)
      (Loop.start 0 0) samplePasses = some s ∧ (s.gate.operatorCleanupLatched = true ∧ s.ended = true) := by
    decide +kernel
  obtain ⟨s, hrun, hlatched, hended⟩ := heval
  have hrun' : Run (step Env.sample Setup.sample) (Meets Env.sample Setup.sample) (Loop.start 0 0) samplePasses s :=
    (run_of_guarded hrun).weaken fun _ _ hmeets => meets_of_sampleMeets hmeets
  exact ⟨s, hrun', hlatched, hended, barrier_of_run hrun'⟩

/-- A tick after a stop, without a token before it. -/
def unverifiedTick : List Event → Bool
  | [] => false
  | .tick :: past => (past.any Event.isStop && !past.any Event.isToken) || unverifiedTick past
  | _ :: past => unverifiedTick past

theorem not_sound_of_unverifiedTick {log : List Event} (h : unverifiedTick log = true) : ¬ Sound env setup log := by
  induction log with
  | nil => cases h
  | cons e past ih =>
    rintro ⟨hallowed, hpast⟩
    cases e with
    | tick =>
      rw [unverifiedTick, Bool.or_eq_true, Bool.and_eq_true, Bool.not_eq_true'] at h
      rcases h with ⟨hstop, hunverified⟩ | h
      · obtain ⟨e, hmem, hstop⟩ := List.any_eq_true.mp hstop
        cases e with
        | stopSeen =>
          obtain ⟨late, early, fresh, token, revision, rfl, -⟩ := hallowed.1 (.inl hmem)
          have htoken : (late ++ .token token :: .status fresh :: early).any Event.isToken = true :=
            List.any_eq_true.mpr ⟨_, List.mem_append_right _ List.mem_cons_self, rfl⟩
          rw [htoken] at hunverified
          cases hunverified
        | _ => cases hstop
      · exact ih h hpast
    | _ => exact ih h hpast

/-- After the stop the loop ticks in a cleanup that is not that of its session, and verifies nothing. -/
theorem sample_unverified_tick : ∃ s, Run (step Env.sample Setup.sample) Free (Loop.start 0 0) sampleLostPasses s ∧
    ¬ Sound Env.sample Setup.sample s.gate.log := by
  have heval : ∃ s, runAll (step Env.sample Setup.sample) (Loop.start 0 0) sampleLostPasses = some s ∧
      unverifiedTick s.gate.log = true := by
    decide +kernel
  obtain ⟨s, hrun, hunverified⟩ := heval
  exact ⟨s, free_of_runAll hrun, not_sound_of_unverifiedTick hunverified⟩

end LiveTrader.FunctionalScheduler
