/-
# `Emergency.Latched` — an engaged stop stays engaged

Once a call of `engage_emergency_stop` has returned, one of the two sticky variables of its
process is set, and only a release that returns ok empties them: so every later status and
every later dispatch boundary reports active, whatever others do to the disk
(`latched_of_run`).

Two things are not caught.  A reason or a source with a lone surrogate makes the write raise
a `UnicodeEncodeError`, which is no `OSError`: `engage_emergency_stop` raises and has set
nothing (`sample_engage_lost`).  A document nested beyond the recursion limit makes the
reading raise.
-/
import LiveTrader.Emergency.System

namespace LiveTrader.Emergency

open Lib Lib.Py Lib.Runs

variable {env : Env}

/-! ## Histories -/

namespace Outcome

/-- What a status or a dispatch boundary has seen and reported. -/
def report? : Outcome → Option (Seen × Result Status)
  | .status seen report | .boundary seen report => some (seen, report)
  | _ => none

/-- `engage_emergency_stop` has returned or raised. -/
def isEngaged : Outcome → Bool
  | .engaged _ => true
  | _ => false

/-- `clear_emergency_stop(confirmed=True)` has returned ok. -/
def isReleased : Outcome → Bool
  | .released _ (.ok (.status ok _)) => ok
  | _ => false

end Outcome

/-- Whether the stop is engaged after an outcome. -/
def latchedAfter (latched : Bool) (outcome : Outcome) : Bool :=
  outcome.isEngaged || (latched && !outcome.isReleased)

/-- A stop has been engaged and no release has returned ok since. -/
def latched (history : List Outcome) : Bool := history.foldl latchedAfter false

def ReportsActive (report : Result Status) : Prop := ∃ status, report = .ok status ∧ status.active = true

variable (env) in
/-- The outcome of a call is on the safe side. -/
def Safe (before : List Outcome) (outcome : Outcome) : Prop :=
  ∀ {seen report}, outcome.report? = some (seen, report) →
    latched before = true ∨ Broken env seen → ReportsActive report

variable (env) in
/-- **The latch.**  A status or a dispatch boundary reports active while the stop is engaged,
and whenever the latch that it sees is broken. -/
def Latches (history : List Outcome) : Prop :=
  ∀ before outcome after, history = before ++ outcome :: after → Safe env before outcome

theorem latched_concat (history : List Outcome) (outcome : Outcome) :
    latched (history ++ [outcome]) = latchedAfter (latched history) outcome := by
  rw [latched, List.foldl_append, List.foldl_cons, List.foldl_nil, latched]

theorem Latches.concat {history : List Outcome} {outcome : Outcome} (h : Latches env history)
    (hsafe : Safe env history outcome) : Latches env (history ++ [outcome]) := by
  intro before o after heq
  rcases List.eq_nil_or_concat after with rfl | ⟨after', last, rfl⟩
  · obtain ⟨rfl, hlast⟩ := List.append_inj' heq rfl
    obtain rfl := List.cons.inj hlast |>.1
    exact hsafe
  · rw [List.concat_eq_append, ← List.cons_append, ← List.append_assoc] at heq
    obtain ⟨hhistory, -⟩ := List.append_inj' heq rfl
    exact h _ _ _ hhistory

theorem safe_of_none {before : List Outcome} {outcome : Outcome} (h : outcome.report? = none) :
    Safe env before outcome := by
  intro seen report hreport
  rw [h] at hreport
  cases hreport

/-! ## What a reading reports -/

/-- One of the sticky variables is set. -/
def Armed (proc : Process) : Prop :=
  proc.stickyFailClosedReason ≠ "" ∨ proc.stickyActiveRevision ≠ ""

/-- What a reader has checked of a document. -/
theorem readDocument_eq_some {payload : Json} {status : Status} (h : readDocument env payload = some status) :
    ∃ d : Fields, payload = .obj d ∧ (d.at "schemaVersion").eq (.int 1) = true ∧
      (∃ active, d.at "active" = .bool active) ∧ env.text (d.at "nonce") ≠ "" ∧
      status.revision = env.sha256 (env.text (d.at "nonce")) := by
  cases payload with
  | obj d =>
    simp only [readDocument] at h
    split at h
    · cases h
    · next hschema =>
      split at h
      · next active hactive =>
        split at h
        · cases h
        · next hnonce =>
          obtain rfl := Option.some.inj h
          exact ⟨d, rfl, Bool.not_eq_false _ ▸ hschema, ⟨active, hactive⟩, hnonce, rfl⟩
      · cases h
  | _ => cases h

/-- An active durable status is that of a document. -/
theorem durable_revision {seen : Seen} {status : Status} (h : durableEmergencyStopStatus env seen = .ok status)
    (hactive : status.active = true) (hdurable : status.durable = true) : status.revision ≠ "" := by
  unfold durableEmergencyStopStatus at h
  split at h
  case h_7 payload =>
    obtain rfl := Except.ok.inj h
    cases hread : readDocument env payload with
    | none => simp [hread, failClosed] at hdurable
    | some status =>
      rw [Option.getD_some]
      obtain ⟨d, -, -, -, -, hrevision⟩ := readDocument_eq_some hread
      rw [hrevision]
      exact env.sha256_ne_empty _
  case h_4 =>
    obtain rfl := Except.ok.inj h
    cases hactive
  case h_6 => cases h
  all_goals
    obtain rfl := Except.ok.inj h
    cases hdurable

theorem observe_armed {proc : Process} {seen : Seen} {durable : Status}
    (h : durableEmergencyStopStatus env seen = .ok durable) (hactive : durable.active = true)
    (hdurable : durable.durable = true) : Armed (observe proc durable) := by
  rw [observe, if_pos ⟨hactive, hdurable⟩]
  exact .inr (durable_revision h hactive hdurable)

theorem Armed.observe {proc : Process} (harmed : Armed proc) {seen : Seen} {durable : Status}
    (h : durableEmergencyStopStatus env seen = .ok durable) : Armed (observe proc durable) := by
  by_cases hseen : durable.active = true ∧ durable.durable = true
  · exact observe_armed h hseen.1 hseen.2
  · rw [Emergency.observe, if_neg hseen]
    exact harmed

/-- A process with a sticky variable reports active. -/
theorem Armed.report_active {proc : Process} (harmed : Armed proc) (durable : Status) :
    (report proc durable).active = true := by
  rw [report]
  split
  · rfl
  · next hreason =>
    split
    · rfl
    · next hrevision =>
      rcases harmed with h | h
      · exact absurd h hreason
      · cases hactive : durable.active with
        | true => rfl
        | false => exact absurd ⟨h, hactive⟩ hrevision

/-- What is active as it is read is reported active. -/
theorem report_of_active {proc : Process} {durable : Status} (h : durable.active = true) :
    (report proc durable).active = true := by
  rw [report]
  split
  · rfl
  · split
    · rfl
    · exact h

/-- What is equal to one is a one, or `true`. -/
theorem number_one {v : Json} (h : v.eq (.int 1) = true) : v = .int 1 ∨ v = .float 1 ∨ v = .bool true := by
  cases v with
  | bool b => cases b <;> simp_all [Json.eq, Json.numbersEq, Json.number?]
  | int n => simp_all [Json.eq, Json.numbersEq, Json.number?]
  | float q => simp_all [Json.eq, Json.numbersEq, Json.number?]
  | _ => simp [Json.eq, Json.numbersEq, Json.number?] at h

theorem broken_active {seen : Seen} {status : Status} (h : durableEmergencyStopStatus env seen = .ok status)
    (hbroken : Broken env seen) (hschema : ∀ payload, seen = .content (.json payload) → trueSchema payload = false) :
    status.active = true := by
  unfold durableEmergencyStopStatus at h
  split at h
  case h_4 => exact absurd hbroken id
  case h_6 => cases h
  case h_7 payload =>
    obtain rfl := Except.ok.inj h
    cases hread : readDocument env payload with
    | none => rfl
    | some status =>
      obtain ⟨d, rfl, hone, hactive, hnonce, -⟩ := readDocument_eq_some hread
      refine absurd ⟨d, rfl, ?_, hactive, hnonce⟩ hbroken
      rcases number_one hone with h | h | h
      · exact .inl h
      · exact .inr h
      · have hfalse := hschema _ rfl
        rw [trueSchema, h] at hfalse
        cases hfalse
  all_goals
    obtain rfl := Except.ok.inj h
    rfl

/-! ## Steps of a process -/

/-- What holds of a process between two steps. -/
structure Inv (env : Env) (proc : Process) : Prop where
  latches : Latches env proc.history
  armed : latched proc.history = true → Armed proc
  encodes : ∀ {reason source}, proc.pc = .prepare (.engage reason source) ∨
    proc.pc = .replace (.engage reason source) → (written reason source).isSome = true

theorem inv_empty : Inv env {} :=
  ⟨fun _ _ _ h => absurd h.symm (List.append_ne_nil_of_right_ne_nil _ (List.cons_ne_nil _ _)), nofun, by
    rintro _ _ (h | h) <;> cases h⟩

theorem Inv.finish {proc proc' : Process} (h : Inv env proc) {outcome : Outcome}
    (hhistory : proc'.history = proc.history)
    (hsafe : Safe env proc.history outcome)
    (harmed : latchedAfter (latched proc.history) outcome = true → Armed proc') :
    Inv env (proc'.finish outcome) := by
  constructor
  · rw [Process.finish, hhistory]
    exact h.latches.concat hsafe
  · rw [Process.finish, hhistory, latched_concat]
    exact harmed
  · rintro _ _ (h | h) <;> cases h

theorem Inv.goto {proc proc' : Process} (h : Inv env proc) {pc : Pc}
    (hhistory : proc'.history = proc.history) (harmed : Armed proc → Armed proc')
    (hencodes : ∀ {reason source}, pc = .prepare (.engage reason source) ∨
      pc = .replace (.engage reason source) → (written reason source).isSome = true) :
    Inv env (proc'.goto pc) := by
  refine ⟨?_, fun hlatched => ?_, hencodes⟩
  · rw [Process.goto, hhistory]
    exact h.latches
  · rw [Process.goto, hhistory] at hlatched
    exact harmed (h.armed hlatched)

/-- What a reader meets in the file: a status and a dispatch boundary no document nested beyond
the recursion limit and none of the schema `true`, the verification of an engaged stop none of
the former. -/
def readable : Reader → Content → Bool
  | .status, .deep | .boundary, .deep | .engaged, .deep => false
  | .status, .json payload | .boundary, .json payload => !trueSchema payload
  | _, _ => true

theorem readable_unreadable (reader : Reader) (error : String) :
    readable reader (.unreadable error) = true := by
  cases reader <;> rfl

theorem observe_history (proc : Process) (durable : Status) : (observe proc durable).history = proc.history := by
  rw [observe]
  split <;> rfl

/-- Only a document that is nested too deep raises. -/
theorem durable_raises {seen : Seen} {e : Error} (h : durableEmergencyStopStatus env seen = .error e) :
    seen = .content .deep := by
  unfold durableEmergencyStopStatus at h
  split at h
  case h_6 => rfl
  all_goals cases h

/-- What is reported of a reading is on the safe side. -/
theorem Inv.reported {proc : Process} (h : Inv env proc) {seen : Seen} {durable : Status}
    (hread : durableEmergencyStopStatus env seen = .ok durable)
    (hschema : ∀ payload, seen = .content (.json payload) → trueSchema payload = false)
    (hcause : latched proc.history = true ∨ Broken env seen) :
    ReportsActive (.ok (report (observe proc durable) durable)) := by
  refine ⟨_, rfl, ?_⟩
  rcases hcause with hlatched | hbroken
  · exact ((h.armed hlatched).observe hread).report_active durable
  · exact report_of_active (broken_active hread hbroken hschema)

theorem Inv.observed {proc : Process} (h : Inv env proc) {seen : Seen} {outcome : Result Status → Outcome}
    (hreport : ∀ r, (outcome r).report? = some (seen, r)) (hplain : ∀ r, (outcome r).isEngaged = false)
    (hschema : ∀ payload, seen = .content (.json payload) → trueSchema payload = false) {durable : Status}
    (hread : durableEmergencyStopStatus env seen = .ok durable) :
    Inv env ((observe proc durable).finish (outcome (.ok (report (observe proc durable) durable)))) := by
  refine h.finish (observe_history proc durable) (fun hsome hcause => ?_) (fun hlatched => ?_)
  · rw [hreport] at hsome
    obtain ⟨rfl, rfl⟩ := Prod.mk.inj (Option.some.inj hsome)
    exact h.reported hread hschema hcause
  · rw [latchedAfter, hplain, Bool.false_or, Bool.and_eq_true] at hlatched
    exact (h.armed hlatched.1).observe hread

/-- An engaged stop is verified, or the process remembers that it was not. -/
theorem Inv.verifyEngaged {proc : Process} (h : Inv env proc) {seen : Seen} {durable : Status}
    (hread : durableEmergencyStopStatus env seen = .ok durable) :
    Inv env (verifyEngaged (observe proc durable) (report (observe proc durable) durable)) := by
  rw [Emergency.verifyEngaged]
  split
  · next hverified =>
    refine h.finish (observe_history proc durable) (safe_of_none rfl) (fun _ => ?_)
    have hdurable : durable.active = true ∧ durable.durable = true := by
      rw [report] at hverified
      split at hverified
      · exact absurd hverified.2 nofun
      · split at hverified
        · exact absurd hverified.2 nofun
        · exact hverified
    exact observe_armed hread hdurable.1 hdurable.2
  · refine h.finish ?_ (safe_of_none rfl) (fun _ => .inl ?_)
    · exact observe_history proc durable
    · exact (by decide : "emergency-stop-write-verification-failed" ≠ "")

theorem Inv.checkRevision {proc : Process} (h : Inv env proc) {seen : Seen} {durable : Status}
    (hread : durableEmergencyStopStatus env seen = .ok durable) (reason source : CodePoints) (expected : String) :
    Inv env (checkRevision (observe proc durable) (report (observe proc durable) durable) reason source
      expected) := by
  have hgoto : Inv env ((observe proc durable).goto (.prepare (.release reason source expected))) :=
    h.goto (observe_history proc durable) (fun harmed => harmed.observe hread)
      (by rintro _ _ (h | h) <;> cases h)
  have hfinish : ∀ answer, Inv env ((observe proc durable).finish (.released none answer)) := fun answer => by
    refine h.finish (observe_history proc durable) (safe_of_none rfl) (fun hlatched => ?_)
    simp only [latchedAfter, Outcome.isEngaged, Bool.false_or, Bool.and_eq_true] at hlatched
    exact (h.armed hlatched.1).observe hread
  rw [Emergency.checkRevision]
  split
  · exact hgoto
  · split
    · exact hfinish _
    · exact hgoto
    · exact hfinish _

/-- A release is verified, or the process remembers that it was not. -/
theorem Inv.verifyReleased {proc : Process} (h : Inv env proc) (durable : Status) (replaced : String × Latch) :
    Inv env (verifyReleased proc durable replaced) := by
  rw [Emergency.verifyReleased]
  split
  · refine h.finish rfl (safe_of_none rfl) (fun hlatched => ?_)
    simp [latchedAfter, Outcome.isEngaged, Outcome.isReleased] at hlatched
  · exact h.finish rfl (safe_of_none rfl)
      (fun _ => .inl (by decide : "emergency-stop-release-verification-failed" ≠ ""))

theorem Inv.releaseRaised {proc : Process} (h : Inv env proc) (replaced : Option (String × Latch)) (e : Error) :
    Inv env (proc.finish (.released replaced (.error e))) := by
  refine h.finish rfl (safe_of_none rfl) (fun hlatched => ?_)
  simp only [latchedAfter, Outcome.isEngaged, Bool.false_or, Bool.and_eq_true] at hlatched
  exact h.armed hlatched.1

/-- **A reading.** -/
theorem Inv.conclude {proc : Process} (h : Inv env proc) {seen : Seen} {reader : Reader}
    (hreadable : ∀ content, seen = .content content → readable reader content = true) :
    Inv env (conclude env proc seen reader) := by
  rw [Emergency.conclude]
  cases hread : durableEmergencyStopStatus env seen with
  | error e =>
    obtain rfl := durable_raises hread
    have hdeep := hreadable _ rfl
    cases reader with
    | status => cases hdeep
    | boundary => cases hdeep
    | engaged => cases hdeep
    | release reason source expected => exact h.releaseRaised none e
    | released expected latch => exact h.releaseRaised _ e
  | ok durable =>
    cases reader with
    | status =>
      exact h.observed (fun _ => rfl) (fun _ => rfl)
        (fun payload hseen => Bool.not_eq_true' _ ▸ hreadable _ hseen) hread
    | boundary =>
      exact h.observed (fun _ => rfl) (fun _ => rfl)
        (fun payload hseen => Bool.not_eq_true' _ ▸ hreadable _ hseen) hread
    | engaged => exact h.verifyEngaged hread
    | release reason source expected => exact h.checkRevision hread reason source expected
    | released expected latch => exact h.verifyReleased durable _

theorem Inv.writeFailed {proc : Process} (h : Inv env proc) (error : String) (writer : Writer) :
    Inv env (writeFailed proc error writer) := by
  have hne : ∀ text : String, text ≠ "" → text ++ error ≠ "" := fun text htext hempty =>
    htext (String.append_eq_empty_iff.mp hempty).1
  cases writer with
  | engage reason source => exact h.finish rfl (safe_of_none rfl) (fun _ => .inl (hne _ (by decide)))
  | release reason source expected => exact h.finish rfl (safe_of_none rfl) (fun _ => .inl (hne _ (by decide)))

/-- **A step of a process.** -/
theorem Inv.advance {disk disk' : Disk} {proc proc' : Process} {fault : Fault} {stamp : Stamp}
    (h : Inv env proc)
    (hreadable : ∀ reader content, proc.pc = .read reader → disk.latch = .file content → readable reader content = true)
    (hstep : advance env disk proc fault stamp = some (disk', proc')) : Inv env proc' := by
  have hplain : ∀ {pc : Pc}, (∀ writer, pc ≠ .prepare writer) → (∀ writer, pc ≠ .replace writer) →
      Inv env (proc.goto pc) := fun hprepare hreplace => h.goto rfl id (by
    rintro _ _ (h | h)
    · exact absurd h (hprepare _)
    · exact absurd h (hreplace _))
  rw [Emergency.advance] at hstep
  split at hstep
  case h_1 => cases hstep
  case h_2 reader hpc =>
    split at hstep <;> obtain ⟨-, rfl⟩ := Prod.mk.inj (Option.some.inj hstep)
    · exact h.conclude nofun
    · exact hplain nofun nofun
    · exact hplain nofun nofun
  case h_3 reader hpc =>
    obtain ⟨-, rfl⟩ := Prod.mk.inj (Option.some.inj hstep)
    exact h.conclude nofun
  case h_4 reader hpc =>
    split at hstep <;> obtain ⟨-, rfl⟩ := Prod.mk.inj (Option.some.inj hstep)
    · refine h.conclude ?_
      rintro _ ⟨⟩
      exact readable_unreadable reader _
    · refine h.conclude ?_
      rintro _ ⟨⟩
      exact readable_unreadable reader _
    · next content hlatch =>
      refine h.conclude ?_
      rintro _ ⟨⟩
      exact hreadable _ _ hpc hlatch
  case h_5 writer hpc =>
    cases hfault : fault.error? with
    | some error =>
      simp only [hfault] at hstep
      obtain ⟨-, rfl⟩ := Prod.mk.inj (Option.some.inj hstep)
      exact h.writeFailed _ writer
    | none =>
      simp only [hfault] at hstep
      obtain ⟨-, rfl⟩ := Prod.mk.inj (Option.some.inj hstep)
      refine h.goto rfl id ?_
      rintro reason source (heq | heq)
      · cases heq
      · obtain rfl := Pc.replace.inj heq
        exact h.encodes (.inl hpc)
  case h_6 writer hpc =>
    split at hstep
    · next htexts =>
      split at hstep <;> obtain ⟨-, rfl⟩ := Prod.mk.inj (Option.some.inj hstep)
      · exact h.writeFailed _ writer
      · cases writer with
        | engage reason source =>
          have hencodes := h.encodes (.inr hpc)
          rw [Writer.texts] at htexts
          rw [htexts] at hencodes
          cases hencodes
        | release reason source expected => exact h.releaseRaised none _
    · cases hfault : fault.error? with
      | some error =>
        simp only [hfault] at hstep
        obtain ⟨-, rfl⟩ := Prod.mk.inj (Option.some.inj hstep)
        exact h.writeFailed _ writer
      | none =>
        simp only [hfault] at hstep
        obtain ⟨-, rfl⟩ := Prod.mk.inj (Option.some.inj hstep)
        exact hplain nofun nofun

theorem Inv.begin {proc : Process} (h : Inv env proc) {call : Call}
    (hencodes : ∀ reason source, call = .engage reason source → (written reason source).isSome = true) :
    Inv env (begin proc call) := by
  cases call with
  | status => exact h.goto rfl id (by rintro _ _ (h | h) <;> cases h)
  | boundary => exact h.goto rfl id (by rintro _ _ (h | h) <;> cases h)
  | engage reason source =>
    refine h.goto rfl id ?_
    rintro _ _ (heq | heq)
    · obtain ⟨rfl, rfl⟩ := Writer.engage.inj (Pc.prepare.inj heq)
      exact hencodes _ _ rfl
    · cases heq
  | clear confirmed reason source expected =>
    cases confirmed with
    | true => exact h.goto rfl id (by rintro _ _ (h | h) <;> cases h)
    | false =>
      refine h.finish rfl (safe_of_none rfl) (fun hlatched => ?_)
      simp only [latchedAfter, Outcome.isEngaged, Bool.false_or, Bool.and_eq_true] at hlatched
      exact h.armed hlatched.1

/-! ## Every run -/

/-- A stop is engaged with texts that can be encoded, and what is read in the file can be read. -/
def encodable (w : World) : Label → Bool
  | .call _ (.engage reason source) => (written reason source).isSome
  | .advance p _ _ =>
    match (w.process p).pc, w.disk.latch with
    | .read reader, .file content => readable reader content
    | _, _ => true
  | _ => true

theorem inv_step {w w' : World} {label : Label} (hok : encodable w label = true) (hstep : step env w label = some w')
    (h : ∀ p, Inv env (w.process p)) : ∀ p, Inv env (w'.process p) := by
  intro q
  have hupdate : ∀ {p : ℕ} {proc : Process}, Inv env proc →
      Inv env (Function.update w.process p proc q) := fun {p proc} hproc => by
    by_cases hq : q = p
    · subst hq
      rw [Function.update_self]
      exact hproc
    · rw [Function.update_of_ne hq]
      exact h q
  cases label with
  | call p call =>
    rw [step] at hstep
    split at hstep
    · obtain rfl := Option.some.inj hstep
      refine hupdate ((h p).begin ?_)
      rintro reason source rfl
      exact hok
    · cases hstep
  | advance p fault stamp =>
    rw [step, Option.map_eq_some_iff] at hstep
    obtain ⟨⟨disk, proc⟩, hadvance, rfl⟩ := hstep
    refine hupdate ((h p).advance (fun reader content hpc hlatch => ?_) hadvance)
    rw [encodable, hpc, hlatch] at hok
    exact hok
  | outside disk =>
    obtain rfl := Option.some.inj hstep
    exact h q

/-- **An engaged stop stays engaged**, in every process and whatever others do to the disk. -/
theorem latched_of_run {w w' : World} {labels : List Label} (hw : w.Initial)
    (h : Run (step env) (fun w label => encodable w label = true) w labels w') (p : ℕ) : Latches env (w'.process p).history := by
  have hinv : ∀ p, Inv env (w'.process p) := h.invariant inv_step (fun p => by
    rw [hw p]
    exact inv_empty)
  exact (hinv p).latches

/-! ## A run -/

def Env.sample : Env where
  sha256 s := "#" ++ s
  sha256_ne_empty s hempty := absurd (String.append_eq_empty_iff.mp hempty).1 (by decide)
  repr _ := "?"

/-- A latch that is off. -/
def sampleDisk : Disk where
  latch := .file (.json (.obj (document false "released" "api" ⟨"2026-10-15T00:00:00Z", 1, "a"⟩)))
  marker := .present

def sampleWorld : World := ⟨sampleDisk, fun _ => {}⟩

def sampleStamp : Stamp := ⟨"2026-10-15T01:00:00Z", 1, "b"⟩

/-- Engage a stop, take the document away and ask for the status. -/
def sampleStop (reason : CodePoints) : List Label :=
  [.call 0 (.engage reason []), .advance 0 .none sampleStamp, .advance 0 .none sampleStamp,
    .advance 0 .none sampleStamp, .advance 0 .none sampleStamp, .outside sampleDisk,
    .call 0 .status, .advance 0 .none sampleStamp, .advance 0 .none sampleStamp]

/-- The stop is active although its document has disappeared. -/
theorem latched_of_run_sample : ∃ w,
    runAll (fun w label => if encodable w label then step Env.sample w label else none) sampleWorld
      (sampleStop [104, 97, 108, 116]) = some w ∧
    (w.process 0).history.length = 2 ∧ Latches Env.sample (w.process 0).history := by
  obtain ⟨w, hw, hlength⟩ : ∃ w,
      runAll (fun w label => if encodable w label then step Env.sample w label else none) sampleWorld
        (sampleStop [104, 97, 108, 116]) = some w ∧ (w.process 0).history.length = 2 := by
    decide
  exact ⟨w, hw, hlength, latched_of_run (fun _ => rfl) (run_of_guarded hw) 0⟩

/-- A status right after a stop that does not report it. -/
def forgets : List Outcome → Bool
  | [.engaged _, .status _ (.ok status)] => !status.active
  | _ => false

theorem not_latches_of_forgets {history : List Outcome} (h : forgets history = true) : ¬ Latches env history := by
  intro hlatches
  unfold forgets at h
  split at h
  · next answer seen status =>
    obtain ⟨status', hstatus, hactive⟩ := hlatches [.engaged answer] _ [] rfl rfl (.inl rfl)
    obtain rfl := Except.ok.inj hstatus
    rw [hactive] at h
    cases h
  · cases h

/-- **A stop can be lost.**  Its reason has a lone surrogate: the write raises, and nothing is
written and nothing remembered. -/
theorem sample_engage_lost : ∃ w, Run (step Env.sample) Free sampleWorld
    [.call 0 (.engage [0xD800] []), .advance 0 .none sampleStamp, .advance 0 .none sampleStamp,
      .call 0 .status, .advance 0 .none sampleStamp, .advance 0 .none sampleStamp] w ∧
    ¬ Latches Env.sample (w.process 0).history := by
  obtain ⟨w, hw, hlost⟩ : ∃ w, runAll (step Env.sample) sampleWorld
      [.call 0 (.engage [0xD800] []), .advance 0 .none sampleStamp, .advance 0 .none sampleStamp,
        .call 0 .status, .advance 0 .none sampleStamp, .advance 0 .none sampleStamp] = some w ∧
      forgets (w.process 0).history = true := by
    decide
  exact ⟨w, free_of_runAll hw, not_latches_of_forgets hlost⟩

end LiveTrader.Emergency
