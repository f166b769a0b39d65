/-
# `Emergency.Release` — a release replaces the document it expects

`clear_emergency_stop` compares the revision it is given with the status it reads, and then
replaces the latch.  The two are separate steps, and `_WRITE_LOCK` is a lock of one process:
where no other process changes the latch between them, the latch that is replaced has the
expected revision, and a stop of another revision stays in force (`release_replaces_expected`).

Where another process engages a stop between them, the release takes that stop away and
returns ok (`sample_newer_stop_released`).
-/
import LiveTrader.Emergency.Latched

namespace LiveTrader.Emergency

open Lib Lib.Py Lib.Runs

variable {env : Env}

/-! ## Revisions -/

/-- What a reader may see of a latch. -/
inductive Shows : Latch → Seen → Prop
  | hidden (error : String) : Shows (.hidden error) (.hidden error)
  | missing (marker : Marker) : Shows .absent (.missing marker)
  | content (content : Content) : Shows (.file content) (.content content)
  /-- The file has disappeared since it was there. -/
  | lost : Shows .absent (.content (.unreadable "FileNotFoundError"))
  | locked (error : String) : Shows (.hidden error) (.content (.unreadable error))

variable (env) in
/-- The latch is reported with this revision. -/
def HasRevision (latch : Latch) (revision : String) : Prop :=
  ∃ seen status, Shows latch seen ∧ durableEmergencyStopStatus env seen = .ok status ∧ status.revision = revision

theorem HasRevision.of_document {payload : Json} {revision : String} {status : Status}
    (h : HasRevision env (.file (.json payload)) revision) (hread : readDocument env payload = some status) :
    status.revision = revision := by
  obtain ⟨_, status', ⟨⟩, hstatus, hrevision⟩ := h
  rw [durableEmergencyStopStatus, hread] at hstatus
  obtain rfl := Except.ok.inj hstatus
  exact hrevision

/-! ## Undisturbed releases -/

/-- The revision a release expects, from the moment it has seen the latch to its replacement. -/
def Pc.expects : Pc → String
  | .marker (.release _ _ expected) | .prepare (.release _ _ expected) | .replace (.release _ _ expected) =>
    strip expected
  | _ => ""

/-- What the next step of a process reads. -/
def Pc.sees (disk : Disk) : Pc → Option (Reader × Seen)
  | .latch reader =>
    match disk.latch with
    | .hidden error => some (reader, .hidden error)
    | _ => none
  | .marker reader => some (reader, .missing disk.marker)
  | .read reader =>
    match disk.latch with
    | .hidden error => some (reader, .content (.unreadable error))
    | .absent => some (reader, .content (.unreadable "FileNotFoundError"))
    | .file content => some (reader, .content content)
  | _ => none

def Label.process? : Label → Option ℕ
  | .call p _ | .advance p _ _ => some p
  | .outside _ => none

/-- A step replaces the latch, or others change it. -/
def ChangesLatch (w : World) : Label → Prop
  | .call _ _ => False
  | .advance p fault _ => ∃ writer, (w.process p).pc = .replace writer ∧ fault.acts = true ∧
      writer.texts.isSome = true
  | .outside disk => disk.latch ≠ w.disk.latch

variable (env) in
/-- The status a release of an expected revision starts from is not that of a stop which its
process remembers and the latch no longer says. -/
def Fresh (w : World) : Label → Prop
  | .advance p _ _ => ∀ reason source expected seen durable,
      (w.process p).pc.sees w.disk = some (.release reason source expected, seen) → strip expected ≠ "" →
      durableEmergencyStopStatus env seen = .ok durable →
      durable.active = true ∨ (w.process p).stickyFailClosedReason ≠ "" ∨ (w.process p).stickyActiveRevision = ""
  | _ => True

variable (env) in
/-- Nobody else changes the latch between the status of a release and its replacement. -/
def Undisturbed (w : World) (label : Label) : Prop :=
  Fresh env w label ∧
    ∀ p, (w.process p).pc.expects ≠ "" → label.process? ≠ some p → ¬ ChangesLatch w label

/-! ## Steps -/

/-- The reader of a process. -/
def Pc.reader? : Pc → Option Reader
  | .latch reader | .marker reader | .read reader => some reader
  | _ => none

variable (env) in
/-- A release that has replaced a latch while it expected a revision has replaced one of this
revision; and one that returns ok has replaced a latch. -/
def ReleasedExactly : Outcome → Prop
  | .released (some (expected, replaced)) _ => strip expected ≠ "" → HasRevision env replaced (strip expected)
  | .released none (.ok (.status ok _)) => ok = false
  | _ => True

/-- The release of a process has seen the latch as it is, and the releases before it were exact. -/
structure Exact (env : Env) (latch : Latch) (proc : Process) : Prop where
  /-- The marker is asked for because there is no document. -/
  absent : ∀ {reader}, proc.pc = .marker reader → proc.pc.expects ≠ "" → latch = .absent
  current : ∀ {writer}, proc.pc = .prepare writer ∨ proc.pc = .replace writer → proc.pc.expects ≠ "" →
    HasRevision env latch proc.pc.expects
  verifying : ∀ {expected replaced}, proc.pc.reader? = some (.released expected replaced) →
    strip expected ≠ "" → HasRevision env replaced (strip expected)
  history : ∀ outcome ∈ proc.history, ReleasedExactly env outcome

theorem exact_empty (latch : Latch) : Exact env latch {} :=
  ⟨by simp, by simp, by simp [Pc.reader?], fun _ h => absurd h List.not_mem_nil⟩

/-- The latch matters to a release that has seen it. -/
theorem Exact.congr {latch latch' : Latch} {proc : Process} (h : Exact env latch proc)
    (hlatch : proc.pc.expects ≠ "" → latch' = latch) : Exact env latch' proc := by
  refine ⟨fun hpc hne => ?_, fun hpc hne => ?_, h.verifying, h.history⟩
  · rw [hlatch hne]
    exact h.absent hpc hne
  · rw [hlatch hne]
    exact h.current hpc hne

theorem Exact.finish {latch latch' : Latch} {proc proc' : Process} (h : Exact env latch proc) {outcome : Outcome}
    (hhistory : proc'.history = proc.history) (hexact : ReleasedExactly env outcome) :
    Exact env latch' (proc'.finish outcome) := by
  refine ⟨by simp [Process.finish], by simp [Process.finish], by simp [Process.finish, Pc.reader?], fun o ho => ?_⟩
  rw [Process.finish, hhistory] at ho
  rcases List.mem_append.mp ho with ho | ho
  · exact h.history o ho
  · rw [List.mem_singleton.mp ho]
    exact hexact

/-- The call goes on where nothing is expected of the latch. -/
theorem Exact.goto {latch latch' : Latch} {proc proc' : Process} (h : Exact env latch proc) {pc : Pc}
    (hhistory : proc'.history = proc.history) (hexpects : pc.expects = "")
    (hverifying : ∀ {expected replaced}, pc.reader? = some (.released expected replaced) →
      strip expected ≠ "" → HasRevision env replaced (strip expected)) : Exact env latch' (proc'.goto pc) := by
  refine ⟨fun _ hne => absurd hexpects hne, fun _ hne => absurd hexpects hne, hverifying, ?_⟩
  rw [Process.goto, hhistory]
  exact h.history

/-- The revision that is reported is that of the latch, unless the process remembers a stop. -/
theorem report_revision {proc : Process} {durable : Status}
    (h : durable.active = true ∨ proc.stickyFailClosedReason ≠ "" ∨ proc.stickyActiveRevision = "") :
    (report (observe proc durable) durable).revision = durable.revision := by
  have hreason : (observe proc durable).stickyFailClosedReason = proc.stickyFailClosedReason := by
    rw [observe]
    split <;> rfl
  rw [report]
  split
  · rfl
  · next hsticky =>
    rw [hreason] at hsticky
    split
    · next hforgot =>
      obtain ⟨hrevision, hinactive⟩ := hforgot
      rw [observe, if_neg (by simp [hinactive])] at hrevision
      rcases h with h | h | h
      · cases hinactive.symm.trans h
      · exact absurd h hsticky
      · exact absurd h hrevision
    · rfl

theorem compareDigest_eq_true {expected revision : String} (h : compareDigest expected revision = .ok true) :
    expected = revision := by
  rw [compareDigest] at h
  split at h
  · exact of_decide_eq_true (Except.ok.inj h)
  · cases h

variable (env) in
/-- What a reader has seen is the latch, and the stop its process remembers is not another one. -/
def Found (latch : Latch) (proc : Process) (seen : Seen) : Prop :=
  Shows latch seen ∧ ∀ {durable}, durableEmergencyStopStatus env seen = .ok durable →
    durable.active = true ∨ proc.stickyFailClosedReason ≠ "" ∨ proc.stickyActiveRevision = ""

/-- A release that goes on to its write has compared the revision of the latch. -/
theorem Exact.checkRevision {latch : Latch} {proc : Process} (h : Exact env latch proc) {seen : Seen}
    {durable : Status} (hread : durableEmergencyStopStatus env seen = .ok durable)
    (reason source : CodePoints) (expected : String) (hfound : strip expected ≠ "" → Found env latch proc seen) :
    Exact env latch (checkRevision (observe proc durable) (report (observe proc durable) durable) reason source
      expected) := by
  have hhistory := observe_history proc durable
  have hgoto : (strip expected ≠ "" → HasRevision env latch (strip expected)) →
      Exact env latch ((observe proc durable).goto (.prepare (.release reason source expected))) := fun hcurrent => by
    refine ⟨by simp [Process.goto], fun _ hne => hcurrent hne, by simp [Process.goto, Pc.reader?], ?_⟩
    rw [Process.goto, hhistory]
    exact h.history
  rw [Emergency.checkRevision]
  split
  · next hempty => exact hgoto fun hne => absurd hempty hne
  · next hne =>
    split
    · exact h.finish hhistory trivial
    · next hequal =>
      obtain ⟨hshows, hfresh⟩ := hfound hne
      refine hgoto fun _ => ⟨seen, durable, hshows, hread, ?_⟩
      rw [compareDigest_eq_true hequal, report_revision (hfresh hread)]
    · exact h.finish hhistory rfl

/-- **A reading.** -/
theorem Exact.conclude {latch : Latch} {proc : Process} (h : Exact env latch proc) {seen : Seen}
    {reader : Reader} (hreader : proc.pc.reader? = some reader)
    (hfound : ∀ reason source expected, reader = .release reason source expected → strip expected ≠ "" →
      Found env latch proc seen) :
    Exact env latch (conclude env proc seen reader) := by
  rw [Emergency.conclude]
  cases hread : durableEmergencyStopStatus env seen with
  | error e =>
    cases reader with
    | released expected replaced => exact h.finish rfl (h.verifying hreader)
    | _ => exact h.finish rfl trivial
  | ok durable =>
    have hhistory := observe_history proc durable
    cases reader with
    | status => exact h.finish hhistory trivial
    | boundary => exact h.finish hhistory trivial
    | engaged =>
      simp only [verifyEngaged]
      split
      · exact h.finish hhistory trivial
      · exact h.finish hhistory trivial
    | release reason source expected =>
      exact h.checkRevision hread reason source expected (hfound _ _ _ rfl)
    | released expected replaced =>
      simp only [verifyReleased]
      split
      · exact h.finish rfl (h.verifying hreader)
      · exact h.finish rfl (h.verifying hreader)

theorem Exact.writeFailed {latch latch' : Latch} {proc : Process} (h : Exact env latch proc) (error : String)
    (writer : Writer) : Exact env latch' (writeFailed proc error writer) := by
  cases writer with
  | engage reason source => exact h.finish rfl trivial
  | release reason source expected => exact h.finish rfl trivial

theorem ensureInitializedMarker_latch (disk : Disk) : (ensureInitializedMarker disk).latch = disk.latch := by
  rw [ensureInitializedMarker]
  split <;> rfl

/-- **A step of a process.**  It leaves the latch, or replaces one that has the revision it
expects. -/
theorem Exact.advance {disk disk' : Disk} {proc proc' : Process} {fault : Fault} {stamp : Stamp}
    (h : Exact env disk.latch proc)
    (hfresh : ∀ reason source expected seen durable,
      proc.pc.sees disk = some (.release reason source expected, seen) → strip expected ≠ "" →
      durableEmergencyStopStatus env seen = .ok durable →
      durable.active = true ∨ proc.stickyFailClosedReason ≠ "" ∨ proc.stickyActiveRevision = "")
    (hstep : advance env disk proc fault stamp = some (disk', proc')) : Exact env disk'.latch proc' := by
  rw [Emergency.advance] at hstep
  split at hstep
  case h_1 => cases hstep
  case h_2 reader hpc =>
    split at hstep <;> obtain ⟨rfl, rfl⟩ := Prod.mk.inj (Option.some.inj hstep)
    · next error hlatch =>
      rw [hlatch] at h ⊢
      refine h.conclude (by rw [hpc]; rfl) fun reason source expected hreader hne =>
        ⟨.hidden error, hfresh reason source expected _ _ ?_ hne⟩
      rw [hpc, Pc.sees, hlatch, hreader]
    · next hlatch =>
      refine ⟨fun _ _ => hlatch, by simp [Process.goto], fun hreader => ?_, h.history⟩
      exact h.verifying (by rw [hpc]; exact hreader)
    · exact h.goto rfl rfl fun hreader => h.verifying (by rw [hpc]; exact hreader)
  case h_3 reader hpc =>
    obtain ⟨rfl, rfl⟩ := Prod.mk.inj (Option.some.inj hstep)
    refine h.conclude (by rw [hpc]; rfl) fun reason source expected hreader hne => ⟨?_, hfresh reason source expected _ _ ?_ hne⟩
    · rw [h.absent hpc (by rw [hpc, hreader]; exact hne)]
      exact .missing _
    · rw [hpc, Pc.sees, hreader]
  case h_4 reader hpc =>
    split at hstep <;> obtain ⟨rfl, rfl⟩ := Prod.mk.inj (Option.some.inj hstep)
    · next error hlatch =>
      rw [hlatch] at h ⊢
      refine h.conclude (by rw [hpc]; rfl) fun reason source expected hreader hne =>
        ⟨.locked error, hfresh reason source expected _ _ ?_ hne⟩
      rw [hpc, Pc.sees, hlatch, hreader]
    · next hlatch =>
      rw [hlatch] at h ⊢
      refine h.conclude (by rw [hpc]; rfl) fun reason source expected hreader hne =>
        ⟨.lost, hfresh reason source expected _ _ ?_ hne⟩
      rw [hpc, Pc.sees, hlatch, hreader]
    · next content hlatch =>
      rw [hlatch] at h ⊢
      refine h.conclude (by rw [hpc]; rfl) fun reason source expected hreader hne =>
        ⟨.content content, hfresh reason source expected _ _ ?_ hne⟩
      rw [hpc, Pc.sees, hlatch, hreader]
  case h_5 writer hpc =>
    cases hfault : fault.error? with
    | some error =>
      simp only [hfault] at hstep
      obtain ⟨rfl, rfl⟩ := Prod.mk.inj (Option.some.inj hstep)
      exact h.writeFailed error writer
    | none =>
      simp only [hfault] at hstep
      obtain ⟨rfl, rfl⟩ := Prod.mk.inj (Option.some.inj hstep)
      have hlatch : (if fault.acts then ensureInitializedMarker disk else disk).latch = disk.latch := by
        split
        · exact ensureInitializedMarker_latch disk
        · rfl
      rw [hlatch]
      refine ⟨by simp [Process.goto], fun _ hne => ?_, by simp [Process.goto, Pc.reader?], h.history⟩
      have hcurrent := h.current (.inl hpc)
      rw [hpc] at hcurrent
      cases writer with
      | engage reason source => exact absurd rfl hne
      | release reason source expected => exact hcurrent hne
  case h_6 writer hpc =>
    split at hstep
    · split at hstep <;> obtain ⟨rfl, rfl⟩ := Prod.mk.inj (Option.some.inj hstep)
      · exact h.writeFailed _ writer
      · cases writer with
        | engage reason source => exact h.finish rfl trivial
        | release reason source expected => exact h.finish rfl trivial
    · cases hfault : fault.error? with
      | some error =>
        simp only [hfault] at hstep
        obtain ⟨rfl, rfl⟩ := Prod.mk.inj (Option.some.inj hstep)
        exact h.writeFailed error writer
      | none =>
        simp only [hfault] at hstep
        obtain ⟨rfl, rfl⟩ := Prod.mk.inj (Option.some.inj hstep)
        cases writer with
        | engage reason source => exact h.goto rfl rfl (by simp [Pc.reader?, Writer.verification])
        | release reason source expected =>
          refine h.goto rfl rfl fun hreader hne => ?_
          obtain ⟨rfl, rfl⟩ := Reader.released.inj (Option.some.inj hreader)
          have hcurrent := h.current (.inr hpc)
          rw [hpc] at hcurrent
          exact hcurrent hne

theorem Exact.begin {latch : Latch} {proc : Process} (h : Exact env latch proc) (call : Call) :
    Exact env latch (begin proc call) := by
  cases call with
  | status => exact h.goto rfl rfl (by simp [Pc.reader?])
  | boundary => exact h.goto rfl rfl (by simp [Pc.reader?])
  | engage reason source =>
    exact ⟨by simp [Emergency.begin, Process.goto], fun _ hne => absurd rfl hne,
      by simp [Emergency.begin, Process.goto, Pc.reader?], h.history⟩
  | clear confirmed reason source expected =>
    cases confirmed with
    | true => exact h.goto rfl rfl (by simp [Pc.reader?])
    | false => exact h.finish rfl trivial

/-- Only a replacement changes the latch. -/
theorem advance_latch {disk disk' : Disk} {proc proc' : Process} {fault : Fault} {stamp : Stamp}
    (hstep : advance env disk proc fault stamp = some (disk', proc')) : disk'.latch = disk.latch ∨
      ∃ writer, proc.pc = .replace writer ∧ fault.acts = true ∧ writer.texts.isSome = true := by
  rw [Emergency.advance] at hstep
  split at hstep
  case h_1 => cases hstep
  case h_2 =>
    split at hstep <;> obtain ⟨rfl, -⟩ := Prod.mk.inj (Option.some.inj hstep) <;> exact .inl rfl
  case h_3 =>
    obtain ⟨rfl, -⟩ := Prod.mk.inj (Option.some.inj hstep)
    exact .inl rfl
  case h_4 =>
    split at hstep <;> obtain ⟨rfl, -⟩ := Prod.mk.inj (Option.some.inj hstep) <;> exact .inl rfl
  case h_5 writer hpc =>
    have hmarker : (if fault.acts then ensureInitializedMarker disk else disk).latch = disk.latch := by
      split
      · exact ensureInitializedMarker_latch disk
      · rfl
    cases hfault : fault.error? <;> simp only [hfault] at hstep <;>
      obtain ⟨rfl, -⟩ := Prod.mk.inj (Option.some.inj hstep) <;> exact .inl hmarker
  case h_6 writer hpc =>
    split at hstep
    · split at hstep <;> obtain ⟨rfl, -⟩ := Prod.mk.inj (Option.some.inj hstep) <;> exact .inl rfl
    · next htexts =>
      by_cases hacts : fault.acts = true
      · exact .inr ⟨writer, hpc, hacts, by rw [htexts]; rfl⟩
      · cases hfault : fault.error? <;> simp only [hfault, if_neg hacts] at hstep <;>
          obtain ⟨rfl, -⟩ := Prod.mk.inj (Option.some.inj hstep) <;> exact .inl rfl

/-- **A step of the world.** -/
theorem exact_step {w w' : World} {label : Label} (hok : Undisturbed env w label)
    (hstep : step env w label = some w') (h : ∀ p, Exact env w.disk.latch (w.process p)) :
    ∀ p, Exact env w'.disk.latch (w'.process p) := by
  intro q
  obtain ⟨hfresh, hundisturbed⟩ := hok
  cases label with
  | call p call =>
    rw [step] at hstep
    split at hstep
    · obtain rfl := Option.some.inj hstep
      by_cases hq : q = p
      · subst hq
        simp only [World.setProcess, Function.update_self]
        exact (h q).begin call
      · simp only [World.setProcess, Function.update_of_ne hq]
        exact h q
    · cases hstep
  | advance p fault stamp =>
    rw [step, Option.map_eq_some_iff] at hstep
    obtain ⟨⟨disk, proc⟩, hadvance, rfl⟩ := hstep
    by_cases hq : q = p
    · subst hq
      simp only [World.setProcess, Function.update_self]
      exact (h q).advance hfresh hadvance
    · simp only [World.setProcess, Function.update_of_ne hq]
      refine (h q).congr fun hne => ?_
      rcases advance_latch hadvance with hlatch | hchanges
      · exact hlatch
      · exact absurd hchanges (hundisturbed q hne fun heq => hq (Option.some.inj heq).symm)
  | outside disk =>
    obtain rfl := Option.some.inj hstep
    exact (h q).congr fun hne => not_not.mp (hundisturbed q hne (by simp [Label.process?]))

/-! ## Every run -/

/-- The revision that the release of a process expects, from its call to its replacement. -/
def Pc.release? : Pc → Option String
  | .latch (.release _ _ expected) | .marker (.release _ _ expected) | .read (.release _ _ expected)
  | .prepare (.release _ _ expected) | .replace (.release _ _ expected) => some (strip expected)
  | _ => none

/-- **A release replaces the document it expects**, in any interleaving of the processes.  Each
release that has returned ok has replaced a latch of the revision it expected; and while a
stop of another revision is the latch, no step of a release takes it away, and every process
that reads it reports active. -/
theorem release_replaces_expected {w₀ w : World} {labels : List Label} (hw : w₀.Initial)
    (h : Run (step env) (Undisturbed env) w₀ labels w) :
    (∀ p, ∀ outcome ∈ (w.process p).history, ∀ {replaced status},
      outcome = .released replaced (.ok (.status true status)) →
        ∃ expected latch, replaced = some (expected, latch) ∧
          (strip expected ≠ "" → HasRevision env latch (strip expected))) ∧
    ∀ {p fault stamp w'}, step env w (.advance p fault stamp) = some w' →
      ∀ {expected}, (w.process p).pc.release? = some expected → expected ≠ "" →
      ∀ {payload status}, w.disk.latch = .file (.json payload) → readDocument env payload = some status →
      status.active = true → status.revision ≠ expected →
        w'.disk.latch = .file (.json payload) ∧
        ∀ proc, (report (observe proc status) status).active = true := by
  have hexact : ∀ p, Exact env w.disk.latch (w.process p) := h.invariant exact_step (fun p => by
    rw [hw p]
    exact exact_empty _)
  refine ⟨fun p outcome houtcome replaced status heq => ?_, ?_⟩
  · have hreleased := (hexact p).history outcome houtcome
    subst heq
    cases replaced with
    | none => cases hreleased
    | some r => exact ⟨r.1, r.2, rfl, hreleased⟩
  · intro p fault stamp w' hstep expected hrelease hne payload status hlatch hread hactive hother
    rw [step, Option.map_eq_some_iff] at hstep
    obtain ⟨⟨disk, proc⟩, hadvance, rfl⟩ := hstep
    refine ⟨?_, fun proc => report_of_active hactive⟩
    rcases advance_latch hadvance with hkept | ⟨writer, hpc, -⟩
    · exact hkept.trans hlatch
    · have hcurrent := (hexact p).current (.inr hpc)
      rw [hpc] at hrelease hcurrent
      cases writer with
      | engage reason source => cases hrelease
      | release reason source e =>
        obtain rfl := Option.some.inj hrelease
        have hrevision := hcurrent hne
        rw [hlatch] at hrevision
        exact absurd (hrevision.of_document hread) hother

/-! ## Runs that can be evaluated -/

variable (env) in
/-- A step of one of the first `n` processes, while no other of them has a release that has seen
the latch. -/
def alone (n : ℕ) (w : World) : Label → Bool
  | .call p _ => p < n
  | .advance p _ _ =>
    p < n && (List.range n).all (fun q => q = p || (w.process q).pc.expects = "") &&
      match (w.process p).pc.sees w.disk with
      | some (.release _ _ _, seen) =>
        match durableEmergencyStopStatus env seen with
        | .ok durable => durable.active || (w.process p).stickyFailClosedReason ≠ "" ||
            (w.process p).stickyActiveRevision = ""
        | .error _ => true
      | _ => true
  | .outside _ => false

theorem alone_undisturbed {n : ℕ} {w : World} {label : Label} (h : alone env n w label = true)
    (hrest : ∀ p, n ≤ p → w.process p = {}) : Undisturbed env w label := by
  cases label with
  | call p call => exact ⟨trivial, fun _ _ _ => id⟩
  | advance p fault stamp =>
    simp only [alone, Bool.and_eq_true, List.all_eq_true, List.mem_range, Bool.or_eq_true,
      decide_eq_true_eq] at h
    obtain ⟨⟨-, hothers⟩, hfresh⟩ := h
    constructor
    · intro reason source expected seen durable hsees hne hread
      rw [hsees] at hfresh
      simpa only [hread, Bool.or_eq_true, decide_eq_true_eq, or_assoc] using hfresh
    · intro q hne hq _
      by_cases hlt : q < n
      · rcases hothers q hlt with heq | hempty
        · exact hq (congrArg some heq.symm)
        · exact hne hempty
      · rw [hrest q (not_lt.mp hlt)] at hne
        exact hne rfl
  | outside disk => cases h

/-- The processes that make no call stay as they are. -/
theorem alone_rest {n : ℕ} {w w' : World} {label : Label} (h : alone env n w label = true)
    (hstep : step env w label = some w') (hrest : ∀ p, n ≤ p → w.process p = {}) :
    ∀ p, n ≤ p → w'.process p = {} := by
  intro q hq
  cases label with
  | call p call =>
    have hp : p < n := of_decide_eq_true h
    rw [step] at hstep
    split at hstep
    · obtain rfl := Option.some.inj hstep
      simp only [World.setProcess]
      rw [Function.update_of_ne (by omega)]
      exact hrest q hq
    · cases hstep
  | advance p fault stamp =>
    simp only [alone, Bool.and_eq_true, decide_eq_true_eq] at h
    obtain ⟨⟨hp, -⟩, -⟩ := h
    rw [step, Option.map_eq_some_iff] at hstep
    obtain ⟨⟨disk, proc⟩, -, rfl⟩ := hstep
    simp only [World.setProcess]
    rw [Function.update_of_ne (by omega)]
    exact hrest q hq
  | outside disk => cases h

theorem undisturbed_of_alone {n : ℕ} {w w' : World} {labels : List Label}
    (h : Run (step env) (fun w label => alone env n w label = true) w labels w')
    (hrest : ∀ p, n ≤ p → w.process p = {}) : Run (step env) (Undisturbed env) w labels w' := by
  induction h with
  | nil w => exact .nil w
  | cons hok hstep _ ih => exact .cons (alone_undisturbed hok hrest) hstep (ih (alone_rest hok hstep hrest))

/-! ## Two runs -/

/-- A stop of the revision `#b` is engaged by one process. -/
def sampleEngage : List Label :=
  [.call 1 (.engage [104] []), .advance 1 .none sampleStamp, .advance 1 .none sampleStamp,
    .advance 1 .none sampleStamp, .advance 1 .none sampleStamp]

/-- The rest of a release, after its status. -/
def sampleReplace : List Label :=
  [.advance 0 .none ⟨"2026-10-15T02:00:00Z", 1, "c"⟩, .advance 0 .none ⟨"2026-10-15T02:00:00Z", 1, "c"⟩,
    .advance 0 .none sampleStamp, .advance 0 .none sampleStamp]

/-- A release up to its status. -/
def sampleRelease (expected : String) : List Label :=
  [.call 0 (.clear true [] [] expected), .advance 0 .none sampleStamp, .advance 0 .none sampleStamp]

/-- What the release of a history has replaced, where it has returned ok. -/
def replacedRevision : List Outcome → Option String
  | [.released (some (_, .file (.json payload))) (.ok (.status true _))] =>
    (readDocument Env.sample payload).map (·.revision)
  | _ => none

/-- The stop that another process has engaged is released by its revision. -/
theorem release_replaces_expected_sample : ∃ w,
    runAll (fun w label => if alone Env.sample 2 w label then step Env.sample w label else none) sampleWorld
      (sampleEngage ++ sampleRelease "#b" ++ sampleReplace) = some w ∧
    replacedRevision (w.process 0).history = some "#b" ∧
    ∀ p, ∀ outcome ∈ (w.process p).history, ∀ {replaced status},
      outcome = .released replaced (.ok (.status true status)) →
        ∃ expected latch, replaced = some (expected, latch) ∧
          (strip expected ≠ "" → HasRevision Env.sample latch (strip expected)) := by
  obtain ⟨w, hw, hreplaced⟩ : ∃ w,
      runAll (fun w label => if alone Env.sample 2 w label then step Env.sample w label else none) sampleWorld
        (sampleEngage ++ sampleRelease "#b" ++ sampleReplace) = some w ∧
      replacedRevision (w.process 0).history = some "#b" := by
    decide
  exact ⟨w, hw, hreplaced, (release_replaces_expected (fun _ => rfl)
    (undisturbed_of_alone (run_of_guarded hw) fun _ _ => rfl)).1⟩

/-- A latch that is on, with the revision `#a`. -/
def sampleStopped : World where
  disk := { sampleDisk with
    latch := .file (.json (.obj (document true "halt" "desktop" ⟨"2026-10-15T00:00:00Z", 1, "a"⟩))) }
  process _ := {}

/-- **A newer stop can be released.**  It is engaged between the status of a release and its
replacement. -/
theorem sample_newer_stop_released : ∃ w, Run (step Env.sample) Free sampleStopped
    (sampleRelease "#a" ++ sampleEngage ++ sampleReplace) w ∧
    ∃ expected latch status,
      .released (some (expected, latch)) (.ok (.status true status)) ∈ (w.process 0).history ∧
      strip expected ≠ "" ∧ ¬ HasRevision Env.sample latch (strip expected) := by
  obtain ⟨w, hw, hreplaced⟩ : ∃ w, runAll (step Env.sample) sampleStopped
      (sampleRelease "#a" ++ sampleEngage ++ sampleReplace) = some w ∧
      (match (w.process 0).history with
        | [.released (some (expected, .file (.json payload))) (.ok (.status true _))] =>
          strip expected = "#a" && (readDocument Env.sample payload).map (·.revision) = some "#b"
        | _ => false) = true := by
    decide
  refine ⟨w, free_of_runAll hw, ?_⟩
  split at hreplaced
  · next expected payload status hhistory =>
    rw [Bool.and_eq_true, decide_eq_true_eq, decide_eq_true_eq] at hreplaced
    obtain ⟨hexpected, hrevision⟩ := hreplaced
    obtain ⟨read, hread, hb⟩ := Option.map_eq_some_iff.mp hrevision
    refine ⟨expected, _, status, by rw [hhistory]; exact List.mem_singleton_self _, ?_, fun hsame => ?_⟩
    · rw [hexpected]
      decide
    · have heq := hsame.of_document hread
      rw [hb, hexpected] at heq
      exact absurd heq (by decide)
  · cases hreplaced

end LiveTrader.Emergency
