/-
# `Boundary.Steps` — what one step does to the table, a thread and the log

`Row.Later` says how a stored row can differ from what it was: only its state, and
never back to waiting.  Each operation gets one lemma that says so (`stage_eq_ok`,
`compareAndSet_cases`), `screen_ready` reads off what a row has passed that is handed
to `prepare`, and `step_cases` lists the steps of the whole system.
-/
import LiveTrader.Boundary.System

namespace LiveTrader.Boundary

open Lib Lib.Py Lib.Runs

variable {env : Env} {q q' : Queue} {o : String} {s s' : System}

/-! ## Rows over time -/

/-- What a row can have become. -/
structure Row.Later (row row' : Row) : Prop where
  same : row' = { row with state := row'.state }
  armed : row'.state = .waitOpenBoundary → row.state = .waitOpenBoundary

namespace Row.Later

variable {row row' row'' : Row}

theorem refl (row : Row) : row.Later row := ⟨rfl, id⟩

theorem trans (h : row.Later row') (h' : row'.Later row'') : row.Later row'' := by
  refine ⟨?_, fun hw => h.armed (h'.armed hw)⟩
  rw [h'.same, h.same]

theorem owner (h : row.Later row') : row'.owner = row.owner := by rw [h.same]

theorem payload (h : row.Later row') : row'.payload = row.payload := by rw [h.same]

end Row.Later

/-- No row is lost, and each is later than it was. -/
def Kept (q q' : Queue) : Prop :=
  ∀ key row, q.get? key = some row → ∃ row', q'.get? key = some row' ∧ row.Later row'

namespace Kept

theorem refl (q : Queue) : Kept q q := fun _ row h => ⟨row, h, .refl row⟩

theorem trans {q'' : Queue} (h : Kept q q') (h' : Kept q' q'') : Kept q q'' := by
  intro key row hrow
  obtain ⟨row', hrow', hlater⟩ := h key row hrow
  obtain ⟨row'', hrow'', hlater'⟩ := h' key row' hrow'
  exact ⟨row'', hrow'', hlater.trans hlater'⟩

theorem insert {row : Row} (h : q.insert row = some q') : Kept q q' := by
  intro key old hold
  exact ⟨old, Table.get?_insert_of_some h hold, .refl old⟩

theorem update {state : RowState} (hstate : state ≠ .waitOpenBoundary) (key : String) :
    Kept q (q.update key (Row.moved state) (Row.moved_key state)) := by
  intro key' row hrow
  rw [Table.get?_update, hrow]
  refine ⟨_, rfl, ?_⟩
  dsimp only
  split
  · exact ⟨rfl, fun h => absurd h hstate⟩
  · exact .refl row

end Kept

/-! ## The transactions -/

/-- A transaction of `stage` that inserts a row inserts the sealed payload as waiting. -/
theorem stage_eq_ok {decision : Decision} {spec : Spec} {deploymentId : String} {row : Row}
    {state : RowState}
    (h : stage env o q decision spec deploymentId = .ok (q', some row, state)) :
    q.insert row = some q' ∧ row.owner = o ∧ row.evaluationKey = row.payload.evaluationKey ∧
      row.evaluationKey = decision.evaluationKey := by
  simp only [stage, bind_eq_ok, require_eq_ok] at h
  obtain ⟨-, -, payload, hpayload, h⟩ := h
  have hkey : payload.evaluationKey = decision.evaluationKey := by
    simp only [decisionPayload, bind_eq_ok, pure_eq_ok] at hpayload
    obtain ⟨_, -, _, -, _, -, rfl⟩ := hpayload
    rfl
  split at h
  · simp only [bind_eq_ok, pure_eq_ok] at h
    obtain ⟨_, -, _, -, h⟩ := h
    cases h
  · simp only [bind_eq_ok, pure_eq_ok, orRaise_eq_ok] at h
    obtain ⟨q'', hinsert, h⟩ := h
    cases h
    exact ⟨hinsert, rfl, rfl, hkey⟩

/-- A compare-and-set either does nothing or moves one row of the owner. -/
theorem compareAndSet_cases (q : Queue) (key owner : String) (old new : RowState) :
    compareAndSet q key owner old new = (q, false) ∨
    ∃ row, q.get? key = some row ∧ row.owner = owner ∧ row.state = old ∧
      compareAndSet q key owner old new = (q.update key (Row.moved new) (Row.moved_key new), true) := by
  rw [compareAndSet]
  cases hrow : q.get? key with
  | none => exact .inl rfl
  | some row =>
    dsimp only
    split
    · next h => exact .inr ⟨row, rfl, h.1, h.2, rfl⟩
    · exact .inl rfl

/-- A consumed row was waiting, belongs to the owner, and is claimed from now on. -/
theorem claim_eq_true {key : String} (h : claim q o key = (q', true)) :
    ∃ row, q.get? key = some row ∧ row.owner = o ∧ row.state = .waitOpenBoundary ∧
      q'.get? key = some { row with state := .boundaryClaimed } ∧ Kept q q' := by
  rcases compareAndSet_cases q key o .waitOpenBoundary .boundaryClaimed with hc | ⟨row, hrow, ho, hw, hc⟩
  · rw [claim, hc] at h
    cases h
  · rw [claim, hc] at h
    cases h
    exact ⟨row, hrow, ho, hw, Table.get?_update_self _ _ hrow, .update (by decide) key⟩

theorem record_kept (q : Queue) (owner key : String) (result : Fields) :
    Kept q (record q owner key result) := by
  rw [record]
  rcases compareAndSet_cases q key owner .boundaryClaimed (resultState result) with
    hc | ⟨row, hrow, ho, hw, hc⟩
  · rw [hc]
    exact .refl q
  · rw [hc]
    refine .update ?_ key
    rw [resultState]
    split <;> decide

theorem mem_waiting {row : Row} (h : row ∈ waiting q) : row ∈ q.rows := by
  rw [waiting, List.mem_insertionSort] at h
  exact List.mem_of_mem_filter h

/-! ## The checks -/

/-- What the source demands of a boundary before `prepare` is called: the stream and the
start that were staged, a real-time source, and an age of at most 30 seconds both
when the feed saw the boundary and when it is released. -/
structure Timely (env : Env) (p : Preparation) : Prop where
  stream : p.boundary.stream = p.payload.stream
  start : ∃ start expected observed, env.time p.boundary.startTime = .ok start ∧
    env.time p.payload.expectedStart = .ok expected ∧ expected.micros = start.micros ∧
    env.time p.boundary.observedTime = .ok observed ∧
    0 ≤ observed.micros - start.micros ∧
    observed.micros - start.micros ≤ Datetime.seconds 30 ∧
    0 ≤ p.now.micros - start.micros ∧ p.now.micros - start.micros ≤ Datetime.seconds 30
  live : p.boundary.recoveryOnly = false ∧ p.boundary.promotionEligible = true
  attested : attestationOf p.payload.provider = some p.boundary.attestation
  source : p.boundary.sourceProvider = p.payload.provider

theorem fresh_eq_true {c : Call} {start : Datetime} (h : fresh env c start = .ok true) :
    ∃ observed, env.time c.boundary.observedTime = .ok observed ∧
      0 ≤ observed.micros - start.micros ∧
      observed.micros - start.micros ≤ Datetime.seconds 30 ∧
      0 ≤ c.now.micros - start.micros ∧ c.now.micros - start.micros ≤ Datetime.seconds 30 := by
  simp only [fresh, bind_eq_ok] at h
  obtain ⟨observed, hobserved, lag, hlag, h⟩ := h
  obtain ⟨-, rfl⟩ := Datetime.sub_eq_ok.mp hlag
  split at h
  · next hin =>
    simp only [bind_eq_ok, pure_eq_ok] at h
    obtain ⟨age, hage, hage'⟩ := h
    obtain ⟨-, rfl⟩ := Datetime.sub_eq_ok.mp hage
    simp only [within30, Bool.and_eq_true, decide_eq_true_eq] at hin hage'
    exact ⟨observed, hobserved, hin.1, hin.2, hage'.1, hage'.2⟩
  · rw [pure_eq_ok] at h
    cases h

/-- A row that is ready belongs to the caller and fits the boundary. -/
theorem screen_ready {c : Call} {row : Row} {spec : Spec}
    (h : screen env o c row = .ok (.ready spec)) :
    row.owner = o ∧ Timely env ⟨o, row.payload, spec, c.boundary, c.now⟩ := by
  rw [screen] at h
  split at h
  · cases h
  next hstream =>
  simp only [ne_eq, not_not] at hstream
  simp only [bind_eq_ok, require_eq_ok] at h
  obtain ⟨-, howner, -, -, expected, hexpected, start, hstart, h⟩ := h
  refine ⟨howner, ?_⟩
  split at h
  · cases h
  split at h
  · cases h
  next spec' hspec =>
  split at h
  · cases h
  split at h
  · cases h
  next hsame =>
  split at h
  · cases h
  next hcurrent =>
  split at h
  · cases h
  next hlive =>
  simp only [bind_eq_ok, pure_eq_ok] at h
  obtain ⟨timely, htimely, h⟩ := h
  cases timely with
  | false => cases h
  | true =>
    cases h
    obtain ⟨observed, hobserved, h1, h2, h3, h4⟩ := fresh_eq_true htimely
    simp only [ne_eq, not_not] at hsame hcurrent
    simp only [not_or, ne_eq, not_not, Bool.not_eq_true, Bool.not_eq_false] at hlive
    obtain ⟨hrecovery, heligible, hattested, hsource⟩ := hlive
    -- the provider of the current specification is the staged one
    have hprovider : spec.provider = row.payload.provider :=
      congrArg Prod.fst (hcurrent.symm.trans hstream.symm)
    rw [hprovider] at hattested hsource
    exact {
      stream := hstream.symm
      start := ⟨start, expected, observed, hstart, hexpected, hsame, hobserved, h1, h2, h3, h4⟩
      live := ⟨hrecovery, heligible⟩
      attested := hattested.symm
      source := hsource }

/-! ## The steps -/

/-- The rows a thread still refers to. -/
def Thread.rows : Thread → List Row
  | .idle => []
  | .releasing _ rest => rest
  | .consumed _ c rest => c.row :: rest
  | .preparing _ _ rest => rest
  | .answered _ _ _ rest => rest

/-- The call of `prepare` a thread is about to make. -/
def Thread.ready (o : String) : Thread → Option Preparation
  | .consumed call ⟨row, .inr spec⟩ _ => some ⟨o, row.payload, spec, call.boundary, call.now⟩
  | _ => none

/-- The steps of the system. -/
inductive Step (env : Env) (s : System) : Action → System → Prop
  /-- Nothing that matters changes. -/
  | stay (a : Action) : Step env s a s
  | openQueue (o : String) : o ∉ s.drawn → Step env s (.openQueue o)
      { s with drawn := o :: s.drawn, alive := fun o' => o' = o || s.alive o' }
  | crash (o : String) : Step env s (.crash o) (Boundary.crash s o)
  | stage {o : String} {row : Row} {q : Queue} (decision : Decision) (spec : Spec)
      (deploymentId : String) (written : Bool) :
      s.queue.insert row = some q → row.owner = o →
      row.evaluationKey = row.payload.evaluationKey → row.evaluationKey = decision.evaluationKey →
      Step env s (.stage o decision spec deploymentId written)
        ((s.write q).note (.staged o row.payload))
  /-- A thread moves on without touching the table or calling `prepare`. -/
  | move {a : Action} (o : String) (n : ℕ) (t : Thread) :
      (∀ row ∈ t.rows, row ∈ (s.thread o n).rows ∨ row ∈ s.queue.rows) → t.ready o = none →
      Step env s a (s.setThread o n t)
  | consume {o : String} {n : ℕ} {call : Call} {row : Row} {rest : List Row} {q : Queue}
      (verdict : String ⊕ Spec) :
      s.thread o n = .releasing call (row :: rest) →
      (∀ spec, verdict = .inr spec → screen env o call row = .ok (.ready spec)) →
      claim s.queue o row.evaluationKey = (q, true) →
      Step env s (.consume o n true) ((s.write q).setThread o n (.consumed call ⟨row, verdict⟩ rest))
  | prepare {o : String} {n : ℕ} {call : Call} {row : Row} {spec : Spec} {rest : List Row} :
      s.thread o n = .consumed call ⟨row, .inr spec⟩ rest →
      Step env s (.act o n) ((s.setThread o n (.preparing call row.evaluationKey rest)).note
        (.prepared ⟨o, row.payload, spec, call.boundary, call.now⟩))
  | record {o : String} {n : ℕ} {call : Call} {key : String} {result : Fields} {rest : List Row} :
      s.thread o n = .answered call key result rest →
      Step env s (.record o n true)
        ((s.write (Boundary.record s.queue o key result)).setThread o n (.releasing call rest))

/-- A call of `stage` changes nothing or inserts a row under the key of the decision. -/
theorem stageAt_cases {decision : Decision} {spec : Spec} {deploymentId : String} {written : Bool}
    (h : stageAt env s o decision spec deploymentId written = some s') :
    s' = s ∨ ∃ row q, s.queue.insert row = some q ∧ row.owner = o ∧
      row.evaluationKey = row.payload.evaluationKey ∧ row.evaluationKey = decision.evaluationKey ∧
      s' = (s.write q).note (.staged o row.payload) := by
  unfold stageAt at h
  split at h
  · split at h
    · next q row state hstage =>
      cases h
      obtain ⟨hinsert, howner, hkey, hdecision⟩ := stage_eq_ok hstage
      exact .inr ⟨row, q, hinsert, howner, hkey, hdecision, rfl⟩
    · cases h
      exact .inl rfl
  · cases h

theorem step_next {o : String} {n : ℕ} {call : Call} {row : Row} {rest : List Row} {a : Action}
    (hthread : s.thread o n = .releasing call (row :: rest)) :
    Step env s a (s.setThread o n (.releasing call rest)) := by
  refine .move o n _ ?_ rfl
  intro row' hrow'
  rw [hthread]
  exact .inl (List.mem_cons_of_mem row hrow')

/-- The consuming transaction fails, finds its row taken, or takes it. -/
theorem step_take {o : String} {n : ℕ} {call : Call} {row : Row} {rest : List Row} {written : Bool}
    (hthread : s.thread o n = .releasing call (row :: rest)) (verdict : String ⊕ Spec)
    (hverdict : ∀ spec, verdict = .inr spec → screen env o call row = .ok (.ready spec)) :
    Step env s (.consume o n written) (take s o n written call row rest verdict) := by
  unfold take
  split
  · exact .move o n .idle (fun row hrow => by cases hrow) rfl
  · exact step_next hthread
  · next q hclaim => exact .consume verdict hthread hverdict hclaim

/-- Every step is one of these. -/
theorem step_cases {a : Action} (h : step env s a = some s') : Step env s a s' := by
  cases a with
  | openQueue o =>
    rw [step, openQueue] at h
    split at h
    · cases h
    · next hnew =>
      cases h
      exact .openQueue o hnew
  | crash o =>
    cases h
    exact .crash o
  | stage o decision spec deploymentId written =>
    rcases stageAt_cases h with rfl | ⟨row, q, hinsert, howner, hkey, hdecision, rfl⟩
    · exact .stay _
    · exact .stage decision spec deploymentId written hinsert howner hkey hdecision
  | release o n call =>
    rw [step, release] at h
    split at h
    · split at h
      · cases h
        exact .move o n _ (fun row hrow => .inr (mem_waiting hrow)) rfl
      · cases h
    · cases h
  | consume o n written =>
    rw [step, consume] at h
    split at h
    · next call row rest hthread =>
      split at h
      · cases h
        exact .move o n .idle (fun row hrow => by cases hrow) rfl
      · cases h
        exact step_next hthread
      · next reason _ =>
        cases h
        exact step_take hthread (.inl reason) fun spec hspec => by cases hspec
      · next spec hscreen =>
        cases h
        refine step_take hthread (.inr spec) fun spec' hspec => ?_
        cases hspec
        exact hscreen
    · cases h
      exact .move o n .idle (fun row hrow => by cases hrow) rfl
    · cases h
  | act o n =>
    rw [step, act] at h
    split at h
    · next call row reason rest hthread =>
      cases h
      refine .move o n _ ?_ rfl
      intro row' hrow'
      rw [hthread]
      exact .inl (List.mem_cons_of_mem row hrow')
    · next hthread =>
      cases h
      exact .prepare hthread
    · cases h
  | reply o n r =>
    rw [step, reply] at h
    split at h
    · next call key rest hthread =>
      split at h
      · cases h
        refine .move o n _ ?_ rfl
        intro row hrow
        rw [hthread]
        exact .inl hrow
      · cases h
        exact .move o n .idle (fun row hrow => by cases hrow) rfl
    · cases h
  | record o n written =>
    rw [step, recordAt] at h
    split at h
    · next hthread =>
      split at h
      · next hwritten =>
        cases h
        subst hwritten
        exact .record hthread
      · cases h
        exact .move o n .idle (fun row hrow => by cases hrow) rfl
    · cases h

/-- No step loses a row or arms one again. -/
theorem Step.kept {a : Action} (h : Step env s a s') : Kept s.queue s'.queue := by
  cases h with
  | stay => exact .refl _
  | openQueue => exact .refl _
  | crash => exact .refl _
  | stage decision spec deploymentId written hinsert => exact .insert hinsert
  | move => exact .refl _
  | consume verdict hthread hverdict hclaim =>
    obtain ⟨_, _, _, _, _, hkept⟩ := claim_eq_true hclaim
    exact hkept
  | prepare => exact .refl _
  | record => exact record_kept _ _ _ _

end LiveTrader.Boundary
