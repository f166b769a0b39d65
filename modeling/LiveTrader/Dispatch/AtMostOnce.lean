/-
# `Dispatch.AtMostOnce` — no command is handed to `submit` twice

The runs of this module are wider than those of the controllers alone: a living
controller may also call the journal's methods directly, with any arguments, and
`dispatch` with any command id (`Call`).

The invariant ties what was submitted to the row.  A row whose command was
submitted, or is about to be, has left the queue; the queue is only entered by
the insert; and a thread between its claim and the permission check is the only
one of its kind for its command.
-/
import LiveTrader.Dispatch.Steps

namespace LiveTrader.Dispatch

open Lib.Py Lib.Runs

/-! ## Direct calls -/

inductive Call where
  | act (a : Action)
  /-- `IntentJournal.enqueue` outside a cycle, with the authority it happened to read. -/
  | enqueue (o : String) (authority : Authority) (intent : OrderIntent)
  /-- `IntentJournal.claim` by a caller that submits nothing. -/
  | claim (o : String) (id : String)
  | finish (o : String) (id : String) (outcome : Outcome) (result : Fields)
  /-- `ContinuousDispatcher.dispatch` by a thread outside any cycle. -/
  | dispatch (o : String) (n : ℕ) (id : String)

def callStep (codec : Codec) (s : System) : Call → Option System
  | .act a => step codec s a
  | .enqueue o authority intent => do
    let _ ← s.live o
    match draft codec authority o intent with
    | .error _ => some s
    | .ok d =>
      let (j, created) := insertDraft s.journal d
      some (if created then (s.write j).note (.created d.commandId) else s.write j)
  | .claim o id => do
    let (_, c) ← s.live o
    match claim codec c.authority o s.journal id with
    | .ok (j, some _) => some ((s.write j).note (.claimed id))
    | .ok (j, none) => some (s.write j)
    | .error _ => some s
  | .finish o id outcome result => do
    let _ ← s.live o
    match finish codec o s.journal id outcome result with
    | .ok j => some ((s.write j).note (.recorded id outcome))
    | .error _ => some s
  | .dispatch o n id => do
    let _ ← s.live o
    match s.thread o n with
    | .idle => some (s.setThread o n (.dispatching [id]))
    | _ => none

/-- The controller that makes a call on the journal. -/
def Call.actor : Call → String
  | .act (.endEnqueue o _ _) | .act (.abort o _ _) | .act (.claim o _ _) | .act (.record o _ _)
  | .act (.fallback o _ _) | .act (.reconcile o _) | .enqueue o _ _ | .claim o _
  | .finish o _ _ _ => o
  | _ => ""

/-! ## What was seen -/

/-- How often the command was handed to `submit`. -/
def submissions (log : List Event) (id : String) : ℕ :=
  log.countP fun e => match e with
    | .submitted id' => id' = id
    | _ => false

/-- How often a row was created under the id. -/
def creations (log : List Event) (id : String) : ℕ :=
  log.countP fun e => match e with
    | .created id' => id' = id
    | _ => false

/-- Neither a creation nor a submission. -/
def Event.Quiet : Event → Prop
  | .created _ | .submitted _ => False
  | _ => True

theorem submissions_append (log log' : List Event) (id : String) :
    submissions (log ++ log') id = submissions log id + submissions log' id :=
  List.countP_append

theorem creations_append (log log' : List Event) (id : String) :
    creations (log ++ log') id = creations log id + creations log' id :=
  List.countP_append

theorem submissions_quiet {log : List Event} (h : ∀ e ∈ log, e.Quiet) (id : String) :
    submissions log id = 0 := by
  refine List.countP_eq_zero.mpr fun e he => ?_
  have := h e he
  cases e <;> simp_all [Event.Quiet]

theorem creations_quiet {log : List Event} (h : ∀ e ∈ log, e.Quiet) (id : String) :
    creations log id = 0 := by
  refine List.countP_eq_zero.mpr fun e he => ?_
  have := h e he
  cases e <;> simp_all [Event.Quiet]

/-! ## The invariant -/

/-- The thread has claimed the row and not yet checked its permission. -/
def Armed (s : System) (o : String) (n : ℕ) (id : String) : Prop :=
  ∃ row handed rest, s.thread o n = .attempting ⟨row, handed, .claimed⟩ rest ∧ row.commandId = id

/-- The row has left the queue. -/
def Taken (j : Journal) (id : String) : Prop := ∃ row, j.row? id = some row ∧ row.state ≠ .queued

structure AtMostOnce (s : System) : Prop where
  /-- What was submitted has left the queue. -/
  taken : ∀ id, 0 < submissions s.log id → Taken s.journal id
  once : ∀ id, submissions s.log id ≤ 1
  /-- What is about to be submitted has left the queue and was not submitted yet. -/
  armed : ∀ {o n id}, Armed s o n id → Taken s.journal id ∧ submissions s.log id = 0
  alone : ∀ {o n o' n' id}, Armed s o n id → Armed s o' n' id → o = o' ∧ n = n'
  /-- What was created is there. -/
  stored : ∀ id, 0 < creations s.log id → ∃ row, s.journal.row? id = some row
  created : ∀ id, creations s.log id ≤ 1

theorem AtMostOnce.init : AtMostOnce .init where
  taken _ h := absurd h (Nat.lt_irrefl 0)
  once _ := Nat.zero_le _
  armed := by rintro o n id ⟨row, handed, rest, h, -⟩; cases h
  alone := by rintro o n o' n' id ⟨row, handed, rest, h, -⟩; cases h
  stored _ h := absurd h (Nat.lt_irrefl 0)
  created _ := Nat.zero_le _

/-! ## Effects

What a call can do to the log, to the threads that hold a claim and to the rows,
as far as the invariant looks. -/

inductive Effect (s s' : System) : Prop
  /-- Rows move, nothing is created, claimed for a thread or submitted. -/
  | quiet (o : String) (log : List Event) : Advances o s.journal s'.journal →
      s'.log = s.log ++ log → (∀ e ∈ log, e.Quiet) →
      (∀ o n id, Armed s' o n id → Armed s o n id) → Effect s s'
  | create (id : String) (row : Row) : s.journal.row? id = none →
      (∀ key, s'.journal.row? key = if key = id then some row else s.journal.row? key) →
      s'.log = s.log ++ [.created id] → (∀ o n id, Armed s' o n id → Armed s o n id) → Effect s s'
  | claim (o : String) (n : ℕ) (id : String) (row : Row) : s.journal.row? id = some row →
      row.state = .queued → s'.journal = s.journal.update id .dispatching none →
      s'.log = s.log ++ [.claimed id] →
      (∀ o' n' id', Armed s' o' n' id' → Armed s o' n' id' ∨ (o' = o ∧ n' = n ∧ id' = id)) →
      Effect s s'
  | submit (o : String) (n : ℕ) (id : String) : Armed s o n id → s'.journal = s.journal →
      s'.log = s.log ++ [.submitted id] →
      (∀ o' n' id', Armed s' o' n' id' → Armed s o' n' id' ∧ ¬(o' = o ∧ n' = n)) → Effect s s'

theorem Taken.advances {o id : String} {j j' : Journal} (h : Taken j id) (hadv : Advances o j j') :
    Taken j' id := by
  obtain ⟨row, hrow, hstate⟩ := h
  obtain ⟨row', hrow', hmove⟩ := hadv id row hrow
  exact ⟨row', hrow', fun hq => hstate (hmove.queued hq)⟩

/-- **Step.**  Every effect keeps the invariant. -/
theorem Effect.atMostOnce {s s' : System} (he : Effect s s') (h : AtMostOnce s) :
    AtMostOnce s' := by
  cases he with
  | quiet o log hadv hlog hquiet harmed =>
    have hsub : ∀ id, submissions s'.log id = submissions s.log id := fun id => by
      rw [hlog, submissions_append, submissions_quiet hquiet, add_zero]
    have hcre : ∀ id, creations s'.log id = creations s.log id := fun id => by
      rw [hlog, creations_append, creations_quiet hquiet, add_zero]
    refine ⟨fun id hid => (h.taken id (hsub id ▸ hid)).advances hadv, fun id => hsub id ▸ h.once id,
      fun ha => ?_, fun ha ha' => h.alone (harmed _ _ _ ha) (harmed _ _ _ ha'), fun id hid => ?_,
      fun id => hcre id ▸ h.created id⟩
    · obtain ⟨htaken, hzero⟩ := h.armed (harmed _ _ _ ha)
      exact ⟨htaken.advances hadv, (hsub _).trans hzero⟩
    · obtain ⟨row, hrow⟩ := h.stored id (hcre id ▸ hid)
      obtain ⟨row', hrow', -⟩ := hadv id row hrow
      exact ⟨row', hrow'⟩
  | create id row hnone hrows hlog harmed =>
    have hsub : ∀ key, submissions s'.log key = submissions s.log key := fun key => by
      rw [hlog, submissions_append]
      rfl
    have hkeep : ∀ key row', s.journal.row? key = some row' → s'.journal.row? key = some row' := by
      intro key row' hkey
      rw [hrows, if_neg]
      · exact hkey
      · rintro rfl
        rw [hnone] at hkey
        cases hkey
    have htaken : ∀ {key}, Taken s.journal key → Taken s'.journal key := by
      rintro key ⟨row', hrow', hstate⟩
      exact ⟨row', hkeep key row' hrow', hstate⟩
    refine ⟨fun key hkey => htaken (h.taken key (hsub key ▸ hkey)), fun key => hsub key ▸ h.once key,
      fun ha => ?_, fun ha ha' => h.alone (harmed _ _ _ ha) (harmed _ _ _ ha'), fun key hkey => ?_,
      fun key => ?_⟩
    · obtain ⟨ht, hzero⟩ := h.armed (harmed _ _ _ ha)
      exact ⟨htaken ht, (hsub _).trans hzero⟩
    · by_cases hid : key = id
      · exact ⟨row, by rw [hrows, if_pos hid]⟩
      · rw [hlog, creations_append] at hkey
        have hzero : creations [.created id] key = 0 := by simp [creations, Ne.symm hid]
        obtain ⟨row', hrow'⟩ := h.stored key (by omega)
        exact ⟨row', hkeep key row' hrow'⟩
    · rw [hlog, creations_append]
      by_cases hid : key = id
      · -- a key that was free was never created before
        have hzero : creations s.log key = 0 := by
          by_contra hne
          obtain ⟨row', hrow'⟩ := h.stored key (Nat.pos_of_ne_zero hne)
          rw [hid, hnone] at hrow'
          cases hrow'
        rw [hzero]
        simp [creations, hid]
      · have hzero : creations [.created id] key = 0 := by simp [creations, Ne.symm hid]
        have := h.created key
        omega
  | claim o n id row hrow hq hjournal hlog harmed =>
    have hsub : ∀ key, submissions s'.log key = submissions s.log key := fun key => by
      rw [hlog, submissions_append]
      rfl
    have hcre : ∀ key, creations s'.log key = creations s.log key := fun key => by
      rw [hlog, creations_append]
      rfl
    have hadv : Advances row.owner s.journal s'.journal :=
      hjournal ▸ advances_update hrow (.claim rfl hq)
    have hfree : ¬ Taken s.journal id := by
      rintro ⟨row', hrow', hstate⟩
      obtain rfl := Option.some.inj (hrow.symm.trans hrow')
      exact hstate hq
    have hnow : Taken s'.journal id :=
      ⟨_, hjournal ▸ Journal.row?_update_self .dispatching none hrow, by simp⟩
    refine ⟨fun key hkey => (h.taken key (hsub key ▸ hkey)).advances hadv,
      fun key => hsub key ▸ h.once key, fun ha => ?_, fun ha ha' => ?_, fun key hkey => ?_,
      fun key => hcre key ▸ h.created key⟩
    · rcases harmed _ _ _ ha with ha | ⟨rfl, rfl, rfl⟩
      · obtain ⟨ht, hzero⟩ := h.armed ha
        exact ⟨ht.advances hadv, (hsub _).trans hzero⟩
      · refine ⟨hnow, (hsub _).trans (Nat.eq_zero_of_not_pos fun hpos => ?_)⟩
        exact hfree (h.taken _ hpos)
    · -- nobody else held the command: its row was still queued
      rcases harmed _ _ _ ha with ha | ⟨rfl, rfl, rfl⟩ <;>
        rcases harmed _ _ _ ha' with ha' | ⟨rfl, rfl, hid⟩
      · exact h.alone ha ha'
      · exact absurd (h.armed ha).1 (hid ▸ hfree)
      · exact absurd (h.armed ha').1 hfree
      · exact ⟨rfl, rfl⟩
    · obtain ⟨row', hrow'⟩ := h.stored key (hcre key ▸ hkey)
      obtain ⟨row'', hrow'', -⟩ := hadv key row' hrow'
      exact ⟨row'', hrow''⟩
  | submit o n id harm hjournal hlog harmed =>
    obtain ⟨htaken, hzero⟩ := h.armed harm
    have hcre : ∀ key, creations s'.log key = creations s.log key := fun key => by
      rw [hlog, creations_append]
      rfl
    have hother : ∀ key, key ≠ id → submissions s'.log key = submissions s.log key := by
      intro key hkey
      rw [hlog, submissions_append]
      simp [submissions, Ne.symm hkey]
    have hself : submissions s'.log id = 1 := by
      rw [hlog, submissions_append, hzero]
      simp [submissions]
    refine ⟨fun key hkey => ?_, fun key => ?_, fun ha => ?_,
      fun ha ha' => h.alone (harmed _ _ _ ha).1 (harmed _ _ _ ha').1, fun key hkey => ?_,
      fun key => hcre key ▸ h.created key⟩
    · rw [hjournal]
      by_cases hid : key = id
      · exact hid ▸ htaken
      · exact h.taken key (hother key hid ▸ hkey)
    · by_cases hid : key = id
      · exact hid ▸ hself.le
      · exact hother key hid ▸ h.once key
    · obtain ⟨ha, hne⟩ := harmed _ _ _ ha
      obtain ⟨ht, hz⟩ := h.armed ha
      refine ⟨hjournal ▸ ht, ?_⟩
      rw [hother _ fun hid => ?_]
      · exact hz
      · -- the thread that submitted was the only one armed for its command
        exact hne (h.alone (hid ▸ ha) harm)
    · rw [hjournal]
      exact h.stored key (hcre key ▸ hkey)

/-! ## Every call has such an effect -/

variable {codec : Codec} {s s' : System}

theorem armed_setThread {o : String} {n : ℕ} {t : Thread} {s : System}
    (ht : ∀ row handed rest, t ≠ .attempting ⟨row, handed, .claimed⟩ rest) (o' : String) (n' : ℕ)
    (id : String) (h : Armed (s.setThread o n t) o' n' id) :
    Armed s o' n' id ∧ ¬(o' = o ∧ n' = n) := by
  obtain ⟨row, handed, rest, hthread, hid⟩ := h
  simp only [System.setThread] at hthread
  split_ifs at hthread with hself
  · exact absurd hthread (ht row handed rest)
  · exact ⟨⟨row, handed, rest, hthread, hid⟩, hself⟩

theorem Shift.not_armed {c : Control} {o : String} {t t' : Thread} (h : Shift codec c o t t') :
    ∀ row handed rest, t' ≠ .attempting ⟨row, handed, .claimed⟩ rest := by
  intro row handed rest heq
  cases h <;> cases heq

theorem effect_of_same (h : s' = s) : Effect s s' :=
  .quiet "" [] (h ▸ .refl _ _) (by simp [h]) (by simp) fun _ _ _ ha => h ▸ ha

theorem effect_of_step {a : Action} (h : Step codec s a s') : Effect s s' := by
  cases h with
  | boot | beginControl | endControl | openJournal =>
    exact .quiet "" [] (.refl _ _) (by simp [System.draw, System.setControl]) (by simp)
      fun _ _ _ ha => ha
  | crash =>
    refine .quiet "" [] (.refl _ _) (by simp [crash, System.setControl, System.setLock]) (by simp)
      fun o n id ha => ?_
    obtain ⟨row, handed, rest, hthread, hid⟩ := ha
    simp only [crash] at hthread
    split_ifs at hthread
    exact ⟨row, handed, rest, hthread, hid⟩
  | same => exact effect_of_same rfl
  | shift _ _ hshift =>
    exact .quiet "" [] (.refl _ _) (by simp [System.setThread]) (by simp)
      fun _ _ _ ha => (armed_setThread hshift.not_armed _ _ _ ha).1
  | insertOld =>
    exact .quiet "" [] (.refl _ _) (by simp [System.setThread]) (by simp)
      fun _ _ _ ha => (armed_setThread (by simp) _ _ _ ha).1
  | @insertNew o n p c depth batch d _ _ hnone hins =>
    rcases insertDraft_row? s.journal d with ⟨_, hstored, -⟩ | ⟨-, -, hrows⟩
    · rw [hnone] at hstored
      cases hstored
    · exact .create d.commandId _ hnone hrows rfl
        fun _ _ _ ha => (armed_setThread (by simp) _ _ _ ha).1
  | aborted _ _ hfinish =>
    exact .quiet _ [_] (finish_advances hfinish) rfl (by simp [Event.Quiet])
      fun _ _ _ ha => (armed_setThread (by simp) _ _ _ ha).1
  | @claimed o n p c id rest j row _ _ _ hclaim =>
    rcases claim_eq_ok hclaim with ⟨-, hnone⟩ | ⟨row', hrow, -, hq, ⟨-, hnone⟩ | ⟨-, -, -, rfl, hsome⟩⟩
    · cases hnone
    · cases hnone
    · obtain rfl := Option.some.inj hsome
      refine .claim o n id row hrow hq rfl rfl fun o' n' id' ha => ?_
      obtain ⟨r, handed, rest', hthread, hid⟩ := ha
      by_cases hself : o' = o ∧ n' = n
      · obtain ⟨rfl, rfl⟩ := hself
        simp only [System.note, System.setLock, System.setThread, System.write, and_self, if_true,
          Thread.attempting.injEq, Attempt.mk.injEq] at hthread
        refine .inr ⟨rfl, rfl, ?_⟩
        rw [← hid, ← hthread.1.1]
        exact Journal.row?_key hrow
      · simp only [System.note, System.setLock, System.setThread, System.write, hself,
          if_false] at hthread
        exact .inl ⟨r, handed, rest', hthread, hid⟩
  | declined _ _ hclaim =>
    exact .quiet _ [] (claim_advances hclaim) (by simp [System.setThread, System.write]) (by simp)
      fun _ _ _ ha => (armed_setThread (by simp) _ _ _ ha).1
  | @submitted o n p c row handed rest _ _ _ hthread =>
    exact .submit o n row.commandId ⟨row, handed, rest, hthread, rfl⟩ rfl rfl
      fun _ _ _ ha => armed_setThread (by simp) _ _ _ ha
  | escaped | gaveUp =>
    exact .quiet "" [] (.refl _ _) (by simp [System.setThread, System.setLock]) (by simp)
      fun _ _ _ ha => (armed_setThread (by simp) _ _ _ ha).1
  | recorded _ _ hfinish | fellBack _ _ hfinish =>
    exact .quiet _ [_] (finish_advances hfinish) rfl (by simp [Event.Quiet])
      fun _ _ _ ha => (armed_setThread (by simp) _ _ _ ha).1
  | reconciled _ hrec =>
    exact .quiet _ [_] (reconcile_advances hrec) rfl (by simp [Event.Quiet]) fun _ _ _ ha => ha

theorem effect_of_call {c : Call} (h : callStep codec s c = some s') : Effect s s' := by
  cases c with
  | act a => exact effect_of_step (step_cases h)
  | enqueue o authority intent =>
    obtain ⟨_, _, _, h⟩ := live_bind h
    split at h
    · exact effect_of_same (Option.some.inj h).symm
    · rename_i d _
      have hs : (if (insertDraft s.journal d).2 = true then
          (s.write (insertDraft s.journal d).1).note (.created d.commandId)
          else s.write (insertDraft s.journal d).1) = s' := Option.some.inj h
      rcases insertDraft_row? s.journal d with ⟨_, -, hins⟩ | ⟨hnone, hins, hrows⟩
      · rw [hins, if_neg Bool.false_ne_true] at hs
        exact effect_of_same hs.symm
      · rw [if_pos hins] at hs
        subst hs
        exact .create d.commandId _ hnone hrows rfl fun _ _ _ ha => ha
  | claim o id =>
    replace h := live_bind h
    obtain ⟨_, _, _, h⟩ := h
    dsimp only at h
    split at h <;> obtain rfl := Option.some.inj h
    · rename_i hclaim
      exact .quiet _ [_] (claim_advances hclaim) rfl (by simp [Event.Quiet]) fun _ _ _ ha => ha
    · rename_i hclaim
      exact .quiet _ [] (claim_advances hclaim) (by simp [System.write]) (by simp)
        fun _ _ _ ha => ha
    · exact effect_of_same rfl
  | finish o id outcome result =>
    replace h := live_bind h
    obtain ⟨_, _, _, h⟩ := h
    split at h <;> obtain rfl := Option.some.inj h
    · rename_i hfinish
      exact .quiet _ [_] (finish_advances hfinish) rfl (by simp [Event.Quiet]) fun _ _ _ ha => ha
    · exact effect_of_same rfl
  | dispatch o n id =>
    obtain ⟨_, _, _, h⟩ := live_bind h
    split at h
    · obtain rfl := Option.some.inj h
      exact .quiet "" [] (.refl _ _) (by simp [System.setThread]) (by simp)
        fun _ _ _ ha => (armed_setThread (by simp) _ _ _ ha).1
    · cases h

/-- **Run.**  The invariant holds after every run. -/
theorem atMostOnce_run {calls : List Call}
    (h : Run (callStep codec) Free .init calls s) : AtMostOnce s :=
  h.invariant (fun _ hstep hinv => (effect_of_call hstep).atMostOnce hinv) .init

/-! ## The law -/

theorem step_advances {a : Action} (h : Step codec s a s') :
    Advances (Call.act a).actor s.journal s'.journal := by
  cases h with
  | boot | crash | openJournal | beginControl | endControl | same | shift | insertOld | submitted
  | escaped | gaveUp => exact .refl _ _
  | insertNew => exact insertDraft_advances _ _
  | aborted _ _ hfinish | recorded _ _ hfinish | fellBack _ _ hfinish =>
    exact finish_advances hfinish
  | claimed _ _ _ hclaim | declined _ _ hclaim => exact claim_advances hclaim
  | reconciled _ hrec => exact reconcile_advances hrec

theorem call_advances {c : Call} (h : callStep codec s c = some s') :
    Advances c.actor s.journal s'.journal := by
  cases c with
  | act a => exact step_advances (step_cases h)
  | enqueue o authority intent =>
    obtain ⟨_, _, _, h⟩ := live_bind h
    split at h
    · exact (Option.some.inj h) ▸ .refl _ _
    · rename_i d _
      have hs : (if (insertDraft s.journal d).2 = true then
          (s.write (insertDraft s.journal d).1).note (.created d.commandId)
          else s.write (insertDraft s.journal d).1) = s' := Option.some.inj h
      subst hs
      split
      · exact insertDraft_advances _ _
      · exact insertDraft_advances _ _
  | claim o id =>
    replace h := live_bind h
    obtain ⟨_, _, _, h⟩ := h
    dsimp only at h
    split at h <;> obtain rfl := Option.some.inj h
    · rename_i hclaim
      exact claim_advances hclaim
    · rename_i hclaim
      exact claim_advances hclaim
    · exact .refl _ _
  | finish o id outcome result =>
    replace h := live_bind h
    obtain ⟨_, _, _, h⟩ := h
    split at h <;> obtain rfl := Option.some.inj h
    · rename_i hfinish
      exact finish_advances hfinish
    · exact .refl _ _
  | dispatch o n id =>
    obtain ⟨_, _, _, h⟩ := live_bind h
    split at h
    · obtain rfl := Option.some.inj h
      exact .refl _ _
    · cases h

/-- **At-most-once submission.**  Over every run, each command is handed to `submit`
at most once and its row is created at most once.  In every state reached, a call
keeps every row and its owner, returns none to the queue, leaves no final state, and
takes a row from the queue into dispatch only for its owner. -/
theorem submitted_at_most_once {calls : List Call}
    (h : Run (callStep codec) Free .init calls s) :
    (∀ id, submissions s.log id ≤ 1) ∧ (∀ id, creations s.log id ≤ 1) ∧
    ∀ c s', callStep codec s c = some s' → ∀ id row, s.journal.row? id = some row →
      ∃ row', s'.journal.row? id = some row' ∧ row'.owner = row.owner ∧
        (row'.state = .queued → row.state = .queued) ∧
        (row.state.final = true → row'.state = row.state) ∧
        (row.state = .queued → row'.state = .dispatching → c.actor = row.owner) := by
  have hinv := atMostOnce_run h
  refine ⟨hinv.once, hinv.created, fun c s' hstep id row hrow => ?_⟩
  obtain ⟨row', hrow', hmove⟩ := call_advances hstep id row hrow
  refine ⟨row', hrow', hmove.owner, hmove.queued, hmove.final, fun hq hd => ?_⟩
  have hne : row.state ≠ .dispatching := by
    rw [hq]
    decide
  exact (hmove.dispatched hd hne).2.symm

/-! ## A run -/

def sampleCodec : Codec := ⟨sampleText, fun v => (sampleText v).length, sampleText⟩

/-- A live intent of the given evaluation. -/
def sampleIntent (evaluation : String) : OrderIntent :=
  ⟨[("strategy_id", .str "s"), ("symbol", .str "005930"), ("side", .str "BUY"),
    ("mode", .str "FULL_LIVE"),
    ("metadata", .obj [("runtime_evaluation_key", .str evaluation), ("broker_id", .str "kis")])]⟩

def sampleId (evaluation : String) : String :=
  sampleText (identity evaluation (sampleIntent evaluation)
    [("runtime_evaluation_key", .str evaluation), ("broker_id", .str "kis")])

/-- A process with one controller queues one intent. -/
def sampleStart : List Action :=
  [.boot 0 "epoch", .openJournal 0 "owner", .enter "owner" 0,
    .beginEnqueue "owner" 0 (sampleIntent "e1"), .endEnqueue "owner" 0 true]

/-- One cycle with one intent, dispatched and acknowledged. -/
def sampleDispatch : List Action :=
  sampleStart ++ [.exit "owner" 0 false, .claim "owner" 0 true, .check "owner" 0,
    .reply "owner" 0 (.result (.obj [("ok", .bool true)])), .record "owner" 0 true]

theorem sampleDispatch_submits_once :
    ∃ s : System, submissions s.log (sampleId "e1") = 1 ∧ ∀ id, submissions s.log id ≤ 1 := by
  obtain ⟨s, hs, hone⟩ : ∃ s, runAll (callStep sampleCodec) .init (sampleDispatch.map .act) = some s ∧
      submissions s.log (sampleId "e1") = 1 := by decide +kernel
  exact ⟨s, hone, (submitted_at_most_once (free_of_runAll hs)).1⟩

end LiveTrader.Dispatch
