/-
# `Dispatch.Hold` — an uncertain outcome holds the queue

What a submitted command can be once its attempt is over: recorded as unknown,
still dispatching under a controller that no longer exists, or settled by a
definite outcome or a reconciliation.  The first two make `_unresolved` true for
every living controller, so no claim succeeds.

One case escapes: the attempt reached `submit`, and then neither of its two
outcome writes went through, or what was raised is not an `Exception`, and the
process lives on.  The row is then dispatching under its own owner, whom
`_unresolved` exempts.  `Recorded` excludes this case step by step.
-/
import LiveTrader.Dispatch.Batches
import LiveTrader.Dispatch.Fence

namespace LiveTrader.Dispatch

open Lib.Py Lib.Runs

variable {codec : Codec} {s s' : System} {a : Action}

/-! ## The condition -/

/-- The attempt of this thread reached `submit`. -/
def Handed (s : System) (o : String) (n : ℕ) : Prop :=
  ∃ row, flight (s.thread o n) = some (row, true)

/-- An attempt that reached `submit` does not end, in a process that lives on, without
a write of its outcome. -/
def Recorded (s : System) : Action → Prop
  | .reply o n .escaped => ¬ Handed s o n
  | .fallback o n written => written = true ∨ ¬ Handed s o n
  | _ => True

/-! ## The invariant -/

/-- A definite outcome was recorded, or a matching reconciliation went through. -/
def Settled (log : List Event) (id : String) (row : Row) : Prop :=
  Event.recorded id .completed ∈ log ∨ Event.recorded id .blocked ∈ log ∨ Reconciled log row

/-- What a submitted command is, as far as the queue is concerned. -/
inductive Held (s : System) (id : String) (row : Row) : Prop
  | unknown : row.state = .unknown → Held s id row
  | flying (n : ℕ) (r : Row) (handed : Bool) : row.state = .dispatching →
      flight (s.thread row.owner n) = some (r, handed) → r.commandId = id → Held s id row
  | orphan : row.state = .dispatching → s.home row.owner = none → Held s id row
  | settled : row.state.final = true → Settled s.log id row → Held s id row

/-- Every submitted command is held or settled. -/
def Holds (s : System) : Prop :=
  ∀ id, Event.submitted id ∈ s.log → ∃ row, s.journal.row? id = some row ∧ Held s id row

theorem Settled.append {log log' : List Event} {id : String} {row : Row} (h : Settled log id row) :
    Settled (log ++ log') id row := by
  rcases h with h | h | h
  · exact .inl (List.mem_append_left _ h)
  · exact .inr (.inl (List.mem_append_left _ h))
  · exact .inr (.inr h.append)

theorem Held.not_queued {id : String} {row : Row} (h : Held s id row) : row.state ≠ .queued := by
  intro hq
  cases h with
  | unknown h | flying _ _ _ h | orphan h =>
    rw [hq] at h
    cases h
  | settled h => simp [hq, RowState.final] at h

/-- A held row stays held while its row, its flight and its controller stay. -/
theorem Held.keep {id : String} {row : Row} {log : List Event} (h : Held s id row)
    (hlog : s'.log = s.log ++ log)
    (hhome : s.home row.owner = none → s'.home row.owner = none)
    (hflight : ∀ n r handed, flight (s.thread row.owner n) = some (r, handed) → r.commandId = id →
      (∃ handed', flight (s'.thread row.owner n) = some (r, handed')) ∨ s'.home row.owner = none) :
    Held s' id row := by
  cases h with
  | unknown h => exact .unknown h
  | flying n r handed hd hf hid =>
    rcases hflight n r handed hf hid with ⟨handed', hf'⟩ | hnone
    · exact .flying n r handed' hd hf' hid
    · exact .orphan hd hnone
  | orphan hd hnone => exact .orphan hd (hhome hnone)
  | settled hfinal h => exact .settled hfinal (hlog ▸ h.append)

/-! ## Preservation -/

theorem submitted_of_append {log log' : List Event} {id : String}
    (hquiet : ∀ e ∈ log', e ≠ .submitted id) (h : Event.submitted id ∈ log ++ log') :
    Event.submitted id ∈ log :=
  (List.mem_append.mp h).elim (fun h => h) fun h => absurd rfl (hquiet _ h)

/-- Steps that leave every submitted row and every flight alone. -/
theorem Holds.idle (h : Holds s) (log : List Event) (hlog : s'.log = s.log ++ log)
    (hquiet : ∀ e ∈ log, ∀ id, e ≠ .submitted id)
    (hrows : ∀ id row, Event.submitted id ∈ s.log → s.journal.row? id = some row →
      Held s id row → s'.journal.row? id = some row)
    (hhome : ∀ {id row}, s.journal.row? id = some row → s.home row.owner = none →
      s'.home row.owner = none)
    (hflight : ∀ o n f, flight (s.thread o n) = some f →
      flight (s'.thread o n) = some f ∨ s'.home o = none) : Holds s' := by
  intro id hid
  rw [hlog] at hid
  replace hid := submitted_of_append (fun e he => hquiet e he id) hid
  obtain ⟨row, hrow, hheld⟩ := h id hid
  refine ⟨row, hrows id row hid hrow hheld, hheld.keep hlog (hhome hrow) fun n r handed hf _ => ?_⟩
  exact (hflight _ n _ hf).imp_left fun hf' => ⟨handed, hf'⟩

theorem flight_moved {o : String} {n : ℕ} {t : Thread} (hnone : flight (s.thread o n) = none)
    (o' : String) (n' : ℕ) (f : Row × Bool) (hf : flight (s.thread o' n') = some f) :
    flight ((s.setThread o n t).thread o' n') = some f := by
  rw [thread_setThread]
  split_ifs with hat
  · rw [hat.1, hat.2, hnone] at hf
    cases hf
  · exact hf

/-- A flight at another thread is not touched. -/
theorem flight_kept {o : String} {n : ℕ} {t : Thread} {o' : String} {n' : ℕ} {f : Row × Bool}
    (hat : ¬(o' = o ∧ n' = n)) (hf : flight (s.thread o' n') = some f) :
    flight ((s.setThread o n t).thread o' n') = some f := by
  rw [thread_setThread, if_neg hat]
  exact hf

/-- The end of an attempt whose own row is dealt with, or was never submitted. -/
theorem Holds.land (h : Holds s) {o : String} {n : ℕ} {at' : Attempt}
    {rest : List String} {t : Thread} (ht : s.thread o n = .attempting at' rest)
    (log : List Event) (hlog : s'.log = s.log ++ log) (hquiet : ∀ e ∈ log, ∀ id, e ≠ .submitted id)
    (hhome : s'.home = s.home) (hthread : s'.thread = (s.setThread o n t).thread)
    (hother : ∀ id, id ≠ at'.row.commandId → s'.journal.row? id = s.journal.row? id)
    (hself : Event.submitted at'.row.commandId ∈ s.log →
      ∃ row, s'.journal.row? at'.row.commandId = some row ∧ Held s' at'.row.commandId row) :
    Holds s' := by
  intro id hid
  rw [hlog] at hid
  replace hid := submitted_of_append (fun e he => hquiet e he id) hid
  by_cases heq : id = at'.row.commandId
  · subst heq
    exact hself hid
  · obtain ⟨row, hrow, hheld⟩ := h id hid
    refine ⟨row, (hother id heq).trans hrow, hheld.keep hlog (fun hn => hhome ▸ hn) ?_⟩
    intro n' r handed hf hr
    refine .inl ⟨handed, ?_⟩
    rw [hthread]
    refine flight_kept (fun hat => ?_) hf
    -- the flight that ended carried another command
    rw [hat.1, hat.2, ht] at hf
    exact heq (hr ▸ congrArg (·.1.commandId) (Option.some.inj hf).symm)

/-- An unknown outcome can be recorded for an attempt whose row is still dispatching. -/
theorem finish_unknown_ok {j : Journal} {o id : String} {row : Row} (hrow : j.row? id = some row)
    (howner : row.owner = o) (hd : row.state = .dispatching) :
    ∃ j', finish codec o j id .unknown [] = .ok j' := by
  refine ⟨j.update id .unknown (some ⟨false, codec.text .null, codec.text .null⟩), ?_⟩
  simp [finish, summary, hrow, howner, hd, Fields.at, Json.orElse, Json.truthy, Json.fields,
    Json.isTrue, bind, Except.bind, pure, Except.pure, Outcome.state]

theorem Holds.step (h : Holds s) (hb : Batches s) (hdrawn : Drawn s) (hok : Recorded s a)
    (hstep : Step codec s a s') : Holds s' := by
  have hrow? : ∀ {j : Journal}, j = s.journal → ∀ id row, Event.submitted id ∈ s.log →
      s.journal.row? id = some row → Held s id row → j.row? id = some row :=
    fun hj _ _ _ hrow _ => hj ▸ hrow
  cases hstep with
  | boot | beginControl | endControl =>
    exact h.idle [] (by simp [System.draw, System.setControl]) (by simp) (hrow? rfl)
      (fun _ hn => hn) fun _ _ _ hf => .inl hf
  | @crash p =>
    refine h.idle [] (by simp [crash, System.setControl, System.setLock]) (by simp) (hrow? rfl)
      (fun _ hn => ?_) fun o n f hf => ?_
    · simp [crash, hn]
    · by_cases ho : s.home o = some p
      · exact .inr (if_pos ho)
      · exact .inl (by simp only [crash]; rw [if_neg ho]; exact hf)
  | @openJournal p o _ hfresh =>
    refine h.idle [] (by simp [System.draw]) (by simp) (hrow? rfl) (fun {id row} hrow hn => ?_)
      fun _ _ _ hf => .inl hf
    have ho : row.owner ≠ o := fun ho => hfresh (ho ▸ (hdrawn.row hrow).1)
    simp [ho, hn]
  | same => exact h
  | @shift _ o n p c t _ hlive hshift =>
    refine h.idle [] (by simp [System.setThread]) (by simp) (hrow? rfl) (fun _ hn => hn)
      fun o' n' f hf => .inl ?_
    rw [thread_setThread]
    split_ifs with hat
    · rw [hshift.flight, ← hat.1, ← hat.2]
      exact hf
    · exact hf
  | insertOld _ ht =>
    exact h.idle [] (by simp [System.setThread]) (by simp) (hrow? rfl) (fun _ hn => hn)
      fun o' n' f hf => .inl (flight_moved (by rw [ht]; rfl) o' n' f hf)
  | @insertNew o n p c depth batch d _ ht hnone hins =>
    refine h.idle [_] rfl (by simp) (fun id row _ hrow _ => ?_) (fun _ hn => hn)
      fun o' n' f hf => .inl (flight_moved (s := s) (by rw [ht]; rfl) o' n' f hf)
    rcases insertDraft_row? s.journal d with ⟨_, hstored, -⟩ | ⟨-, -, hrows⟩
    · rw [hnone] at hstored
      cases hstored
    · refine (hrows id).trans ?_
      rw [if_neg]
      · exact hrow
      · rintro rfl
        rw [hnone] at hrow
        cases hrow
  | @aborted o n p c id rest j _ ht hfinish =>
    obtain ⟨_, _, -, -, -, rfl⟩ := finish_eq_ok hfinish
    refine h.idle [_] rfl (by simp) (fun key row hkey hrow _ => ?_) (fun _ hn => hn)
      fun o' n' f hf => .inl (flight_moved (by rw [ht]; rfl) o' n' f hf)
    have hmem : id ∈ pending (s.thread o n) := by
      rw [ht]
      exact List.mem_cons_self
    -- a waiting command was never claimed, so it was not submitted
    refine (Journal.row?_update_ne _ _ fun heq => ?_).trans hrow
    exact (hb.waiting hmem).1 (heq ▸ hb.sent hkey)
  | @claimed o n p c id rest j row _ ht _ hclaim =>
    rcases claim_eq_ok hclaim with ⟨-, hx⟩ | ⟨r, hr, -, hq, ⟨-, hx⟩ | ⟨-, -, -, rfl, -⟩⟩
    · cases hx
    · cases hx
    · refine h.idle [_] rfl (by simp) (fun key stored _ hkey hheld => ?_) (fun _ hn => hn)
        fun o' n' f hf => .inl (flight_moved (s := s) (by rw [ht]; rfl) o' n' f hf)
      refine (Journal.row?_update_ne _ _ fun heq => ?_).trans hkey
      obtain rfl := Option.some.inj (hr.symm.trans (heq ▸ hkey))
      exact hheld.not_queued hq
  | @declined o n p c id rest j _ ht hclaim =>
    refine h.idle [] (by simp [System.setThread, System.write]) (by simp)
      (fun key stored _ hkey hheld => ?_) (fun _ hn => hn)
      fun o' n' f hf => .inl (flight_moved (s := s) (by rw [ht]; rfl) o' n' f hf)
    rcases claim_eq_ok hclaim with ⟨rfl, -⟩ | ⟨r, hr, -, hq, ⟨rfl, -⟩ | ⟨-, -, -, -, hx⟩⟩
    · exact hkey
    · refine (Journal.row?_update_ne _ _ fun heq => ?_).trans hkey
      obtain rfl := Option.some.inj (hr.symm.trans (heq ▸ hkey))
      exact hheld.not_queued hq
    · cases hx
  | @submitted o n p c row handed rest _ _ _ ht =>
    have hself : flight ((s.setThread o n (.attempting ⟨row, true, .running none⟩ rest)).thread o n)
        = some (row, true) := by
      rw [thread_setThread, if_pos ⟨rfl, rfl⟩]
      rfl
    have hbefore : flight (s.thread o n) = some (row, handed) := by
      rw [ht]
      rfl
    intro id hid
    rcases List.mem_append.mp hid with hid | hid
    · obtain ⟨stored, hstored, hheld⟩ := h id hid
      refine ⟨stored, hstored, hheld.keep rfl (fun hn => hn) fun n' r b hf _ => .inl ?_⟩
      by_cases hat : stored.owner = o ∧ n' = n
      · rw [hat.1, hat.2, hbefore] at hf
        obtain ⟨rfl, -⟩ := Prod.mk.inj (Option.some.inj hf)
        exact ⟨true, by rw [hat.1, hat.2]; exact hself⟩
      · exact ⟨b, flight_kept hat hf⟩
    · obtain rfl := Event.submitted.inj (List.mem_singleton.mp hid)
      obtain ⟨-, stored, hstored, howner, hst⟩ := hb.flying hbefore
      refine ⟨stored, hstored, ?_⟩
      rcases hst with hd | ⟨hr, hrec⟩
      · exact .flying n row true hd (howner ▸ hself) rfl
      · exact .settled (by rw [hr]; rfl) (.inr (.inr hrec.append))
  | @escaped o n p c row handed refusal rest _ ht =>
    refine h.land ht [] (by simp [System.setThread, System.setLock]) (by simp) rfl rfl
      (fun _ _ => rfl) fun hsub => ?_
    have hf : flight (s.thread o n) = some (row, handed) := by
      rw [ht]
      rfl
    cases handed with
    | false => exact absurd hsub (hb.unsent hf)
    | true => exact absurd ⟨row, hf⟩ hok
  | @recorded o n p c row handed verdict result rest j _ ht hfinish =>
    obtain ⟨stored, kept, hstored, -, -, rfl⟩ := finish_eq_ok hfinish
    refine h.land ht [_] rfl (by simp) rfl rfl (fun _ hid => Journal.row?_update_ne _ _ hid)
      fun _ => ⟨_, Journal.row?_update_self _ _ hstored, ?_⟩
    cases verdict with
    | completed => exact .settled rfl (.inl (List.mem_append_right _ List.mem_cons_self))
    | blocked => exact .settled rfl (.inr (.inl (List.mem_append_right _ List.mem_cons_self)))
    | unknown => exact .unknown rfl
  | @fellBack o n p c row handed rest j _ ht hfinish =>
    obtain ⟨stored, kept, hstored, -, -, rfl⟩ := finish_eq_ok hfinish
    exact h.land ht [_] rfl (by simp) rfl rfl (fun _ hid => Journal.row?_update_ne _ _ hid)
      fun _ => ⟨_, Journal.row?_update_self _ _ hstored, .unknown rfl⟩
  | @gaveUp o n p c row handed rest written _ ht hfails =>
    refine h.land ht [] (by simp [System.setThread, System.setLock]) (by simp) rfl rfl
      (fun _ _ => rfl) fun hsub => ?_
    have hf : flight (s.thread o n) = some (row, handed) := by
      rw [ht]
      rfl
    obtain ⟨-, stored, hstored, howner, hst⟩ := hb.flying hf
    refine ⟨stored, hstored, ?_⟩
    rcases hst with hd | ⟨hr, hrec⟩
    · -- the write was not lost and would have gone through
      exfalso
      rcases hok with rfl | hhanded
      · obtain ⟨e, he⟩ := hfails rfl
        obtain ⟨j', hj'⟩ : ∃ j', finish codec _ _ _ .unknown [] = .ok j' :=
          finish_unknown_ok hstored howner hd
        rw [hj'] at he
        cases he
      · cases handed with
        | false => exact hb.unsent hf hsub
        | true => exact hhanded ⟨row, hf⟩
    · exact .settled (by rw [hr]; rfl) (.inr (.inr hrec))
  | @reconciled o p c orders j k _ hrec =>
    intro id hid
    obtain ⟨row, hrow, hheld⟩ := h id (submitted_of_append (by simp) hid)
    rcases reconcile_row? hrec hrow with hsame | ⟨-, ⟨order, horder, hsettles⟩, hclosed⟩
    · exact ⟨row, hsame, hheld.keep rfl (fun hn => hn) fun n r b hf _ => .inl ⟨b, hf⟩⟩
    · exact ⟨_, hclosed, .settled rfl (.inr (.inr ⟨o, orders, order,
        List.mem_append_right _ List.mem_cons_self, horder, hsettles.closed _⟩))⟩

theorem Holds.init : Holds .init := fun _ hid => by cases hid

theorem holds_run {acts : List Action} (h : Run (step codec) Recorded .init acts s) : Holds s := by
  have hstep : ∀ {s a s'}, Recorded s a → step codec s a = some s' →
      Holds s ∧ Batches s ∧ Drawn s → Holds s' ∧ Batches s' ∧ Drawn s' := by
    rintro s a s' hok hs ⟨hh, hb, hd⟩
    have hst := step_cases hs
    exact ⟨hh.step hb hd hok hst, (work_of_step hb hst).batches hb, hd.step hst⟩
  exact (h.invariant (P := fun s => Holds s ∧ Batches s ∧ Drawn s) hstep
    ⟨Holds.init, Batches.init, Drawn.init⟩).1

/-! ## The hold -/

/-- An attempt on the command is under way in some thread. -/
def UnderWay (s : System) (id : String) : Prop :=
  ∃ o n row handed, flight (s.thread o n) = some (row, handed) ∧ row.commandId = id

/-- Two intents are queued in one cycle, and `submit` raises on the first. -/
def sampleRaise : List Action :=
  sampleStart ++ [.beginEnqueue "owner" 0 (sampleIntent "e2"), .endEnqueue "owner" 0 true,
    .exit "owner" 0 false, .claim "owner" 0 true, .check "owner" 0, .reply "owner" 0 .raised]

/-- No outcome and no reconciliation. -/
def Event.unsettling : Event → Bool
  | .recorded _ .completed | .recorded _ .blocked | .reconciled _ _ => false
  | _ => true

theorem not_settled_of_all {log : List Event} (h : log.all Event.unsettling = true) (id : String)
    (row : Row) : ¬ Settled log id row := by
  have hall := List.all_eq_true.mp h
  rintro (hmem | hmem | ⟨o, orders, order, hmem, -⟩) <;> cases hall _ hmem

theorem mem_of_submissions {log : List Event} {id : String} (h : submissions log id = 1) :
    Event.submitted id ∈ log := by
  obtain ⟨e, he, hsub⟩ := List.countP_pos_iff.mp (h ▸ Nat.one_pos : 0 < submissions log id)
  cases e with
  | submitted id' =>
    obtain rfl := of_decide_eq_true hsub
    exact he
  | created | claimed | recorded | reconciled => cases hsub

/-- When one thread acts alone and has no flight, nothing is under way. -/
theorem not_underWay {acts : List Action} {o : String} {n : ℕ}
    (h : Run (step codec) Free .init acts s)
    (hactor : ∀ a ∈ acts, a.actor = none ∨ a.actor = some (o, n))
    (hnone : flight (s.thread o n) = none) (id : String) : ¬ UnderWay s id := by
  have hidle : ∀ o' n', (o', n') ≠ (o, n) → s.thread o' n' = .idle := by
    intro o' n' hne
    have hrun : Run (step codec) (fun _ a => a.actor ≠ some (o', n')) .init acts s := by
      refine run_weaken_mem h fun a ha => ?_
      rcases hactor a ha with hx | hx
      · simp [hx]
      · rw [hx]
        exact fun heq => hne (Option.some.inj heq).symm
    refine hrun.invariant (P := fun s => s.thread o' n' = .idle) (fun hok hstep hi => ?_) rfl
    exact ((step_cases hstep).thread hok).elim (fun h => h.trans hi) fun h => h
  rintro ⟨o', n', row, handed, hf, -⟩
  by_cases heq : (o', n') = (o, n)
  · obtain ⟨rfl, rfl⟩ := Prod.mk.inj heq
    rw [hnone] at hf
    cases hf
  · rw [hidle o' n' heq] at hf
    cases hf

theorem sampleDispatch_batches : ∃ s, Batches s ∧ submissions s.log (sampleId "e1") = 1 := by
  obtain ⟨s, hs, hone⟩ : ∃ s, runAll (step sampleCodec) .init sampleDispatch = some s ∧ submissions s.log (sampleId "e1") = 1 := by
    decide +kernel
  exact ⟨s, batches_run (free_of_runAll hs), hone⟩

end LiveTrader.Dispatch
