/-
# `Dispatch.Steps` — one inversion of the step function

`step_cases` reads a step back once and for all: the constructors of `Step` are
the things that can happen, with every guard that was passed.  Moves that only
concern the thread that makes them are gathered in `Shift`.  The invariants of
the following modules are case analyses over these two relations.
-/
import LiveTrader.Dispatch.System
import LiveTrader.Dispatch.JournalSteps

namespace LiveTrader.Dispatch

open Lib.Py

/-! ## Moves of one thread -/

/-- A move of a thread of the controller `o` that touches nothing else. -/
inductive Shift (codec : Codec) (c : Control) (o : String) : Thread → Thread → Prop
  | enter : Shift codec c o .idle (.cycle 0 [])
  | reenter {depth batch} : Shift codec c o (.cycle depth batch) (.cycle (depth + 1) batch)
  | exitInner {depth batch} : Shift codec c o (.cycle (depth + 1) batch) (.cycle depth batch)
  | exitEmpty : Shift codec c o (.cycle 0 []) .idle
  | exitAborting {batch} : Shift codec c o (.cycle 0 batch) (.aborting batch)
  | exitDispatching {batch} : Shift codec c o (.cycle 0 batch) (.dispatching batch)
  | draft {depth batch intent d} : draft codec c.authority o intent = .ok d →
      Shift codec c o (.cycle depth batch) (.enqueuing depth batch d)
  | notInserted {depth batch d} :
      Shift codec c o (.enqueuing depth batch d) (.cycle depth batch)
  | notAborted {id rest} : Shift codec c o (.aborting (id :: rest)) (.aborting rest)
  | notClaimed {id rest} : Shift codec c o (.dispatching (id :: rest)) (.dispatching rest)
  | leaveAborting {rest} : Shift codec c o (.aborting rest) .idle
  | leaveDispatching {rest} : Shift codec c o (.dispatching rest) .idle
  | refuse {row handed refusal rest} :
      Shift codec c o (.attempting ⟨row, handed, .claimed⟩ rest)
        (.attempting ⟨row, handed, .running (some refusal)⟩ rest)
  | checkRaises {row handed rest} :
      Shift codec c o (.attempting ⟨row, handed, .claimed⟩ rest)
        (.attempting ⟨row, handed, .failing⟩ rest)
  | answer {row handed refusal verdict result rest} :
      Shift codec c o (.attempting ⟨row, handed, .running refusal⟩ rest)
        (.attempting ⟨row, handed, .answered verdict result⟩ rest)
  | raise {row handed refusal rest} :
      Shift codec c o (.attempting ⟨row, handed, .running refusal⟩ rest)
        (.attempting ⟨row, handed, .failing⟩ rest)
  | notRecorded {row handed verdict result rest} :
      Shift codec c o (.attempting ⟨row, handed, .answered verdict result⟩ rest)
        (.attempting ⟨row, handed, .failing⟩ rest)

/-! ## Steps -/

/-- The batch after `enqueue`: a created row that is queued is appended. -/
def grownBatch (j : Journal) (created : Bool) (id : String) (batch : List String) : List String :=
  if created ∧ (j.row? id).any (·.state = .queued) then batch ++ [id] else batch

/-- The thread that acts. -/
def Action.actor : Action → Option (String × ℕ)
  | .enter o n | .exit o n _ | .beginEnqueue o n _ | .endEnqueue o n _ | .abort o n _ | .leave o n
  | .claim o n _ | .check o n | .reply o n _ | .record o n _ | .fallback o n _ => some (o, n)
  | _ => none

/-- What a step does. -/
inductive Step (codec : Codec) (s : System) : Action → System → Prop
  | boot {p epoch} : s.control p = none → epoch ∉ s.drawn →
      Step codec s (.boot p epoch) ((s.setControl p (some ⟨⟨epoch, false⟩, []⟩)).draw [epoch])
  | crash {p} : Step codec s (.crash p) (crash s p)
  | openJournal {p o} : s.control p ≠ none → o ∉ s.drawn →
      Step codec s (.openJournal p o)
        { s.draw [o] with home := fun o' => if o' = o then some p else s.home o' }
  | beginControl {p token epoch c} : s.control p = some c → token ∉ s.drawn → epoch ∉ s.drawn →
      token ≠ epoch → Step codec s (.beginControl p token epoch)
        ((s.setControl p (some (beginControl c token epoch))).draw [token, epoch])
  | endControl {p token epoch c} : s.control p = some c → epoch ∉ s.drawn →
      Step codec s (.endControl p token epoch)
        ((s.setControl p (some (endControl c token epoch))).draw [epoch])
  | same {a} : Step codec s a s
  | shift {a o n p c t} : a.actor = some (o, n) → s.live o = some (p, c) →
      Shift codec c o (s.thread o n) t → Step codec s a (s.setThread o n t)
  | insertOld {o n p c depth batch d stored} : s.live o = some (p, c) →
      s.thread o n = .enqueuing depth batch d → s.journal.row? d.commandId = some stored →
      Step codec s (.endEnqueue o n true) (s.setThread o n (.cycle depth batch))
  | insertNew {o n p c depth batch d} : s.live o = some (p, c) →
      s.thread o n = .enqueuing depth batch d → s.journal.row? d.commandId = none →
      (insertDraft s.journal d).2 = true →
      Step codec s (.endEnqueue o n true)
        (((s.write (insertDraft s.journal d).1).setThread o n
          (.cycle depth (grownBatch (insertDraft s.journal d).1 true d.commandId batch))).note
          (.created d.commandId))
  | aborted {o n p c id rest j} : s.live o = some (p, c) → s.thread o n = .aborting (id :: rest) →
      finish codec o s.journal id .aborted [] = .ok j →
      Step codec s (.abort o n true)
        (((s.setThread o n (.aborting rest)).write j).note (.recorded id .aborted))
  | claimed {o n p c id rest j row} : s.live o = some (p, c) →
      s.thread o n = .dispatching (id :: rest) → s.lock p = none →
      claim codec c.authority o s.journal id = .ok (j, some row) →
      Step codec s (.claim o n true)
        ((((s.write j).setThread o n (.attempting ⟨row, false, .claimed⟩ rest)).setLock p
          (some (o, n))).note (.claimed id))
  | declined {o n p c id rest j} : s.live o = some (p, c) →
      s.thread o n = .dispatching (id :: rest) →
      claim codec c.authority o s.journal id = .ok (j, none) →
      Step codec s (.claim o n true) ((s.write j).setThread o n (.dispatching rest))
  | submitted {o n p c row handed rest reason} {intent : OrderIntent} : s.live o = some (p, c) →
      s.thread o n = .attempting ⟨row, handed, .claimed⟩ rest →
      row.sealedIntent = .ok intent →
      continuousDispatchAllowed c.authority (some (row.sealDict, row.payload)) intent =
        .ok (true, reason) →
      Step codec s (.check o n)
        ((s.setThread o n (.attempting ⟨row, true, .running none⟩ rest)).note
          (.submitted row.commandId))
  | escaped {o n p c row handed refusal rest} : s.live o = some (p, c) →
      s.thread o n = .attempting ⟨row, handed, .running refusal⟩ rest →
      Step codec s (.reply o n .escaped) ((s.setThread o n .idle).setLock p none)
  | recorded {o n p c row handed verdict result rest j} : s.live o = some (p, c) →
      s.thread o n = .attempting ⟨row, handed, .answered verdict result⟩ rest →
      finish codec o s.journal row.commandId verdict.outcome result = .ok j →
      Step codec s (.record o n true)
        ((((s.write j).setThread o n (.dispatching rest)).setLock p none).note
          (.recorded row.commandId verdict.outcome))
  | fellBack {o n p c row handed rest j} : s.live o = some (p, c) →
      s.thread o n = .attempting ⟨row, handed, .failing⟩ rest →
      finish codec o s.journal row.commandId .unknown [] = .ok j →
      Step codec s (.fallback o n true)
        ((((s.setThread o n (.dispatching rest)).setLock p none).write j).note
          (.recorded row.commandId .unknown))
  | gaveUp {o n p c row handed rest written} : s.live o = some (p, c) →
      s.thread o n = .attempting ⟨row, handed, .failing⟩ rest →
      (written = true → ∃ e, finish codec o s.journal row.commandId .unknown [] = .error e) →
      Step codec s (.fallback o n written) ((s.setThread o n (.dispatching rest)).setLock p none)
  | reconciled {o p c orders j k} : s.live o = some (p, c) →
      reconcile codec o s.journal orders = .ok (j, k) →
      Step codec s (.reconcile o orders) ((s.write j).note (.reconciled o orders))

variable {codec : Codec} {s s' : System}

theorem live_bind {o : String} {f : ℕ × Control → Option System}
    (h : (s.live o >>= f) = some s') : ∃ p c, s.live o = some (p, c) ∧ f (p, c) = some s' := by
  obtain ⟨⟨p, c⟩, hlive, h⟩ := Option.bind_eq_some_iff.mp h
  exact ⟨p, c, hlive, h⟩

theorem step_enter {o : String} {n : ℕ} (h : enter s o n = some s') :
    Step codec s (.enter o n) s' := by
  replace h := live_bind h
  obtain ⟨p, c, hlive, h⟩ := h
  split at h
  · rename_i ht
    cases h
    exact .shift rfl hlive (ht ▸ .enter)
  · rename_i ht
    cases h
    exact .shift rfl hlive (ht ▸ .reenter)
  · cases h

theorem step_exit {o : String} {n : ℕ} {failed : Bool} (h : exit s o n failed = some s') :
    Step codec s (.exit o n failed) s' := by
  replace h := live_bind h
  obtain ⟨p, c, hlive, h⟩ := h
  split at h
  · rename_i ht
    cases h
    exact .shift rfl hlive (ht ▸ .exitInner)
  · rename_i batch ht
    cases h
    refine .shift rfl hlive (ht ▸ ?_)
    split_ifs with hempty
    · exact hempty ▸ .exitEmpty
    · exact .exitAborting
    · exact .exitDispatching
  · cases h

theorem step_beginEnqueue {o : String} {n : ℕ} {intent : OrderIntent}
    (h : beginEnqueue codec s o n intent = some s') :
    Step codec s (.beginEnqueue o n intent) s' := by
  replace h := live_bind h
  obtain ⟨p, c, hlive, h⟩ := h
  dsimp only at h
  split at h
  · rename_i ht
    split at h
    · rename_i hdraft
      cases h
      exact .shift rfl hlive (ht ▸ .draft hdraft)
    · cases h
      exact .same
  · cases h

theorem step_endEnqueue {o : String} {n : ℕ} {written : Bool}
    (h : endEnqueue s o n written = some s') : Step codec s (.endEnqueue o n written) s' := by
  replace h := live_bind h
  obtain ⟨p, c, hlive, h⟩ := h
  dsimp only at h
  split at h
  · rename_i depth batch d ht
    cases written with
    | false =>
      cases h
      exact .shift rfl hlive (ht ▸ .notInserted)
    | true =>
      obtain rfl := Option.some.inj h
      rcases insertDraft_row? s.journal d with ⟨stored, hstored, hins⟩ | ⟨hnone, hins, -⟩
      · simp only [hins, Bool.false_eq_true, false_and, if_false]
        exact .insertOld hlive ht hstored
      · have hnew : Step codec s _ _ := .insertNew hlive ht hnone hins
        simpa only [hins, grownBatch, if_true] using hnew
  · cases h

theorem step_abort {o : String} {n : ℕ} {written : Bool}
    (h : abort codec s o n written = some s') : Step codec s (.abort o n written) s' := by
  replace h := live_bind h
  obtain ⟨p, c, hlive, h⟩ := h
  dsimp only at h
  split at h
  · rename_i ht
    split at h
    · rename_i hfinish
      cases h
      exact .aborted hlive ht hfinish
    · cases h
      exact .shift rfl hlive (ht ▸ .notAborted)
  · cases h

theorem step_leave {o : String} {n : ℕ} (h : leave s o n = some s') :
    Step codec s (.leave o n) s' := by
  replace h := live_bind h
  obtain ⟨p, c, hlive, h⟩ := h
  split at h
  · rename_i ht
    cases h
    exact .shift rfl hlive (ht ▸ .leaveAborting)
  · rename_i ht
    cases h
    exact .shift rfl hlive (ht ▸ .leaveDispatching)
  · cases h

theorem step_claimNext {o : String} {n : ℕ} {written : Bool}
    (h : claimNext codec s o n written = some s') : Step codec s (.claim o n written) s' := by
  replace h := live_bind h
  obtain ⟨p, c, hlive, h⟩ := h
  dsimp only at h
  split at h
  · rename_i ht
    split_ifs at h with hlock
    rw [ne_eq, not_not] at hlock
    split at h
    · rename_i hclaim
      cases h
      exact .claimed hlive ht hlock hclaim
    · rename_i hclaim
      cases h
      exact .declined hlive ht hclaim
    · cases h
      exact .shift rfl hlive (ht ▸ .notClaimed)
  · cases h

theorem step_check {o : String} {n : ℕ} (h : check s o n = some s') :
    Step codec s (.check o n) s' := by
  replace h := live_bind h
  obtain ⟨p, c, hlive, h⟩ := h
  dsimp only at h
  split at h
  · rename_i ht
    split at h
    · rename_i hallowed
      obtain ⟨intent, hintent, hallowed⟩ := bind_eq_ok.mp hallowed
      cases h
      exact .submitted hlive ht hintent hallowed
    · cases h
      exact .shift rfl hlive (ht ▸ .refuse)
    · cases h
      exact .shift rfl hlive (ht ▸ .checkRaises)
  · cases h

theorem step_reply {o : String} {n : ℕ} {r : Reply} (h : reply codec s o n r = some s') :
    Step codec s (.reply o n r) s' := by
  replace h := live_bind h
  obtain ⟨p, c, hlive, h⟩ := h
  dsimp only at h
  split at h
  · rename_i ht
    cases r with
    | result value =>
      dsimp only at h
      split at h <;> cases h
      · exact .shift rfl hlive (ht ▸ .answer)
      · exact .shift rfl hlive (ht ▸ .raise)
    | raised =>
      cases h
      exact .shift rfl hlive (ht ▸ .raise)
    | escaped =>
      cases h
      exact .escaped hlive ht
  · cases h

theorem step_record {o : String} {n : ℕ} {written : Bool}
    (h : record codec s o n written = some s') : Step codec s (.record o n written) s' := by
  replace h := live_bind h
  obtain ⟨p, c, hlive, h⟩ := h
  dsimp only at h
  split at h
  · rename_i ht
    split at h
    · rename_i hfinish
      cases h
      exact .recorded hlive ht hfinish
    · cases h
      exact .shift rfl hlive (ht ▸ .notRecorded)
  · cases h

theorem step_fallback {o : String} {n : ℕ} {written : Bool}
    (h : fallback codec s o n written = some s') : Step codec s (.fallback o n written) s' := by
  replace h := live_bind h
  obtain ⟨p, c, hlive, h⟩ := h
  dsimp only at h
  split at h
  · rename_i row handed rest ht
    cases hfinish : finish codec o s.journal row.commandId .unknown [] with
    | error e =>
      rw [hfinish] at h
      cases written <;> cases h
      · exact .gaveUp hlive ht (by simp)
      · exact .gaveUp hlive ht fun _ => ⟨e, hfinish⟩
    | ok j =>
      rw [hfinish] at h
      cases written <;> cases h
      · exact .gaveUp hlive ht (by simp)
      · exact .fellBack hlive ht hfinish
  · cases h

theorem step_reconcileAt {o : String} {orders : List Fields}
    (h : reconcileAt codec s o orders = some s') : Step codec s (.reconcile o orders) s' := by
  replace h := live_bind h
  obtain ⟨p, c, hlive, h⟩ := h
  split at h
  · rename_i hrec
    cases h
    exact .reconciled hlive hrec
  · cases h
    exact .same

/-- **Inversion.**  What a step does, with the guards it passed. -/
theorem step_cases {a : Action} (h : step codec s a = some s') : Step codec s a s' := by
  cases a with
  | boot p epoch =>
    simp only [step, boot, Option.ite_none_right_eq_some, Option.some.injEq] at h
    obtain ⟨⟨hfree, hepoch⟩, rfl⟩ := h
    exact .boot hfree hepoch
  | crash p =>
    obtain rfl := Option.some.inj h
    exact .crash
  | openJournal p o =>
    simp only [step, openJournal, Option.ite_none_right_eq_some, Option.some.injEq] at h
    obtain ⟨⟨hrunning, hfresh⟩, rfl⟩ := h
    exact .openJournal hrunning hfresh
  | beginControl p token epoch =>
    obtain ⟨c, hc, h⟩ := Option.bind_eq_some_iff.mp h
    simp only [Option.ite_none_right_eq_some, Option.some.injEq] at h
    obtain ⟨⟨htoken, hepoch, hne⟩, rfl⟩ := h
    exact .beginControl hc htoken hepoch hne
  | endControl p token epoch =>
    obtain ⟨c, hc, h⟩ := Option.bind_eq_some_iff.mp h
    simp only [Option.ite_none_right_eq_some, Option.some.injEq] at h
    obtain ⟨hepoch, rfl⟩ := h
    exact .endControl hc hepoch
  | enter o n => exact step_enter h
  | exit o n failed => exact step_exit h
  | beginEnqueue o n intent => exact step_beginEnqueue h
  | endEnqueue o n written => exact step_endEnqueue h
  | abort o n written => exact step_abort h
  | leave o n => exact step_leave h
  | claim o n written => exact step_claimNext h
  | check o n => exact step_check h
  | reply o n r => exact step_reply h
  | record o n written => exact step_record h
  | fallback o n written => exact step_fallback h
  | reconcile o orders => exact step_reconcileAt h

/-- A step moves the thread that acts; the others stay or end with their process. -/
theorem Step.thread {a : Action} (h : Step codec s a s') {o : String} {n : ℕ}
    (hother : a.actor ≠ some (o, n)) : s'.thread o n = s.thread o n ∨ s'.thread o n = .idle := by
  cases h with
  | boot | openJournal | beginControl | endControl | same | reconciled => exact .inl rfl
  | @crash p =>
    by_cases hhome : s.home o = some p
    · exact .inr (if_pos hhome)
    · exact .inl (if_neg hhome)
  | shift hactor =>
    refine .inl (if_neg fun hat => hother ?_)
    rw [hactor, hat.1, hat.2]
  | insertOld | insertNew | aborted | claimed | declined | submitted | escaped | recorded
  | fellBack | gaveUp =>
    refine .inl (if_neg fun hat => hother ?_)
    rw [hat.1, hat.2]
    rfl

end LiveTrader.Dispatch
