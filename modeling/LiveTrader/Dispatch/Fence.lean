/-
# `Dispatch.Fence` — the control fence

Every token in use was drawn (`Drawn`), so an epoch that is no longer the
unblocked authority of a process never becomes it again (`Dead`).  A row under a
dead epoch is not claimed and its sealed intent does not pass the permission
check, whatever happens afterwards.
-/
import LiveTrader.Dispatch.AtMostOnce

namespace LiveTrader.Dispatch

open Lib.Py Lib.Runs

variable {codec : Codec} {s s' t : System} {a : Action} {o : String} {p : ℕ}

/-! ## Tokens -/

/-- Every owner and epoch in use was drawn, and the flag of an authority says whether
a control is open. -/
structure Drawn (s : System) : Prop where
  row : ∀ {id row}, s.journal.row? id = some row → row.owner ∈ s.drawn ∧ row.epoch ∈ s.drawn
  home : ∀ {o p}, s.home o = some p → o ∈ s.drawn
  draft : ∀ {o n depth batch d}, s.thread o n = .enqueuing depth batch d →
    d.owner = o ∧ o ∈ s.drawn ∧ d.epoch ∈ s.drawn
  epoch : ∀ {p c}, s.control p = some c → c.authority.epoch ∈ s.drawn
  blocked : ∀ {p c}, s.control p = some c → c.authority.blocked = !c.tokens.isEmpty

theorem Drawn.init : Drawn .init where
  row h := by cases h
  home h := by cases h
  draft h := by cases h
  epoch h := by cases h
  blocked h := by cases h

theorem live_home {c : Control} (h : s.live o = some (p, c)) : s.home o = some p := by
  rw [System.live] at h
  cases hhome : s.home o with
  | none => simp [hhome] at h
  | some q =>
    rw [hhome] at h
    obtain ⟨c', -, heq⟩ := Option.map_eq_some_iff.mp h
    rw [(Prod.mk.inj heq).1]

theorem live_control {c : Control} (h : s.live o = some (p, c)) : s.control p = some c := by
  rw [System.live] at h
  cases hhome : s.home o with
  | none => simp [hhome] at h
  | some q =>
    rw [hhome] at h
    obtain ⟨c', hc, heq⟩ := Option.map_eq_some_iff.mp h
    obtain ⟨rfl, rfl⟩ := Prod.mk.inj heq
    exact hc

/-- No row of the new table is under another owner or epoch than it was, or than the
tokens allow. -/
theorem Drawn.of_advances (h : Drawn s) {j : Journal} (hadv : Advances o s.journal j)
    (hback : ∀ id row', j.row? id = some row' → ∃ row, s.journal.row? id = some row) {id : String}
    {row' : Row} (hrow' : j.row? id = some row') : row'.owner ∈ s.drawn ∧ row'.epoch ∈ s.drawn := by
  obtain ⟨row, hrow⟩ := hback id row' hrow'
  obtain ⟨row₁, hrow₁, hmove⟩ := hadv id row hrow
  obtain rfl := Option.some.inj (hrow'.symm.trans hrow₁)
  rw [hmove.owner, hmove.epoch]
  exact h.row hrow

theorem update_back (j : Journal) (id : String) (state : RowState) (result : Option Summary)
    (key : String) (row' : Row) (h : (j.update id state result).row? key = some row') :
    ∃ row, j.row? key = some row := by
  rw [Journal.row?_update] at h
  obtain ⟨row, hrow, -⟩ := Option.map_eq_some_iff.mp h
  exact ⟨row, hrow⟩

theorem claim_back {authority : Authority} {j j' : Journal} {id : String} {claimed : Option Row}
    (h : claim codec authority o j id = .ok (j', claimed)) (key : String) (row' : Row)
    (hrow' : j'.row? key = some row') : ∃ row, j.row? key = some row := by
  rcases claim_eq_ok h with ⟨rfl, -⟩ | ⟨_, -, -, -, ⟨rfl, -⟩ | ⟨-, -, -, rfl, -⟩⟩
  · exact ⟨row', hrow'⟩
  · exact update_back _ _ _ _ key row' hrow'
  · exact update_back _ _ _ _ key row' hrow'

theorem finish_back {j j' : Journal} {id : String} {outcome : Outcome} {result : Fields}
    (h : finish codec o j id outcome result = .ok j') (key : String) (row' : Row)
    (hrow' : j'.row? key = some row') : ∃ row, j.row? key = some row := by
  obtain ⟨_, _, -, -, -, rfl⟩ := finish_eq_ok h
  exact update_back _ _ _ _ key row' hrow'

theorem reconcile_back {j j' : Journal} {orders : List Fields} {k : ℕ}
    (h : reconcile codec o j orders = .ok (j', k)) (key : String) (row' : Row)
    (hrow' : j'.row? key = some row') : ∃ row, j.row? key = some row := by
  cases hrow : j.row? key with
  | none =>
    rw [reconcile_row?_none h hrow] at hrow'
    cases hrow'
  | some row => exact ⟨row, rfl⟩

/-- A draft that is under way was under way before, or was read just now. -/
theorem Drawn.setThread (h : Drawn s) {n : ℕ} {th : Thread}
    (hth : ∀ depth batch d, th = .enqueuing depth batch d →
      d.owner = o ∧ o ∈ s.drawn ∧ d.epoch ∈ s.drawn) {o' : String} {n' : ℕ} {depth : ℕ}
    {batch : List String} {d : Draft} (hd : (s.setThread o n th).thread o' n' = .enqueuing depth batch d) :
    d.owner = o' ∧ o' ∈ s.drawn ∧ d.epoch ∈ s.drawn := by
  simp only [System.setThread] at hd
  split_ifs at hd with hat
  · obtain ⟨rfl, rfl⟩ := hat
    exact hth depth batch d hd
  · exact h.draft hd

/-- **Step.**  Tokens in use stay drawn. -/
theorem Drawn.step (h : Drawn s) (hstep : Step codec s a s') : Drawn s' := by
  cases hstep with
  | @boot p epoch _ _ =>
    refine ⟨fun hr => ?_, fun hh => List.mem_cons_of_mem _ (h.home hh), fun hd => ?_, fun hc => ?_,
      fun hc => ?_⟩
    · exact ⟨List.mem_cons_of_mem _ (h.row hr).1, List.mem_cons_of_mem _ (h.row hr).2⟩
    · obtain ⟨howner, ho, he⟩ := h.draft hd
      exact ⟨howner, List.mem_cons_of_mem _ ho, List.mem_cons_of_mem _ he⟩
    · simp only [System.draw, System.setControl] at hc ⊢
      split_ifs at hc
      · obtain rfl := Option.some.inj hc
        exact List.mem_cons_self
      · exact List.mem_cons_of_mem _ (h.epoch hc)
    · simp only [System.draw, System.setControl] at hc
      split_ifs at hc
      · obtain rfl := Option.some.inj hc
        rfl
      · exact h.blocked hc
  | @crash p =>
    refine ⟨h.row, fun hh => ?_, fun hd => ?_, fun hc => ?_, fun hc => ?_⟩
    · simp only [Dispatch.crash] at hh
      split_ifs at hh
      exact h.home hh
    · simp only [Dispatch.crash] at hd
      split_ifs at hd
      exact h.draft hd
    · simp only [Dispatch.crash, System.setControl, System.setLock] at hc
      split_ifs at hc
      exact h.epoch hc
    · simp only [Dispatch.crash, System.setControl, System.setLock] at hc
      split_ifs at hc
      exact h.blocked hc
  | @openJournal p o _ _ =>
    refine ⟨fun hr => ?_, fun hh => ?_, fun hd => ?_, fun hc => List.mem_cons_of_mem _ (h.epoch hc),
      h.blocked⟩
    · exact ⟨List.mem_cons_of_mem _ (h.row hr).1, List.mem_cons_of_mem _ (h.row hr).2⟩
    · dsimp only at hh
      split_ifs at hh with ho
      · exact ho ▸ List.mem_cons_self
      · exact List.mem_cons_of_mem _ (h.home hh)
    · obtain ⟨howner, ho, he⟩ := h.draft hd
      exact ⟨howner, List.mem_cons_of_mem _ ho, List.mem_cons_of_mem _ he⟩
  | @beginControl p token epoch c _ _ _ _ =>
    have hmem : ∀ {x}, x ∈ s.drawn → x ∈ [token, epoch] ++ s.drawn :=
      fun hx => List.mem_append_right _ hx
    refine ⟨fun hr => ⟨hmem (h.row hr).1, hmem (h.row hr).2⟩, fun hh => hmem (h.home hh),
      fun hd => ?_, fun hc => ?_, fun hc => ?_⟩
    · obtain ⟨howner, ho, he⟩ := h.draft hd
      exact ⟨howner, hmem ho, hmem he⟩
    · simp only [System.draw, System.setControl] at hc ⊢
      split_ifs at hc
      · obtain rfl := Option.some.inj hc
        simp [Dispatch.beginControl]
      · exact hmem (h.epoch hc)
    · simp only [System.draw, System.setControl] at hc
      split_ifs at hc
      · obtain rfl := Option.some.inj hc
        rfl
      · exact h.blocked hc
  | @endControl p token epoch c _ _ =>
    refine ⟨fun hr => ?_, fun hh => List.mem_cons_of_mem _ (h.home hh), fun hd => ?_, fun hc => ?_,
      fun hc => ?_⟩
    · exact ⟨List.mem_cons_of_mem _ (h.row hr).1, List.mem_cons_of_mem _ (h.row hr).2⟩
    · obtain ⟨howner, ho, he⟩ := h.draft hd
      exact ⟨howner, List.mem_cons_of_mem _ ho, List.mem_cons_of_mem _ he⟩
    · simp only [System.draw, System.setControl] at hc ⊢
      split_ifs at hc
      · obtain rfl := Option.some.inj hc
        exact List.mem_cons_self
      · exact List.mem_cons_of_mem _ (h.epoch hc)
    · simp only [System.draw, System.setControl] at hc
      split_ifs at hc
      · obtain rfl := Option.some.inj hc
        rfl
      · exact h.blocked hc
  | same => exact h
  | @shift _ o n p c th _ hlive hshift =>
    refine ⟨h.row, h.home, fun hd => h.setThread ?_ hd, h.epoch, h.blocked⟩
    intro depth batch d heq
    subst heq
    generalize s.thread o n = th at hshift
    cases hshift with
    | draft hdraft =>
      obtain ⟨howner, hepoch, -, -⟩ := draft_keeps hdraft
      exact ⟨howner, h.home (live_home hlive), hepoch ▸ h.epoch (live_control hlive)⟩
  | insertOld | escaped | gaveUp =>
    exact ⟨h.row, h.home, fun hd => h.setThread (fun _ _ _ heq => by cases heq) hd, h.epoch,
      h.blocked⟩
  | submitted =>
    exact ⟨h.row, h.home, fun hd => h.setThread (fun _ _ _ heq => by cases heq) hd, h.epoch,
      h.blocked⟩
  | @insertNew o n p c depth batch d hlive ht hnone hins =>
    refine ⟨fun {id row} hr => ?_, h.home, fun hd => h.setThread (fun _ _ _ heq => by cases heq) hd,
      h.epoch, h.blocked⟩
    rcases insertDraft_row? s.journal d with ⟨_, hstored, -⟩ | ⟨-, -, hrows⟩
    · rw [hnone] at hstored
      cases hstored
    · change (insertDraft s.journal d).1.row? id = some row at hr
      rw [hrows] at hr
      split_ifs at hr
      · obtain rfl := Option.some.inj hr
        obtain ⟨howner, ho, he⟩ := h.draft ht
        exact ⟨howner ▸ ho, he⟩
      · exact h.row hr
  | aborted _ _ hfinish | recorded _ _ hfinish | fellBack _ _ hfinish =>
    exact ⟨fun hr => h.of_advances (finish_advances hfinish) (finish_back hfinish) hr, h.home,
      fun hd => h.setThread (fun _ _ _ heq => by cases heq) hd, h.epoch, h.blocked⟩
  | claimed _ _ _ hclaim | declined _ _ hclaim =>
    exact ⟨fun hr => h.of_advances (claim_advances hclaim) (claim_back hclaim) hr, h.home,
      fun hd => h.setThread (fun _ _ _ heq => by cases heq) hd, h.epoch, h.blocked⟩
  | reconciled _ hrec =>
    exact ⟨fun hr => h.of_advances (reconcile_advances hrec) (reconcile_back hrec) hr, h.home,
      h.draft, h.epoch, h.blocked⟩

theorem drawn_run {ok : System → Action → Prop} {acts : List Action}
    (h : Run (step codec) ok .init acts s) : Drawn s :=
  h.invariant (fun _ hstep hinv => hinv.step (step_cases hstep)) .init

/-! ## Dead epochs -/

theorem Step.drawn (h : Step codec s a s') : s.drawn ⊆ s'.drawn := by
  cases h with
  | boot | openJournal | endControl => exact List.subset_cons_self _ _
  | beginControl => exact List.subset_append_right _ _
  | _ => exact List.Subset.refl _

/-- The epoch is used up and is not the unblocked authority of the process. -/
def Dead (s : System) (p : ℕ) (epoch : String) : Prop :=
  epoch ∈ s.drawn ∧ ∀ c, s.control p = some c → c.authority ≠ ⟨epoch, false⟩

theorem Dead.step {epoch : String} (h : Dead s p epoch) (hstep : Step codec s a s') :
    Dead s' p epoch := by
  refine ⟨hstep.drawn h.1, fun c hc => ?_⟩
  cases hstep with
  | @boot q fresh _ hfresh =>
    simp only [System.draw, System.setControl] at hc
    split_ifs at hc
    · obtain rfl := Option.some.inj hc
      intro heq
      exact hfresh ((Authority.mk.inj heq).1 ▸ h.1)
    · exact h.2 c hc
  | crash =>
    simp only [Dispatch.crash, System.setControl, System.setLock] at hc
    split_ifs at hc
    exact h.2 c hc
  | @beginControl q token fresh c₀ _ _ _ _ =>
    simp only [System.draw, System.setControl] at hc
    split_ifs at hc
    · obtain rfl := Option.some.inj hc
      intro heq
      cases (Authority.mk.inj heq).2
    · exact h.2 c hc
  | @endControl q token fresh c₀ _ hfresh =>
    simp only [System.draw, System.setControl] at hc
    split_ifs at hc
    · obtain rfl := Option.some.inj hc
      intro heq
      exact hfresh ((Authority.mk.inj heq).1 ▸ h.1)
    · exact h.2 c hc
  | openJournal | same | shift | insertOld | insertNew | aborted | claimed | declined | submitted
  | escaped | recorded | fellBack | gaveUp | reconciled => exact h.2 c hc

/-- The controller was opened in this process, and in no other. -/
def Homed (s : System) (p : ℕ) (o : String) : Prop :=
  o ∈ s.drawn ∧ ∀ q, s.home o = some q → q = p

theorem Homed.step (h : Homed s p o) (hstep : Step codec s a s') : Homed s' p o := by
  refine ⟨hstep.drawn h.1, fun q hq => ?_⟩
  cases hstep with
  | crash =>
    simp only [Dispatch.crash] at hq
    split_ifs at hq
    exact h.2 q hq
  | @openJournal q' o' _ hfresh =>
    dsimp only at hq
    split_ifs at hq with ho
    · exact absurd (ho ▸ h.1) hfresh
    · exact h.2 q hq
  | boot | beginControl | endControl | same | shift | insertOld | insertNew | aborted | claimed
  | declined | submitted | escaped | recorded | fellBack | gaveUp | reconciled => exact h.2 q hq

/-! ## Rows over a run -/

/-- A row some time later: only its state and result may have changed. -/
def Later (s s' : System) : Prop := ∀ id row, s.journal.row? id = some row →
  ∃ row', s'.journal.row? id = some row' ∧
    row' = { row with state := row'.state, result := row'.result }

theorem Later.trans (h : Later s s') (h' : Later s' t) : Later s t := by
  intro id row hrow
  obtain ⟨row₁, hrow₁, hkeep₁⟩ := h id row hrow
  obtain ⟨row₂, hrow₂, hkeep₂⟩ := h' id row₁ hrow₁
  exact ⟨row₂, hrow₂, by rw [hkeep₂, hkeep₁]⟩

theorem later_of_advances (h : Advances o s.journal s'.journal) : Later s s' := by
  intro id row hrow
  obtain ⟨row', hrow', hmove⟩ := h id row hrow
  exact ⟨row', hrow', hmove.keeps⟩

theorem Step.later (h : Step codec s a s') : Later s s' := by
  cases h with
  | boot | crash | openJournal | beginControl | endControl | same | shift | insertOld | submitted
  | escaped | gaveUp => exact later_of_advances (o := "") (.refl _ _)
  | insertNew => exact later_of_advances (o := "") (insertDraft_advances _ _)
  | aborted _ _ hfinish | recorded _ _ hfinish | fellBack _ _ hfinish =>
    exact later_of_advances (finish_advances hfinish)
  | claimed _ _ _ hclaim | declined _ _ hclaim => exact later_of_advances (claim_advances hclaim)
  | reconciled _ hrec => exact later_of_advances (reconcile_advances hrec)

theorem Run.later {ok : System → Action → Prop} {acts : List Action}
    (h : Run (step codec) ok s acts t) : Later s t :=
  h.relation (fun s => later_of_advances (o := "") (.refl _ s.journal)) Later.trans
    fun _ hstep => (step_cases hstep).later

/-! ## Refusal -/

/-- The intent carries the seal of the row, as the dispatched intent does. -/
def Carries (intent : OrderIntent) (row : Row) : Prop :=
  ∃ metadata : Fields, intent.metadata = .obj metadata ∧ metadata.at metaKey = row.sealDict

/-- A sealed intent passes only under the epoch of its seal, unblocked. -/
theorem allowed_epoch {authority : Authority} {context : Option (Json × Fields)}
    {intent : OrderIntent} {row : Row} {reason : String} (hcarries : Carries intent row)
    (h : continuousDispatchAllowed authority context intent = .ok (true, reason)) :
    authority = ⟨row.epoch, false⟩ := by
  obtain ⟨metadata, hmeta, hseal⟩ := hcarries
  rw [continuousDispatchAllowed, hmeta] at h
  dsimp only at h
  rw [hseal] at h
  simp only [Row.sealDict] at h
  cases context with
  | none => simp at h
  | some context =>
    obtain ⟨sealed, original⟩ := context
    dsimp only at h
    split at h
    · simp at h
    · obtain ⟨fields, hfields, h⟩ := bind_eq_ok.mp h
      obtain rfl : _ = fields := Except.ok.inj hfields
      split at h
      · simp at h
      · rename_i hfence
        obtain ⟨epoch, blocked⟩ := authority
        simp only [Bool.or_eq_true, Bool.not_eq_true', not_or, Bool.not_eq_true,
          Bool.not_eq_false] at hfence
        obtain ⟨rfl, hepoch⟩ := hfence
        have heq : (Json.str row.epoch).eq (.str epoch) = true := hepoch
        rw [Json.eq, beq_iff_eq] at heq
        rw [heq]

/-- No claim of the row succeeds and no intent with its seal passes the check. -/
def Refused (codec : Codec) (s : System) (p : ℕ) (row : Row) : Prop :=
  (∀ o q c, s.live o = some (q, c) → ∀ j claimed,
    claim codec c.authority o s.journal row.commandId ≠ .ok (j, some claimed)) ∧
  ∀ c, s.control p = some c → ∀ context intent reason, Carries intent row →
    continuousDispatchAllowed c.authority context intent ≠ .ok (true, reason)

theorem refused_of_dead {row row' : Row} (hdead : Dead s p row.epoch) (hhome : Homed s p row.owner)
    (hrow : s.journal.row? row.commandId = some row')
    (hkeep : row' = { row with state := row'.state, result := row'.result }) :
    Refused codec s p row := by
  refine ⟨fun o q c hlive j claimed hclaim => ?_, fun c hc context intent reason hcarries h => ?_⟩
  · rcases claim_eq_ok hclaim with ⟨-, h⟩ | ⟨r, hr, howner, -, ⟨-, h⟩ | ⟨hblocked, hepoch, -, -, -⟩⟩
    · cases h
    · cases h
    · obtain rfl := Option.some.inj (hrow.symm.trans hr)
      have hown : row.owner = o := by
        rw [← howner, hkeep]
      obtain rfl := hhome.2 q (hown ▸ live_home hlive)
      refine hdead.2 c (live_control hlive) ?_
      have hsame : row'.epoch = row.epoch := by rw [hkeep]
      rw [← hsame, hepoch, ← hblocked]
  · exact hdead.2 c hc (allowed_epoch hcarries h)

/-- What is refused under a dead epoch stays refused. -/
theorem refused_run {acts : List Action} (h : Run (step codec) Free s acts t) {row : Row}
    (hdead : Dead s p row.epoch) (hhome : Homed s p row.owner)
    (hrow : s.journal.row? row.commandId = some row) : Refused codec t p row := by
  obtain ⟨row', hrow', hkeep⟩ := Run.later h row.commandId row hrow
  refine refused_of_dead ?_ ?_ hrow' hkeep
  · exact h.invariant (fun _ hstep hd => Dead.step hd (step_cases hstep)) hdead
  · exact h.invariant (fun _ hstep hh => Homed.step hh (step_cases hstep)) hhome

/-! ## When all controls have ended -/

/-- No control of the process begins or ends. -/
def Uncontrolled (p : ℕ) (_ : System) : Action → Prop
  | .beginControl q _ _ | .endControl q _ _ => q ≠ p
  | _ => True

/-- While a controller lives and no control moves, the authority of its process stays. -/
theorem authority_kept {c : Control} (hok : Uncontrolled p s a) (hstep : Step codec s a s')
    (h : o ∈ s.drawn ∧ (s.home o = some p → s.control p = some c)) :
    o ∈ s'.drawn ∧ (s'.home o = some p → s'.control p = some c) := by
  refine ⟨hstep.drawn h.1, fun hhome => ?_⟩
  cases hstep with
  | @boot q _ hfree =>
    simp only [System.draw, System.setControl]
    split_ifs with hq
    · have hc := h.2 hhome
      rw [hq, hfree] at hc
      cases hc
    · exact h.2 hhome
  | @crash q =>
    simp only [Dispatch.crash] at hhome
    split_ifs at hhome with hq
    simp only [Dispatch.crash, System.setControl, System.setLock]
    rw [if_neg fun hpq : p = q => hq (hpq ▸ hhome)]
    exact h.2 hhome
  | @openJournal q o' _ hfresh =>
    dsimp only at hhome
    split_ifs at hhome with ho
    · exact absurd (ho ▸ h.1) hfresh
    · exact h.2 hhome
  | beginControl | endControl =>
    simp only [System.draw, System.setControl]
    rw [if_neg (Ne.symm hok)]
    exact h.2 hhome
  | same | shift | insertOld | insertNew | aborted | claimed | declined | submitted | escaped
  | recorded | fellBack | gaveUp | reconciled => exact h.2 hhome

/-- A queued row of the controller, under the authority in force, is claimable. -/
theorem claim_succeeds {c : Control} {row : Row}
    (hrow : s.journal.row? row.commandId = some row) (howner : row.owner = o)
    (hq : row.state = .queued) (hauth : c.authority = ⟨row.epoch, false⟩)
    (hfree : s.journal.unresolved o = false)
    (hhash : codec.sha256 (.obj row.payload) = row.payloadHash) :
    ∃ j, claim codec c.authority o s.journal row.commandId = .ok (j, some row) := by
  refine ⟨s.journal.update row.commandId .dispatching none, ?_⟩
  rw [claim, hrow]
  simp [howner, hq, hauth, hfree, hhash, require]

/-- The transaction of `enqueue`, seen from the table and the tokens. -/
theorem endEnqueue_eq_some {n : ℕ} (h : endEnqueue s o n true = some s') :
    ∃ depth batch d, s.thread o n = .enqueuing depth batch d ∧
      s'.journal = (insertDraft s.journal d).1 ∧ s'.control = s.control := by
  replace h := live_bind h
  obtain ⟨_, _, _, h⟩ := h
  dsimp only at h
  split at h
  · rename_i depth batch d ht
    refine ⟨depth, batch, d, ht, ?_⟩
    obtain rfl := Option.some.inj h
    split <;> exact ⟨rfl, rfl⟩
  · cases h

theorem fenced_by_begin (h : Drawn s) {token epoch : String} {acts : List Action} {id : String}
    {row : Row} (hbegin : step codec s (.beginControl p token epoch) = some s')
    (hrow : s.journal.row? id = some row) (hhome : ∀ q, s.home row.owner = some q → q = p)
    (hrun : Run (step codec) Free s' acts t) : Refused codec t p row := by
  obtain rfl := Journal.row?_key hrow
  have hstep := step_cases hbegin
  obtain ⟨c, hc, hs'⟩ := Option.bind_eq_some_iff.mp hbegin
  simp only [Option.ite_none_right_eq_some, Option.some.injEq] at hs'
  obtain ⟨-, rfl⟩ := hs'
  refine refused_run hrun ⟨hstep.drawn (h.row hrow).2, fun c' hc' heq => ?_⟩
    (Homed.step ⟨(h.row hrow).1, hhome⟩ hstep) hrow
  simp only [System.draw, System.setControl, if_true, Option.some.injEq] at hc'
  rw [← hc'] at heq
  cases (Authority.mk.inj heq).2

theorem fenced_by_open_control (h : Drawn s) {c : Control} {n : ℕ} {acts : List Action}
    {id : String} {row : Row} (hlive : s.live o = some (p, c)) (hopen : c.tokens ≠ [])
    (hins : step codec s (.endEnqueue o n true) = some s') (hnone : s.journal.row? id = none)
    (hrow : s'.journal.row? id = some row) (hrun : Run (step codec) Free s' acts t) :
    Refused codec t p row := by
  obtain rfl := Journal.row?_key hrow
  have hstep := step_cases hins
  obtain ⟨depth, batch, d, ht, hjournal, hcontrol⟩ := endEnqueue_eq_some hins
  obtain ⟨howner, ho, hepoch⟩ := h.draft ht
  -- the row is the draft of this thread
  have hd : row.owner = d.owner ∧ row.epoch = d.epoch := by
    rcases insertDraft_row? s.journal d with ⟨_, -, hold⟩ | ⟨-, -, hrows⟩
    · rw [hjournal, hold, hnone] at hrow
      cases hrow
    · rw [hjournal, hrows] at hrow
      split_ifs at hrow
      · obtain rfl := Option.some.inj hrow
        exact ⟨rfl, rfl⟩
      · rw [hnone] at hrow
        cases hrow
  refine refused_run hrun ⟨hstep.drawn (hd.2 ▸ hepoch), fun c' hc' heq => ?_⟩
    (Homed.step ⟨hd.1 ▸ howner ▸ ho, fun q hq => ?_⟩ hstep) hrow
  · rw [hcontrol, live_control hlive] at hc'
    obtain rfl := Option.some.inj hc'
    have hblocked := h.blocked (live_control hlive)
    rw [heq] at hblocked
    simp [hopen] at hblocked
  · rw [hd.1, howner, live_home hlive] at hq
    exact (Option.some.inj hq).symm

theorem claimable_again (h : Drawn s) {c : Control} {n depth : ℕ} {intent : OrderIntent}
    {d : Draft} {s₁ s₂ s₃ : System} {acts₁ acts₂ : List Action} {batch : List String} {row : Row}
    (hlive : s.live o = some (p, c)) (hended : c.tokens = [])
    (hdraft : draft codec c.authority o intent = .ok d)
    (hbegin : step codec s (.beginEnqueue o n intent) = some s₁)
    (hrun₁ : Run (step codec) (Uncontrolled p) s₁ acts₁ s₂)
    (ht : s₂.thread o n = .enqueuing depth batch d)
    (hnone : s₂.journal.row? d.commandId = none) (hfree : s₂.journal.unresolved o = false)
    (hins : step codec s₂ (.endEnqueue o n true) = some s₃)
    (hrun₂ : Run (step codec) (Uncontrolled p) s₃ acts₂ t)
    (hrow : t.journal.row? d.commandId = some row) :
    s₃.journal.row? d.commandId = some { row with state := .queued, result := .empty } ∧
      (row.state = .queued → t.journal.unresolved o = false → ∀ q c', t.live o = some (q, c') →
        ∃ j, claim codec c'.authority o t.journal d.commandId = .ok (j, some row)) := by
  obtain ⟨howner, hepoch, hblocked, hhash⟩ := draft_keeps hdraft
  obtain ⟨depth', batch', d', ht', hjournal, -⟩ := endEnqueue_eq_some hins
  obtain ⟨-, -, rfl⟩ : depth = depth' ∧ batch = batch' ∧ d = d' := by
    simpa using ht.symm.trans ht'
  have hnotBlocked : d.blocked = false := by
    rw [hblocked, h.blocked (live_control hlive), hended]
    rfl
  have hself : s₃.journal.row? d.commandId = some (d.row false) := by
    rcases insertDraft_row? s₂.journal d with ⟨_, hstored, -⟩ | ⟨-, -, hrows⟩
    · rw [hnone] at hstored
      cases hstored
    · rw [hjournal, hrows, if_pos rfl, howner, hfree]
  obtain ⟨row', hrow', hkeep⟩ := Run.later hrun₂ d.commandId _ hself
  obtain rfl := Option.some.inj (hrow.symm.trans hrow')
  refine ⟨?_, fun hq hunresolved q c' hlive' => ?_⟩
  · rw [hself, hkeep]
    simp [Draft.row, hnotBlocked]
  · -- the authority read by the draft is still the one in force
    have hstart : o ∈ s.drawn ∧ (s.home o = some p → s.control p = some c) :=
      ⟨h.home (live_home hlive), fun _ => live_control hlive⟩
    have hs₁ := authority_kept (p := p) (a := .beginEnqueue o n intent) trivial (step_cases hbegin)
      hstart
    have hs₂ := hrun₁.invariant (fun hok hstep hi => authority_kept hok (step_cases hstep) hi) hs₁
    have hs₃ := authority_kept (p := p) (a := .endEnqueue o n true) trivial (step_cases hins) hs₂
    have hend := hrun₂.invariant (fun hok hstep hi => authority_kept hok (step_cases hstep) hi) hs₃
    have hhomed : Homed t p o := by
      have hhome : Homed s p o :=
        ⟨hstart.1, fun r hr => Option.some.inj (hr.symm.trans (live_home hlive))⟩
      have h₁ := hrun₁.invariant (fun _ hstep hi => Homed.step hi (step_cases hstep))
        (hhome.step (step_cases hbegin))
      exact hrun₂.invariant (fun _ hstep hi => Homed.step hi (step_cases hstep))
        (h₁.step (step_cases hins))
    obtain rfl := hhomed.2 q (live_home hlive')
    obtain rfl := Option.some.inj ((live_control hlive').symm.trans (hend.2 (live_home hlive')))
    have hid := Journal.row?_key hrow
    rw [← hid]
    refine claim_succeeds (hid.symm ▸ hrow) ?_ hq ?_ hunresolved ?_
    · rw [hkeep]
      exact howner
    · have hb : c'.authority.blocked = false := hblocked ▸ hnotBlocked
      rw [hkeep]
      exact congrArg₂ Authority.mk hepoch.symm hb
    · rw [hkeep]
      exact hhash.symm

end LiveTrader.Dispatch
