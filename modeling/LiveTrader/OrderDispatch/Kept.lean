/-
# `OrderDispatch.Kept` — a possibly crossed order is never recorded as failed

In every run of dispatches `place_order` is reached once for a key, by the dispatch that has
created the row of the key.  A dispatch that has ended with a crossed order and no definite
rejection keeps it, in the record, the OMS and the journal alike, exactly when its attempt is
clear and the fault of its last write, if any, is one that the code catches (`kept_of_run`).
-/
import LiveTrader.OrderDispatch.Crossed

namespace LiveTrader.OrderDispatch

open Lib Lib.Py Lib.Runs

variable {env : Env} {oms : Oms}

/-! ## The property -/

/-- What the OMS makes of an outcome. -/
def Outcome.standing : Outcome → String
  | .acknowledged _ => "ACKNOWLEDGED"
  | .rejected _ | .adapterBlocked _ => "REJECTED"
  | .escaped _ => "SUBMITTING"
  | _ => "UNKNOWN"

/-- The response is ok and names the order. -/
def Acknowledges (env : Env) (brokerId : String) (a : Attempt) (brokerOrderId : String) : Prop :=
  ∃ response, (sendOrder env brokerId a).answer = .ok response ∧ ((dictOr response).at "ok").isTrue = true ∧
    brokerOrderId ≠ "" ∧ brokerOrderIdOf env (dictOr ((dictOr response).at "json")) = .ok brokerOrderId

/-- The journal has the order record. -/
def InJournal (s : State) (order : Order) : Prop :=
  ∃ row ∈ s.journal, order.owns row = true ∧ row.state = order.state ∧ row.order = order

/-- The order is acknowledged or unknown, in the OMS, the record and the journal alike. -/
structure Kept (env : Env) (s : State) (d : Dispatch) (a : Attempt) : Prop where
  standing : d.status = "ACKNOWLEDGED" ∨ d.status = "UNKNOWN"
  acknowledged : d.status = "ACKNOWLEDGED" → Acknowledges env d.order.brokerId a d.order.brokerOrderId
  record : d.saved = true →
    (d.status = "ACKNOWLEDGED" → d.order.state = "acknowledged" ∧ d.order.queueState = "submitted") ∧
    (d.status = "UNKNOWN" → d.order.state = "unknown" ∧ d.order.queueState = "reconcile_required") ∧
    InJournal s d.order
  /-- What the coordinator records as unknown is not recorded as rejected. -/
  agrees : ∀ {response id}, submitted d.order.brokerId a = .ok response → result env response = .ok ("UNKNOWN", id) →
    d.status ≠ "REJECTED"

/-- An outcome that the journal does not have is reported as unknown, and blocks new entries. -/
def Reported (s : State) (d : Dispatch) : Prop :=
  d.saved = false → d.order.state = "unknown" ∧ d.order.queueState = "reconcile_required" ∧ d.blocks = true ∧
    s.newEntriesBlocked = true

/-- The fault of the last write is one that the code catches. -/
def Caught (d : Dispatch) : Prop := ∀ e, d.fault = some e → e.isCaught = true

/-! ## Outcomes -/

theorem classify_eq_ok {d : Fields} {outcome : Outcome} (h : classify env d = .ok outcome) :
    (∃ id, outcome = .acknowledged id ∧ (d.at "ok").isTrue = true ∧ id ≠ "" ∧
      brokerOrderIdOf env (dictOr (d.at "json")) = .ok id) ∨
    outcome = .missingId ∨ (∃ n, outcome = .ambiguous n) ∨ outcome = .network ∨ ∃ reason, outcome = .rejected reason := by
  simp only [classify, bind_eq_ok] at h
  obtain ⟨id, hid, h⟩ := h
  split at h
  · next hok =>
    split at h
    · next hne =>
      cases h
      exact .inl ⟨id, rfl, hok, hne, hid⟩
    · cases h
      exact .inr (.inl rfl)
  · refine .inr (.inr ?_)
    split at h
    · simp only [bind_eq_ok, pure_eq_ok] at h
      obtain ⟨n, -, rfl⟩ := h
      exact .inl ⟨n, rfl⟩
    · simp only [bind_eq_ok] at h
      obtain ⟨n, -, h⟩ := h
      split at h
      · cases h
        exact .inl ⟨n, rfl⟩
      · simp only [bind_eq_ok] at h
        obtain ⟨code, -, h⟩ := h
        split at h
        · cases h
          exact .inr (.inl rfl)
        · cases h
          exact .inr (.inr ⟨_, rfl⟩)

theorem conclude_acknowledged {answer : Answer Json} {id : String} (h : conclude env answer = .acknowledged id) :
    ∃ response, answer = .ok response ∧ ((dictOr response).at "ok").isTrue = true ∧ id ≠ "" ∧
      brokerOrderIdOf env (dictOr ((dictOr response).at "json")) = .ok id := by
  cases answer with
  | error e => cases e <;> cases h
  | ok response =>
    refine ⟨response, rfl, ?_⟩
    rw [conclude] at h
    cases hclassify : classify env (dictOr response) with
    | error e =>
      rw [hclassify] at h
      cases h
    | ok outcome =>
      rw [hclassify] at h
      obtain ⟨id', rfl, hok, hne, hid⟩ | rfl | ⟨n, rfl⟩ | rfl | ⟨reason, rfl⟩ := classify_eq_ok hclassify
      · cases h
        exact ⟨hok, hne, hid⟩
      · cases h
      · cases h
      · cases h
      · cases h

theorem conclude_ok_ne_escaped {response : Json} {e : Raised} : conclude env (.ok response) ≠ .escaped e := by
  intro h
  rw [conclude] at h
  cases hclassify : classify env (dictOr response) with
  | error e' =>
    rw [hclassify] at h
    cases h
  | ok outcome =>
    rw [hclassify] at h
    obtain ⟨id, rfl, -⟩ | rfl | ⟨n, rfl⟩ | rfl | ⟨reason, rfl⟩ := classify_eq_ok hclassify <;> cases h

theorem kept_iff_standing {outcome : Outcome} :
    outcome.kept = true ↔ outcome.standing = "ACKNOWLEDGED" ∨ outcome.standing = "UNKNOWN" := by
  cases outcome <;> simp [Outcome.kept, Outcome.standing]

theorem standing_acknowledged {outcome : Outcome} (h : outcome.standing = "ACKNOWLEDGED") :
    ∃ id, outcome = .acknowledged id := by
  cases outcome with
  | acknowledged id => exact ⟨id, rfl⟩
  | _ => exact absurd h (by simp [Outcome.standing])

theorem order_of_unknown {outcome : Outcome} (h : outcome.standing = "UNKNOWN") (order : Order) :
    (outcome.order order).state = "unknown" ∧ (outcome.order order).queueState = "reconcile_required" := by
  cases outcome with
  | acknowledged _ => exact absurd h (by simp [Outcome.standing])
  | rejected _ => exact absurd h (by simp [Outcome.standing])
  | adapterBlocked _ => exact absurd h (by simp [Outcome.standing])
  | escaped _ => exact absurd h (by simp [Outcome.standing])
  | _ => exact ⟨rfl, rfl⟩

theorem order_same (outcome : Outcome) (order : Order) : (outcome.order order).orderId = order.orderId ∧
    (outcome.order order).idempotencyKey = order.idempotencyKey ∧ (outcome.order order).brokerId = order.brokerId := by
  cases outcome <;> exact ⟨rfl, rfl, rfl⟩

/-- The OMS follows the outcome of an order that is being submitted. -/
theorem status_standing (homs : oms.Lawful) {answer : Answer Json} {outcome : Outcome}
    (h : conclude env answer = outcome) :
    outcome.status oms "SUBMITTING" = .ok outcome.standing ∨ ∃ e, outcome = .escaped e := by
  cases outcome with
  | acknowledged id =>
    obtain ⟨response, -, -, hne, -⟩ := conclude_acknowledged h
    exact .inl (homs.acknowledged hne)
  | rejected _ => exact .inl homs.rejected
  | adapterBlocked _ => exact .inl homs.rejected
  | escaped e => exact .inr ⟨e, rfl⟩
  | missingId => exact .inl homs.unknown
  | ambiguous _ => exact .inl homs.unknown
  | network => exact .inl homs.unknown
  | unknown => exact .inl homs.unknown

/-- A dispatch whose order is being submitted, after the call of the router. -/
theorem finish_spec (homs : oms.Lawful) {d : Dispatch} (hstatus : d.status = "SUBMITTING") {answer : Answer Json}
    {outcome : Outcome} (h : conclude env answer = outcome) :
    ∃ falls returns, d.finish env oms answer =
      { d with status := outcome.standing, order := outcome.order d.order, phase := .closing falls returns } := by
  have hsettle : d.finish env oms answer = d.settle oms outcome := by
    unfold Dispatch.finish
    dsimp only
    split
    · next response e _ hfails =>
      rw [h, hstatus] at hfails
      rcases status_standing homs h with hok | ⟨e', rfl⟩
      · cases hok.symm.trans hfails
      · exact absurd h conclude_ok_ne_escaped
    · rw [h]
  rw [hsettle, Dispatch.settle, hstatus]
  rcases status_standing homs h with hok | ⟨e, rfl⟩
  · rw [hok]
    exact ⟨_, _, rfl⟩
  · refine ⟨false, .error e, ?_⟩
    rw [Outcome.standing, ← hstatus]
    rfl

/-! ## The invariant -/

/-- What holds of the dispatch `n`. -/
structure DispatchInv (env : Env) (s : State) (n : ℕ) (d : Dispatch) : Prop where
  /-- Until it has ended, a dispatch that goes on has created its row. -/
  created : (∀ returns, d.phase ≠ .done returns) ∨ d.saved = true → (strip d.order.idempotencyKey, n) ∈ s.created
  fresh : d.phase = .dispatching → d.sent = none ∧ strip d.order.idempotencyKey ∉ s.placed.map Prod.fst
  opened : (∀ returns, d.phase ≠ .done returns) → d.saved = false ∧ d.blocks = false ∧ d.fault = none
  standing : ∀ {a}, d.sent = some a → d.status = (conclude env (sendOrder env d.order.brokerId a).answer).standing
  acknowledged : ∀ {a}, d.sent = some a → d.status = "ACKNOWLEDGED" →
    conclude env (sendOrder env d.order.brokerId a).answer = .acknowledged d.order.brokerOrderId
  record : ∀ {a}, d.sent = some a → (∀ returns, d.phase ≠ .done returns) ∨ d.saved = true →
    ∃ order, d.order = (conclude env (sendOrder env d.order.brokerId a).answer).order order
  saved : d.saved = true → InJournal s d.order ∧ d.fault = none
  failed : ∀ {returns}, d.phase = .done returns → d.sent.isSome = true → d.saved = false →
    (Caught d ∧ d.order.state = "unknown" ∧ d.order.queueState = "reconcile_required" ∧ d.blocks = true) ∨
      (¬ Caught d ∧ d.blocks = false)
  blocks : d.blocks = true → s.newEntriesBlocked = true

structure Inv (env : Env) (s : State) : Prop where
  createdOnce : (s.created.map Prod.fst).Nodup
  createdRows : ∀ p ∈ s.created, ∃ row ∈ s.journal, row.idempotencyKey = p.1
  placedCreated : ∀ p ∈ s.placed, p ∈ s.created
  placedOnce : (s.placed.map Prod.fst).Nodup
  dispatches : ∀ {n d}, s.dispatches n = some d → DispatchInv env s n d

theorem inv_init : Inv env {} := by
  refine ⟨List.nodup_nil, fun _ h => absurd h List.not_mem_nil, fun _ h => absurd h List.not_mem_nil, List.nodup_nil, ?_⟩
  intro n d h
  cases h

/-- What a step of another dispatch leaves alone. -/
structure Keeps (s s' : State) (n : ℕ) (d : Dispatch) : Prop where
  created : ∀ p ∈ s.created, p ∈ s'.created
  placed : d.phase = .dispatching → strip d.order.idempotencyKey ∉ s.placed.map Prod.fst →
    strip d.order.idempotencyKey ∉ s'.placed.map Prod.fst
  saved : d.saved = true → InJournal s d.order → InJournal s' d.order
  blocked : s.newEntriesBlocked = true → s'.newEntriesBlocked = true

theorem DispatchInv.mono {s s' : State} {n : ℕ} {d : Dispatch} (h : DispatchInv env s n d) (hkeeps : Keeps s s' n d) :
    DispatchInv env s' n d where
  created hgoes := hkeeps.created _ (h.created hgoes)
  fresh hphase := ⟨(h.fresh hphase).1, hkeeps.placed hphase (h.fresh hphase).2⟩
  opened := h.opened
  standing := h.standing
  acknowledged := h.acknowledged
  record := h.record
  saved hsaved := ⟨hkeeps.saved hsaved (h.saved hsaved).1, (h.saved hsaved).2⟩
  failed := h.failed
  blocks hblocks := hkeeps.blocked (h.blocks hblocks)

/-- A dispatch that ends before the router is reached, or is only dropped, changes nothing else. -/
theorem Inv.setDispatch {s : State} (h : Inv env s) {n : ℕ} {d : Dispatch} (hd : DispatchInv env s n d) :
    Inv env { s with dispatches := Function.update s.dispatches n (some d) } := by
  refine ⟨h.createdOnce, h.createdRows, h.placedCreated, h.placedOnce, fun {m d'} hm => ?_⟩
  dsimp only at hm
  by_cases hmn : m = n
  · subst hmn
    rw [Function.update_self] at hm
    obtain rfl := Option.some.inj hm
    exact ⟨hd.created, hd.fresh, hd.opened, hd.standing, hd.acknowledged, hd.record, hd.saved, hd.failed, hd.blocks⟩
  · rw [Function.update_of_ne hmn] at hm
    have hd' := h.dispatches hm
    exact ⟨hd'.created, hd'.fresh, hd'.opened, hd'.standing, hd'.acknowledged, hd'.record, hd'.saved, hd'.failed,
      hd'.blocks⟩

/-- A dispatch that ends before its checkpoint. -/
theorem ended (s : State) (n : ℕ) {d : Dispatch} {returns : Answer (Bool × String)} (hphase : d.phase = .done returns)
    (hsent : d.sent = none) (hsaved : d.saved = false) (hblocks : d.blocks = false) : DispatchInv env s n d := by
  have hdone : ¬ ((∀ returns, d.phase ≠ .done returns) ∨ d.saved = true) := by
    rintro (h | h)
    · exact h returns hphase
    · rw [hsaved] at h
      cases h
  refine ⟨fun h => absurd h hdone, fun h => ?_, fun h => absurd hphase (h returns), fun h => ?_, fun h => ?_,
    fun _ h => absurd h hdone, fun h => ?_, fun _ h => ?_, fun h => ?_⟩
  · cases hphase.symm.trans h
  · cases hsent.symm.trans h
  · cases hsent.symm.trans h
  · cases hsaved.symm.trans h
  · rw [hsent] at h
    cases h
  · cases hblocks.symm.trans h

theorem ended_endWith (s : State) (n : ℕ) {d : Dispatch} (hsent : d.sent = none) (hsaved : d.saved = false)
    (hblocks : d.blocks = false) (answer : Answer String) (order : Order) (reason : String) :
    DispatchInv env s n (endWith d answer order reason) := by
  unfold endWith
  split
  · exact ended s n rfl hsent hsaved hblocks
  · exact ended s n rfl hsent hsaved hblocks

/-! ## The first part -/

theorem checkpoint_created {journal journal' : List Row} {order : Order}
    (h : checkpointOrderDispatch journal order = .ok (true, journal')) :
    (∀ row ∈ journal, row.idempotencyKey ≠ strip order.idempotencyKey) ∧
      ∃ row, row.idempotencyKey = strip order.idempotencyKey ∧ journal' = journal ++ [row] := by
  simp only [checkpointOrderDispatch, bind_eq_ok, require_eq_ok] at h
  obtain ⟨_, -, h⟩ := h
  split at h
  · cases h
  · next hnew =>
    obtain ⟨-, rfl⟩ := Prod.mk.inj (Except.ok.inj h)
    refine ⟨fun row hrow heq => hnew ?_, _, rfl, rfl⟩
    exact List.any_eq_true.mpr ⟨row, hrow, by simp [heq]⟩

theorem Inv.checkpoint {s : State} (h : Inv env s) {n : ℕ} {d : Dispatch} (hsent : d.sent = none)
    (hsaved : d.saved = false) (hblocks : d.blocks = false) (hfault : d.fault = none) (opening : Opening) : Inv env (checkpoint oms s n d opening) := by
  unfold OrderDispatch.checkpoint
  dsimp only
  have hends : ∀ (order : Order) (answer : Answer String) (order' : Order) (reason : String),
      DispatchInv env s n (endWith { d with order } answer order' reason) := fun order =>
    ended_endWith (d := { d with order }) s n hsent hsaved hblocks
  split
  · refine h.setDispatch ?_
    split
    · exact hends ..
    · exact ended s n rfl hsent hsaved hblocks
  · refine h.setDispatch ?_
    split
    · exact hends ..
    · exact ended s n rfl hsent hsaved hblocks
  · exact h.setDispatch (hends ..)
  · next journal _ hcheckpoint =>
    obtain ⟨hnew, row, hrow, rfl⟩ := checkpoint_created hcheckpoint
    have hfresh : strip d.order.idempotencyKey ∉ s.created.map Prod.fst := fun hmem => by
      obtain ⟨p, hp, hkey⟩ := List.mem_map.mp hmem
      obtain ⟨old, hold, holdKey⟩ := h.createdRows p hp
      exact hnew old hold (holdKey.trans hkey)
    refine ⟨?_, ?_, fun p hp => List.mem_append_left _ (h.placedCreated p hp), h.placedOnce, fun {m d'} hm => ?_⟩
    · rw [List.map_append, List.map_singleton, ← List.concat_eq_append]
      exact h.createdOnce.concat hfresh
    · intro p hp
      rcases List.mem_append.mp hp with hp | hp
      · obtain ⟨old, hold, holdKey⟩ := h.createdRows p hp
        exact ⟨old, List.mem_append_left _ hold, holdKey⟩
      · rw [List.mem_singleton.mp hp]
        exact ⟨row, List.mem_append_right _ (List.mem_singleton_self row), hrow⟩
    · dsimp only at hm
      by_cases hmn : m = n
      · subst hmn
        rw [Function.update_self] at hm
        obtain rfl := Option.some.inj hm
        have hdispatching : ∀ {s' : State}, s'.placed = s.placed → (strip d.order.idempotencyKey, m) ∈ s'.created →
            DispatchInv env s' m { d with
              order := d.order.mark "dispatch_pending" "reconcile_required" "broker-dispatch-pending"
              phase := .dispatching } := by
          intro s' hplaced hcreated
          refine ⟨fun _ => hcreated, fun _ => ⟨hsent, ?_⟩, fun _ => ⟨hsaved, hblocks, hfault⟩, fun ha => ?_, fun ha => ?_,
            fun ha => ?_, fun hs => ?_, fun hdone => ?_, fun hb => ?_⟩
          · rw [hplaced]
            intro hmem
            obtain ⟨p, hp, hkey⟩ := List.mem_map.mp hmem
            exact hfresh (List.mem_map.mpr ⟨p, h.placedCreated p hp, hkey⟩)
          · cases hsent.symm.trans ha
          · cases hsent.symm.trans ha
          · cases hsent.symm.trans ha
          · cases hsaved.symm.trans hs
          · cases hdone
          · cases hblocks.symm.trans hb
        have hcreated : (strip d.order.idempotencyKey, m) ∈ s.created ++ [(strip d.order.idempotencyKey, m)] :=
          List.mem_append_right _ (List.mem_singleton_self _)
        split
        · split
          · exact hdispatching rfl hcreated
          · exact ended _ m rfl hsent hsaved hblocks
        · exact hdispatching rfl hcreated
      · rw [Function.update_of_ne hmn] at hm
        refine (h.dispatches hm).mono ⟨fun p hp => List.mem_append_left _ hp, fun _ hnot => hnot, fun _ hin => ?_, id⟩
        obtain ⟨old, hold, hrest⟩ := hin
        exact ⟨old, List.mem_append_left _ hold, hrest⟩

theorem Inv.openDispatch {s : State} (h : Inv env s) (n : ℕ) (order : Order) (status : String)
    (opening : Opening) : Inv env (openDispatch oms s n order status opening) := by
  unfold OrderDispatch.openDispatch
  dsimp only
  split
  · exact h.setDispatch (ended s n rfl rfl rfl rfl)
  · exact h.setDispatch (ended_endWith s n rfl rfl rfl _ _ _)
  · exact h.checkpoint rfl rfl rfl rfl opening

/-! ## The second part -/

/-- A dispatch that goes to its `finally` block without a call of the router. -/
theorem DispatchInv.unsent {s : State} {n : ℕ} {d d' : Dispatch} (h : DispatchInv env s n d)
    (hphase : d.phase = .dispatching) {falls : Bool} {returns : Answer (Bool × String)}
    (hphase' : d'.phase = .closing falls returns) (hkey : d'.order.idempotencyKey = d.order.idempotencyKey)
    (hsent : d'.sent = d.sent) (hsaved : d'.saved = d.saved) (hblocks : d'.blocks = d.blocks) (hfault : d'.fault = d.fault) :
    DispatchInv env s n d' := by
  have hgoes : ∀ returns, d.phase ≠ .done returns := fun returns hdone => by
    rw [hphase] at hdone
    cases hdone
  obtain ⟨hsaved', hblocks', hfault'⟩ := h.opened hgoes
  have hnone : d'.sent = none := hsent.trans (h.fresh hphase).1
  refine ⟨fun _ => ?_, fun hp => ?_, fun _ => ⟨hsaved.trans hsaved', hblocks.trans hblocks', hfault.trans hfault'⟩,
    fun ha => ?_, fun ha => ?_, fun ha => ?_, fun hs => ?_, fun hdone => ?_, fun hb => ?_⟩
  · rw [hkey]
    exact h.created (.inl hgoes)
  · cases hphase'.symm.trans hp
  · cases hnone.symm.trans ha
  · cases hnone.symm.trans ha
  · cases hnone.symm.trans ha
  · cases (hsaved.trans hsaved').symm.trans hs
  · cases hphase'.symm.trans hdone
  · cases (hblocks.trans hblocks').symm.trans hb

theorem DispatchInv.handle {s : State} {n : ℕ} {d : Dispatch} (h : DispatchInv env s n d) (hphase : d.phase = .dispatching)
    (e : Raised) : DispatchInv env s n (d.handle env oms e) := by
  rw [Dispatch.handle, Dispatch.settle]
  split
  · exact h.unsent hphase rfl (order_same _ _).2.1 rfl rfl rfl rfl
  · exact h.unsent hphase rfl rfl rfl rfl rfl rfl

theorem eq_of_created {s : State} (h : Inv env s) {key : String} {m n : ℕ} (hm : (key, m) ∈ s.created)
    (hn : (key, n) ∈ s.created) : m = n :=
  congrArg Prod.snd (List.inj_on_of_nodup_map h.createdOnce hm hn rfl)

theorem Inv.sendDispatch (homs : oms.Lawful) {s : State} (h : Inv env s) {n : ℕ} {d : Dispatch}
    (hn : s.dispatches n = some d) (hphase : d.phase = .dispatching) (sending : Sending) :
    Inv env (sendDispatch env oms s n d sending) := by
  have hd := h.dispatches hn
  unfold OrderDispatch.sendDispatch
  dsimp only
  split
  · exact h.setDispatch (hd.handle hphase _)
  · split
    · exact h.setDispatch (hd.unsent hphase rfl rfl rfl rfl rfl rfl)
    · exact h.setDispatch (hd.handle hphase _)
  · split
    · exact h.setDispatch (hd.handle hphase _)
    · next status hstatus =>
      obtain rfl := homs.submitting hstatus
      obtain ⟨falls, returns, hfinish⟩ := finish_spec homs (d := { d with
        status := "SUBMITTING", sent := some sending.attempt }) rfl
        (rfl : conclude env (sendOrder env d.order.brokerId sending.attempt).answer = _)
      rw [hfinish]
      have hgoes : ∀ returns, d.phase ≠ .done returns := fun returns hdone => by
        rw [hphase] at hdone
        cases hdone
      obtain ⟨hsaved, hblocks, hfault⟩ := hd.opened hgoes
      have hcreated := hd.created (.inl hgoes)
      refine ⟨h.createdOnce, h.createdRows, fun p hp => ?_, ?_, fun {m d'} hm => ?_⟩
      · rcases List.mem_append.mp hp with hp | hp
        · exact h.placedCreated p hp
        · rw [List.mem_singleton.mp hp]
          exact hcreated
      · rw [List.map_append, List.map_singleton, ← List.concat_eq_append]
        exact h.placedOnce.concat (hd.fresh hphase).2
      · dsimp only at hm
        by_cases hmn : m = n
        · subst hmn
          rw [Function.update_self] at hm
          obtain rfl := Option.some.inj hm
          obtain ⟨-, hkey, hbroker⟩ := order_same (conclude env (sendOrder env d.order.brokerId sending.attempt).answer) d.order
          refine ⟨fun _ => ?_, fun hp => ?_, fun _ => ⟨hsaved, hblocks, hfault⟩, fun ha => ?_, fun ha hack => ?_,
            fun ha _ => ⟨d.order, ?_⟩, fun hs => ?_, fun hdone => ?_, fun hb => ?_⟩
          · dsimp only
            rw [hkey]
            exact hcreated
          · cases hp
          · obtain rfl := Option.some.inj ha
            dsimp only
            rw [hbroker]
          · obtain rfl := Option.some.inj ha
            dsimp only
            rw [hbroker]
            obtain ⟨id, hid⟩ := standing_acknowledged hack
            rw [hid]
            rfl
          · obtain rfl := Option.some.inj ha
            dsimp only
            rw [hbroker]
          · cases hsaved.symm.trans hs
          · cases hdone
          · cases hblocks.symm.trans hb
        · rw [Function.update_of_ne hmn] at hm
          refine (h.dispatches hm).mono ⟨fun _ hp => hp, fun hphase' hnot hmem => ?_, fun _ hin => hin, id⟩
          rw [List.map_append, List.mem_append] at hmem
          rcases hmem with hmem | hmem
          · exact hnot hmem
          · have hgoes' : ∀ returns, d'.phase ≠ .done returns := fun returns hdone => by
              rw [hphase'] at hdone
              cases hdone
            have hcreated' := (h.dispatches hm).created (.inl hgoes')
            rw [List.mem_singleton.mp hmem] at hcreated'
            exact hmn (eq_of_created h hcreated' hcreated)

/-! ## The last part -/

theorem keys_update (journal : List Row) (order : Order) {row : Row} (h : row ∈ journal) :
    ∃ row' ∈ (updateOrderDispatch journal order).2, row'.idempotencyKey = row.idempotencyKey := by
  rw [updateOrderDispatch]
  split
  · exact ⟨row, h, rfl⟩
  · refine ⟨_, List.mem_map_of_mem h, ?_⟩
    split <;> rfl

theorem mem_update {journal : List Row} {order : Order} {row : Row} (h : row ∈ journal) (hother : ¬ order.owns row = true) :
    row ∈ (updateOrderDispatch journal order).2 := by
  rw [updateOrderDispatch]
  split
  · exact h
  · exact List.mem_map.mpr ⟨row, h, if_neg hother⟩

theorem inJournal_update {s : State} {order : Order} (h : (updateOrderDispatch s.journal order).1 = true) : ∃ row ∈ (updateOrderDispatch s.journal order).2,
      order.owns row = true ∧ row.state = order.state ∧ row.order = order := by
  rw [updateOrderDispatch] at h ⊢
  split at h
  · cases h
  · next hne =>
    rw [if_neg hne]
    have hone : s.journal.countP order.owns = 1 := of_decide_eq_true h
    obtain ⟨row, hrow, howns⟩ := List.countP_pos_iff.mp (by omega : 0 < s.journal.countP order.owns)
    refine ⟨_, List.mem_map_of_mem hrow, ?_⟩
    rw [if_pos howns]
    exact ⟨howns, rfl, rfl⟩

/-- What the `finally` block of a dispatch leaves of the others. -/
theorem Inv.others {s s' : State} (h : Inv env s) {n : ℕ} {d : Dispatch}
    (hcreated : (strip d.order.idempotencyKey, n) ∈ s.created) (hcreated' : s'.created = s.created)
    (hplaced : s'.placed = s.placed) (hblocked : s.newEntriesBlocked = true → s'.newEntriesBlocked = true)
    (hjournal : s'.journal = s.journal ∨ s'.journal = (updateOrderDispatch s.journal d.order).2)
    {d' : Dispatch} (hdispatches : s'.dispatches = Function.update s.dispatches n (some d'))
    (hd' : DispatchInv env s' n d') : Inv env s' := by
  refine ⟨by rw [hcreated']; exact h.createdOnce, fun p hp => ?_, fun p hp => ?_, by rw [hplaced]; exact h.placedOnce,
    fun {m e} hm => ?_⟩
  · rw [hcreated'] at hp
    obtain ⟨row, hrow, hkey⟩ := h.createdRows p hp
    rcases hjournal with hsame | hupdated
    · rw [hsame]
      exact ⟨row, hrow, hkey⟩
    · rw [hupdated]
      obtain ⟨row', hrow', hkey'⟩ := keys_update s.journal d.order hrow
      exact ⟨row', hrow', hkey'.trans hkey⟩
  · rw [hplaced] at hp
    rw [hcreated']
    exact h.placedCreated p hp
  · rw [hdispatches] at hm
    by_cases hmn : m = n
    · subst hmn
      rw [Function.update_self] at hm
      obtain rfl := Option.some.inj hm
      exact hd'
    · rw [Function.update_of_ne hmn] at hm
      have hinv := h.dispatches hm
      refine hinv.mono ⟨fun p hp => hcreated' ▸ hp, fun _ hnot => by rw [hplaced]; exact hnot, fun hsaved hin => ?_, hblocked⟩
      obtain ⟨row, hrow, howns, hrest⟩ := hin
      rcases hjournal with hsame | hupdated
      · exact ⟨row, hsame ▸ hrow, howns, hrest⟩
      · refine ⟨row, ?_, howns, hrest⟩
        rw [hupdated]
        -- the row has the key of the other dispatch
        refine mem_update hrow fun howns' => hmn (eq_of_created h (hinv.created (.inr hsaved)) ?_)
        simp only [Order.owns, Bool.and_eq_true, decide_eq_true_eq] at howns howns'
        rw [← howns.2, howns'.2]
        exact hcreated

theorem Inv.closeDispatch {s : State} (h : Inv env s) {n : ℕ} {d : Dispatch} (hn : s.dispatches n = some d) {falls : Bool}
    {returns : Answer (Bool × String)} (hphase : d.phase = .closing falls returns) (saving : Saving) :
    Inv env (closeDispatch s n d falls returns saving) := by
  have hd := h.dispatches hn
  have hgoes : ∀ returns, d.phase ≠ .done returns := fun returns' hdone => by
    rw [hphase] at hdone
    cases hdone
  obtain ⟨hsaved, hblocks, -⟩ := hd.opened hgoes
  have hcreated := hd.created (.inl hgoes)
  have hwritten : ∀ written : Bool, (if written = true then (updateOrderDispatch s.journal d.order).2 else s.journal) =
      s.journal ∨ (if written = true then (updateOrderDispatch s.journal d.order).2 else s.journal) =
        (updateOrderDispatch s.journal d.order).2 := fun written => by
    cases written with
    | true => exact .inr rfl
    | false => exact .inl rfl
  have hunsaved : ∀ {s' : State} {d' : Dispatch} {returns' : Answer (Bool × String)}, d'.phase = .done returns' →
      d'.saved = false → d'.sent = d.sent → d'.status = d.status → d'.order.brokerId = d.order.brokerId →
      d'.order.brokerOrderId = d.order.brokerOrderId → (d'.blocks = true → s'.newEntriesBlocked = true) →
      ((Caught d' ∧ d'.order.state = "unknown" ∧ d'.order.queueState = "reconcile_required" ∧ d'.blocks = true) ∨
        (¬ Caught d' ∧ d'.blocks = false)) → DispatchInv env s' n d' := by
    intro s' d' returns' hdone hsaved' hsent hstatus hbroker hid hblocked hfailed
    have hnot : ¬ ((∀ returns, d'.phase ≠ .done returns) ∨ d'.saved = true) := by
      rintro (hp | hs)
      · exact hp returns' hdone
      · cases hsaved'.symm.trans hs
    refine ⟨fun hp => absurd hp hnot, fun hp => ?_, fun hp => absurd hdone (hp returns'), fun ha => ?_, fun ha hack => ?_,
      fun _ hp => absurd hp hnot, fun hs => ?_, fun _ _ _ => hfailed, hblocked⟩
    · cases hdone.symm.trans hp
    · rw [hstatus, hbroker]
      exact hd.standing (hsent.symm.trans ha)
    · rw [hbroker, hid]
      exact hd.acknowledged (hsent.symm.trans ha) (hstatus.symm.trans hack)
    · cases hsaved'.symm.trans hs
  unfold OrderDispatch.closeDispatch
  dsimp only
  split
  · next hfault =>
    split
    · next hupdated =>
      refine h.others hcreated rfl rfl id (.inr rfl) rfl ⟨fun _ => hcreated, fun hp => ?_, fun hp => absurd rfl (hp returns),
        hd.standing, hd.acknowledged, fun ha _ => hd.record ha (.inl hgoes), fun _ => ⟨inJournal_update hupdated, hfault⟩,
        fun _ _ hs => ?_, fun hb => ?_⟩
      · cases hp
      · cases hs
      · cases hblocks.symm.trans hb
    · refine h.others hcreated rfl rfl (fun _ => rfl) (hwritten _) rfl
        (hunsaved rfl hsaved rfl rfl rfl rfl (fun _ => rfl) (.inl ⟨fun e he => ?_, rfl, rfl, rfl⟩))
      cases hfault.symm.trans he
  · next e hfault =>
    split
    · next hcaught =>
      refine h.others hcreated rfl rfl (fun _ => rfl) (hwritten _) rfl
        (hunsaved rfl hsaved rfl rfl rfl rfl (fun _ => rfl) (.inl ⟨fun e' he' => ?_, rfl, rfl, rfl⟩))
      obtain rfl := Option.some.inj (hfault.symm.trans he')
      exact hcaught
    · next hcaught =>
      refine h.others hcreated rfl rfl id (hwritten _) rfl
        (hunsaved rfl hsaved rfl rfl rfl rfl (fun hb => ?_) (.inr ⟨fun hall => hcaught (hall e hfault), hblocks⟩))
      cases hblocks.symm.trans hb

/-! ## Every run -/

/-- **A step of the dispatches.** -/
theorem inv_step (homs : oms.Lawful) {s s' : State} {label : Label} (hstep : step env oms s label = some s')
    (h : Inv env s) : Inv env s' := by
  cases label with
  | openDispatch n order status opening =>
    rw [step] at hstep
    split at hstep
    · cases hstep
    · obtain rfl := Option.some.inj hstep
      exact h.openDispatch n order status opening
  | sendDispatch n sending =>
    rw [step] at hstep
    split at hstep
    · next d hn =>
      split at hstep
      · next hphase =>
        obtain rfl := Option.some.inj hstep
        exact h.sendDispatch homs hn hphase sending
      · cases hstep
    · cases hstep
  | closeDispatch n saving =>
    rw [step] at hstep
    split at hstep
    · next d hn =>
      split at hstep
      · next falls returns hphase =>
        obtain rfl := Option.some.inj hstep
        exact h.closeDispatch hn hphase saving
      · cases hstep
    · cases hstep
  | lost n =>
    obtain rfl := Option.some.inj hstep
    refine ⟨h.createdOnce, h.createdRows, h.placedCreated, h.placedOnce, fun {m d} hm => ?_⟩
    dsimp only at hm
    by_cases hmn : m = n
    · subst hmn
      rw [Function.update_self] at hm
      cases hm
    · rw [Function.update_of_ne hmn] at hm
      exact (h.dispatches hm).mono ⟨fun _ hp => hp, fun _ hnot => hnot, fun _ hin => hin, id⟩

/-- A dispatch keeps its order when the outcome of its attempt is kept. -/
theorem kept_of_outcome {s : State} {n : ℕ} {d : Dispatch} (h : DispatchInv env s n d) {a : Attempt} (ha : d.sent = some a)
    (hkept : (conclude env (sendOrder env d.order.brokerId a).answer).kept = true) : Kept env s d a := by
  have hstanding := kept_iff_standing.mp hkept
  rw [← h.standing ha] at hstanding
  refine ⟨hstanding, fun hack => ?_, fun hsaved => ⟨fun hack => ?_, fun hunknown => ?_, (h.saved hsaved).1⟩, fun _ _ => ?_⟩
  · exact conclude_acknowledged (h.acknowledged ha hack)
  · obtain ⟨order, horder⟩ := h.record ha (.inr hsaved)
    rw [h.acknowledged ha hack] at horder
    rw [horder]
    exact ⟨rfl, rfl⟩
  · obtain ⟨order, horder⟩ := h.record ha (.inr hsaved)
    rw [h.standing ha] at hunknown
    rw [horder]
    exact order_of_unknown hunknown order
  · rcases hstanding with hstatus | hstatus <;> rw [hstatus] <;> decide

/-- **A possibly crossed order is kept.**  `place_order` is reached once for a key, by the dispatch
that has created its row; and an order that may have crossed, without a definite rejection, is kept
and its outcome saved or reported, exactly when the attempt is clear and the fault of the last
write is caught. -/
theorem kept_of_run (homs : oms.Lawful) {labels : List Label} {s : State} (h : Run (step env oms) Free {} labels s) :
    (s.placed.map Prod.fst).Nodup ∧ (∀ p ∈ s.placed, p ∈ s.created) ∧ (s.created.map Prod.fst).Nodup ∧
    ∀ {n d a returns}, s.dispatches n = some d → d.phase = .done returns → d.sent = some a →
      (((Crossed env d.order.brokerId a → ¬ Definite env d.order.brokerId a → Kept env s d a) ∧ Reported s d) ↔
        ((Crossed env d.order.brokerId a → ¬ Definite env d.order.brokerId a → Clear env d.order.brokerId a) ∧ Caught d)) := by
  have hinv : Inv env s := h.invariant (fun _ => inv_step homs) inv_init
  refine ⟨hinv.placedOnce, hinv.placedCreated, hinv.createdOnce, fun {n d a returns} hn hdone ha => ?_⟩
  have hd := hinv.dispatches hn
  refine and_congr ?_ ⟨fun hreported => ?_, fun hcaught hsaved => ?_⟩
  · refine forall_congr' fun hcrossed => forall_congr' fun _ => ?_
    rw [← kept_iff_clear hcrossed.1]
    refine ⟨fun hkept => kept_iff_standing.mpr ?_, kept_of_outcome hd ha⟩
    rw [← hd.standing ha]
    exact hkept.standing
  · cases hsaved : d.saved with
    | true =>
      intro e he
      cases (hd.saved hsaved).2.symm.trans he
    | false =>
      rcases hd.failed hdone (by rw [ha]; rfl) hsaved with ⟨hcaught, -⟩ | ⟨-, hblocks⟩
      · exact hcaught
      · cases hblocks.symm.trans (hreported hsaved).2.2.1
  · rcases hd.failed hdone (by rw [ha]; rfl) hsaved with ⟨-, hstate, hqueue, hblocks⟩ | ⟨hnot, -⟩
    · exact ⟨hstate, hqueue, hblocks, hd.blocks hblocks⟩
    · exact absurd hcaught hnot

/-! ## Runs that can be evaluated -/

def Env.sample : Env where
  repr _ := "?"
  int _ := none
  truncated _ := .ok 0
  rounded n := .ok n

def Oms.sample : Oms where
  transition _ status := .ok status
  acknowledge _ _ := .ok "ACKNOWLEDGED"
  markUnknown _ := .ok "UNKNOWN"

theorem sample_lawful : Oms.sample.Lawful := ⟨fun h => (Except.ok.inj h).symm, rfl, fun _ => rfl, rfl⟩

def sampleOrder : Order where
  orderId := "order-1"
  idempotencyKey := "key-1"
  brokerId := "binance"
  state := "risk_approved"
  queueState := "ready"
  reason := ""

/-- An order of the spot route with this response. -/
def sampleRun (response : Fields) : List Label :=
  [.openDispatch 0 sampleOrder "RISK_APPROVED" {}, .sendDispatch 0 { attempt := { reply := .returned (.obj response) } },
    .openDispatch 1 sampleOrder "RISK_APPROVED" {}, .closeDispatch 0 {}]

/-- An acknowledged order; its key is not placed again. -/
theorem kept_of_run_sample : ∃ s, Run (step Env.sample Oms.sample) Free {}
      (sampleRun [("ok", .bool true), ("statusCode", .int 200), ("json", .obj [("orderId", .str "17")])]) s ∧
    s.placed = [("key-1", 0)] ∧ ∀ p ∈ s.placed, p ∈ s.created := by
  obtain ⟨s, hs, hplaced⟩ : ∃ s, runAll (step Env.sample Oms.sample) {}
      (sampleRun [("ok", .bool true), ("statusCode", .int 200), ("json", .obj [("orderId", .str "17")])]) = some s ∧
      s.placed = [("key-1", 0)] := by
    decide
  exact ⟨s, free_of_runAll hs, hplaced, (kept_of_run sample_lawful (free_of_runAll hs)).2.1⟩

/-- The coordinator has recorded the response as unknown. -/
def recordsUnknown (env : Env) (brokerId : String) (a : Attempt) : Bool :=
  match submitted brokerId a with
  | .ok response => (result env response).toOption.any fun r => r.1 = "UNKNOWN"
  | .error _ => false

theorem not_definite_of_recordsUnknown {brokerId : String} {a : Attempt} (h : recordsUnknown env brokerId a = true) :
    ¬ Definite env brokerId a := by
  rintro ⟨response, id, hsubmitted, hresult⟩
  rw [recordsUnknown, hsubmitted] at h
  dsimp only at h
  rw [hresult] at h
  cases h

def Phase.isDone : Phase → Bool
  | .done _ => true
  | _ => false

/-- A crossed order that the coordinator has recorded as unknown, and the dispatch as rejected. -/
def Dispatch.lost (env : Env) (d : Dispatch) : Bool :=
  d.phase.isDone && d.status = "REJECTED" && d.sent.any fun a =>
    (sendOrder env d.order.brokerId a).reached && a.reply.sent && recordsUnknown env d.order.brokerId a

theorem exists_of_lost {s : State} {n : ℕ} (h : (s.dispatches n).any (Dispatch.lost env) = true) :
    ∃ d a returns, s.dispatches n = some d ∧ d.phase = .done returns ∧ d.sent = some a ∧
      Crossed env d.order.brokerId a ∧ ¬ Definite env d.order.brokerId a ∧ ¬ Kept env s d a := by
  obtain ⟨d, hd, hlost⟩ := (Option.any_eq_true _ _).mp h
  rw [Dispatch.lost, Bool.and_eq_true, Bool.and_eq_true, decide_eq_true_eq] at hlost
  obtain ⟨⟨hdone, hstatus⟩, hsent⟩ := hlost
  obtain ⟨a, ha, hcrossed⟩ := (Option.any_eq_true _ _).mp hsent
  rw [Bool.and_eq_true, Bool.and_eq_true] at hcrossed
  obtain ⟨⟨hreached, hreply⟩, hunknown⟩ := hcrossed
  obtain ⟨returns, hphase⟩ : ∃ returns, d.phase = .done returns := by
    unfold Phase.isDone at hdone
    split at hdone
    · exact ⟨_, ‹_›⟩
    · cases hdone
  refine ⟨d, a, returns, hd, hphase, ha, ⟨hreached, hreply⟩, not_definite_of_recordsUnknown hunknown, fun hkept => ?_⟩
  rcases hkept.standing with hkept | hkept
  · exact absurd (hstatus.symm.trans hkept) (by decide)
  · exact absurd (hstatus.symm.trans hkept) (by decide)

/-- **An order is lost.**  The exchange answers with 503, which says nothing about the order: the
coordinator records it as unknown, the dispatch as rejected. -/
theorem sample_unavailable_rejected : ∃ s, Run (step Env.sample Oms.sample) Free {}
      (sampleRun [("ok", .bool false), ("statusCode", .int 503), ("text", .str "Service Unavailable"), ("json", .obj [])]) s ∧
    ∃ d a returns, s.dispatches 0 = some d ∧ d.phase = .done returns ∧ d.sent = some a ∧
      Crossed Env.sample d.order.brokerId a ∧ ¬ Definite Env.sample d.order.brokerId a ∧ ¬ Kept Env.sample s d a := by
  obtain ⟨s, hs, hlost⟩ : ∃ s, runAll (step Env.sample Oms.sample) {}
      (sampleRun [("ok", .bool false), ("statusCode", .int 503), ("text", .str "Service Unavailable"), ("json", .obj [])]) =
        some s ∧ (s.dispatches 0).any (Dispatch.lost Env.sample) = true := by
    decide
  exact ⟨s, free_of_runAll hs, exists_of_lost hlost⟩

end LiveTrader.OrderDispatch
