/-
# `LiveOrders.Kept` — what an event makes of one order

A cancel that comes after the final fill leaves the order filled, and an active snapshot after a
cancel request leaves it as it is; any other late event writes the local state without a look
at it.  An event that is not one of those (`fitsOrder`) keeps a terminal order terminal and a
filled one filled, and the local state and the managed order agree (`kept_of_applyState`).

Of the OMS only this is used: it does not leave a terminal status, and each operation enters
none but the one it names (`Oms.Lawful`).
-/
import LiveTrader.LiveOrders.ExecutionEvents

namespace LiveTrader.LiveOrders

open Lib Lib.Py

variable {env : Env} {oms : Oms}

/-- The local states that are terminal. -/
def terminalStates : List String := ["filled", "canceled", "expired", "broker_rejected"]

/-- The statuses of the OMS that are terminal. -/
def terminalStatuses : List String := ["FILLED", "CANCELED", "EXPIRED", "REJECTED"]

def isTerminal (env : Env) (order : Fields) : Bool := localState env order ∈ terminalStates

/-! ## The OMS -/

/-- An operation refuses to leave a terminal status, and enters only the named ones. -/
def Oms.Moves (oms : Oms) (op : Managed → Outcome) (ends : List String) : Prop :=
  ∀ m, (oms.terminal m = true → (op m).1.status = m.status) ∧
    (oms.terminal m = false → oms.terminal (op m).1 = false ∨ (op m).1.status ∈ ends)

/-- What is relied on of the OMS. -/
structure Oms.Lawful (oms : Oms) : Prop where
  terminal_iff : ∀ m, oms.terminal m = true ↔ m.status ∈ terminalStatuses
  acknowledge : ∀ brokerOrderId, oms.Moves (oms.acknowledge · brokerOrderId) []
  applyFill : ∀ quantity price fee brokerOrderId,
    oms.Moves (oms.applyFill · quantity price fee brokerOrderId) ["FILLED"]
  markUnknown : ∀ reason, oms.Moves (oms.markUnknown · reason) []
  reconcileUnknown : ∀ brokerOrderId, oms.Moves
    (oms.reconcileUnknown · [("brokerOrderId", .str brokerOrderId), ("status", .str "ACKNOWLEDGED")]) []
  transition : ∀ target reason payload, oms.Moves (oms.transition · target reason payload) [target]

theorem Oms.moves_id (ends : List String) (raised : Option String) : oms.Moves (fun m => (m, raised)) ends :=
  fun _ => ⟨fun _ => rfl, .inl⟩

theorem Oms.Lawful.terminal_congr (h : oms.Lawful) {m m' : Managed} (hstatus : m'.status = m.status) :
    oms.terminal m' = oms.terminal m := by
  rw [Bool.eq_iff_iff, h.terminal_iff, h.terminal_iff, hstatus]

theorem Oms.Lawful.terminal_of_status (h : oms.Lawful) {m : Managed} {status : String} (hstatus : m.status = status)
    (hterminal : status ∈ terminalStatuses) : oms.terminal m = true :=
  (h.terminal_iff m).mpr (hstatus ▸ hterminal)

theorem Oms.moves_ite {p : Managed → Prop} [DecidablePred p] {op op' : Managed → Outcome} {ends : List String}
    (hop : oms.Moves op ends) (hop' : oms.Moves op' ends) : oms.Moves (fun m => if p m then op m else op' m) ends := by
  intro m
  dsimp only
  split
  · exact hop m
  · exact hop' m

/-- A fill, with the acknowledgement before it. -/
theorem Oms.Lawful.fillManaged (h : oms.Lawful) (brokerOrderId : String) (inc : Increment) :
    oms.Moves (fillManaged oms · brokerOrderId inc) ["FILLED"] := by
  intro m
  have hfirst : oms.Moves (fun m => if m.status = "SUBMITTING" ∧ brokerOrderId ≠ "" then
      oms.acknowledge m brokerOrderId else (m, none)) [] :=
    Oms.moves_ite (h.acknowledge brokerOrderId) (Oms.moves_id _ _)
  dsimp only [LiveOrders.fillManaged]
  split
  · next m₁ message hm₁ =>
    obtain ⟨hkeeps, hopen⟩ := hfirst m
    dsimp only at hkeeps hopen
    rw [hm₁] at hkeeps hopen
    refine ⟨hkeeps, fun hm => .inl ?_⟩
    rcases hopen hm with hopen | hends
    · exact hopen
    · exact absurd hends List.not_mem_nil
  · next m₁ hm₁ =>
    obtain ⟨hkeeps, hopen⟩ := hfirst m
    dsimp only at hkeeps hopen
    rw [hm₁] at hkeeps hopen
    have hsecond : oms.Moves (fun m => if inc.isFill ∧ 0 < min inc.quantity (max 0 (m.quantity - m.filledQuantity)) then
        oms.applyFill m (min inc.quantity (max 0 (m₁.quantity - m₁.filledQuantity))) inc.price inc.fee brokerOrderId
        else (m, none)) ["FILLED"] :=
      Oms.moves_ite (h.applyFill _ _ _ _) (Oms.moves_id _ _)
    obtain ⟨hkeeps', hopen'⟩ := hsecond m₁
    refine ⟨fun hm => (hkeeps' ((h.terminal_congr (hkeeps hm)).trans hm)).trans (hkeeps hm), fun hm => ?_⟩
    rcases hopen hm with hopen | hends
    · exact hopen' hopen
    · exact absurd hends List.not_mem_nil

theorem Oms.Lawful.leaveUnknown (h : oms.Lawful) : oms.Moves (leaveUnknown oms) [] :=
  Oms.moves_ite (h.markUnknown _) (Oms.moves_id _ _)

theorem Oms.Lawful.acknowledgeManaged (h : oms.Lawful) (brokerOrderId : String) :
    oms.Moves (acknowledgeManaged oms · brokerOrderId) [] :=
  Oms.moves_ite (h.acknowledge _) (Oms.moves_ite (h.reconcileUnknown _) (Oms.moves_id _ _))

theorem Oms.Lawful.endManaged (h : oms.Lawful) (name eventId : String) :
    oms.Moves (endManaged oms · name eventId) [endTarget name] :=
  Oms.moves_ite (Oms.moves_id _ _) (h.transition _ _ _)

/-! ## What an event writes -/

theorem text_str (env : Env) (s : String) : env.text (.str s) = s := by
  by_cases hs : s = ""
  · subst hs
    rfl
  · have htruthy : (Json.str s).truthy = true := bne_iff_ne.mpr hs
    rw [Env.text, Json.orElse, if_pos htruthy]

theorem localState_put_state (env : Env) (order : Fields) (state : String) :
    localState env (order.put "state" (.str state)) = lower state := by
  rw [localState, Fields.at_put, text_str]

theorem localState_put (env : Env) (order : Fields) {key : String} (hkey : key ≠ "state") (value : Json) :
    localState env (order.put key value) = localState env order := by
  rw [localState, Fields.at_put_ne order hkey.symm, localState]

theorem localState_setState (env : Env) (order : Fields) (state queueState reason : String) :
    localState env (setState order state queueState reason) = lower state := by
  rw [setState, localState_put env _ (by decide), localState_put env _ (by decide), localState_put_state]

theorem localState_conclude (env : Env) (order : Fields) (managed : Option Managed) (eventId : String) :
    localState env (conclude order managed eventId) = localState env order := by
  cases managed with
  | none => exact localState_put env _ (by decide) _
  | some m => exact (localState_put env _ (by decide) _).trans (localState_put env _ (by decide) _)

theorem localState_identified (env : Env) (order : Fields) (brokerOrderId : String) :
    localState env (identified order brokerOrderId) = localState env order := by
  rw [identified]
  split
  · exact localState_put env _ (by decide) _
  · rfl

/-! ## One order -/

/-- The local state and the managed order agree. -/
structure Agrees (env : Env) (oms : Oms) (order : Fields) (managed : Option Managed) : Prop where
  terminal : ∀ {m}, managed = some m → isTerminal env order = oms.terminal m
  filled : ∀ {m}, managed = some m → (localState env order = "filled" ↔ m.status = "FILLED")

/-- An order after an event: it agrees, and what it was for good it still is. -/
structure Kept (env : Env) (oms : Oms) (order order' : Fields) (managed' : Option Managed) : Prop where
  agrees : Agrees env oms order' managed'
  terminal : isTerminal env order = true → isTerminal env order' = true
  filled : localState env order = "filled" → localState env order' = "filled"

theorem isTerminal_of_filled {order : Fields} (h : localState env order = "filled") : isTerminal env order = true := by
  rw [isTerminal, h]
  rfl

theorem isTerminal_of_state {order : Fields} {state : String} (h : localState env order = state) :
    isTerminal env order = decide (state ∈ terminalStates) := by
  rw [isTerminal, h]

/-- An open order with an open managed order. -/
theorem Kept.opened (hlawful : oms.Lawful) {order order' : Fields} {managed' : Option Managed}
    (hwas : isTerminal env order = false) (hnow : isTerminal env order' = false)
    (hopen : ∀ {m}, managed' = some m → oms.terminal m = false) : Kept env oms order order' managed' := by
  refine ⟨⟨fun hm => hnow.trans (hopen hm).symm, fun {m} hm => ⟨fun hfilled => ?_, fun hstatus => ?_⟩⟩, fun h => ?_,
    fun h => ?_⟩
  · exact absurd ((isTerminal_of_filled hfilled).symm.trans hnow) (by decide)
  · have hterminal := hlawful.terminal_of_status hstatus (by decide)
    exact absurd (hterminal.symm.trans (hopen hm)) (by decide)
  · exact absurd (h.symm.trans hwas) (by decide)
  · exact absurd ((isTerminal_of_filled h).symm.trans hwas) (by decide)

theorem Kept.same {order order' : Fields} {managed : Option Managed} (h : Agrees env oms order managed)
    (hsame : localState env order' = localState env order) : Kept env oms order order' managed := by
  have hterminal : isTerminal env order' = isTerminal env order := by
    rw [isTerminal, hsame, isTerminal]
  refine ⟨⟨fun hm => hterminal.trans (h.terminal hm), fun hm => ?_⟩, fun h => hterminal.trans h, fun h => hsame.trans h⟩
  rw [hsame]
  exact h.filled hm

theorem Kept.ended {order order' : Fields} {managed' : Option Managed} {state : String}
    (hstate : localState env order' = state) (hnot : state ≠ "filled") (hterminal : state ∈ terminalStates)
    (hwas : localState env order ≠ "filled")
    (hmanaged : ∀ {m}, managed' = some m → oms.terminal m = true ∧ m.status ≠ "FILLED") :
    Kept env oms order order' managed' := by
  have hnow : isTerminal env order' = true := (isTerminal_of_state hstate).trans (decide_eq_true hterminal)
  refine ⟨⟨fun hm => hnow.trans (hmanaged hm).1.symm, fun hm => ⟨fun h => ?_, fun h => ?_⟩⟩, fun _ => hnow,
    fun h => absurd h hwas⟩
  · exact absurd (hstate.symm.trans h) hnot
  · exact absurd h (hmanaged hm).2

theorem Kept.filledUp (hlawful : oms.Lawful) {order order' : Fields} {managed' : Option Managed}
    (hnow : localState env order' = "filled") (hfilled : ∀ {m}, managed' = some m → m.status = "FILLED") :
    Kept env oms order order' managed' := by
  have hterminal := isTerminal_of_filled hnow
  refine ⟨⟨fun hm => ?_, fun hm => ⟨fun _ => hfilled hm, fun _ => hnow⟩⟩, fun _ => hterminal, fun _ => hnow⟩
  exact hterminal.trans (hlawful.terminal_of_status (hfilled hm) (by decide)).symm

/-- The events that the code applies as it should, for an order and its managed order. -/
def fitsOrder (env : Env) (oms : Oms) (order : Fields) (managed : Option Managed) (name brokerOrderId eventId : String)
    (inc : Increment) : Bool :=
  if name ∈ fillStates ∧ (inc.isFill = true ∨ name ∈ finalStates) then
    if name ∈ finalStates then managed.all fun m => !oms.terminal m || m.status = "FILLED"
    else !isTerminal env order && managed.all fun m => (fillManaged oms m brokerOrderId inc).1.status ≠ "FILLED"
  else if name ∈ acknowledgedStates then !isTerminal env order || cancelReconciliationPending env order
  else if name ∈ endStates then
    if filledTruth env order managed = true then name = "canceled"
    else managed.all fun m => oms.terminal (endManaged oms m name eventId).1
  else true

/-- A fill that does not complete the order. -/
theorem kept_partial (hlawful : oms.Lawful) {order : Fields} {managed : Option Managed} {brokerOrderId : String}
    {inc : Increment} (hagrees : Agrees env oms order managed) (hopen : isTerminal env order = false)
    (hfits : ∀ {m}, managed = some m → (fillManaged oms m brokerOrderId inc).1.status ≠ "FILLED") :
    Kept env oms order (applyFillEvent env oms order managed brokerOrderId inc false).1
      (applyFillEvent env oms order managed brokerOrderId inc false).2 := by
  cases managed with
  | none =>
    refine Kept.opened hlawful hopen ?_ nofun
    exact isTerminal_of_state (localState_setState ..)
  | some m =>
    obtain ⟨-, hmoves⟩ := hlawful.fillManaged brokerOrderId inc m
    have hopen' : oms.terminal (fillManaged oms m brokerOrderId inc).1 = false := by
      rcases hmoves ((hagrees.terminal rfl).symm.trans hopen) with hopen' | hends
      · exact hopen'
      · exact absurd (List.mem_singleton.mp hends) (hfits rfl)
    have hresult : applyFillEvent env oms order (some m) brokerOrderId inc false =
        (setState (mirror (warn (if inc.isFill then bookFill env order inc else order)
          (fillManaged oms m brokerOrderId inc).2) (fillManaged oms m brokerOrderId inc).1)
          "partially_filled" "submitted" "broker-partially-filled", some (fillManaged oms m brokerOrderId inc).1) := by
      rw [applyFillEvent]
      rfl
    rw [hresult]
    refine Kept.opened hlawful hopen ?_ fun hm => ?_
    · exact isTerminal_of_state (localState_setState ..)
    · exact Option.some.inj hm ▸ hopen'

/-- A final fill, where the OMS has the order open or filled. -/
theorem kept_final (hlawful : oms.Lawful) {order : Fields} {managed : Option Managed} {brokerOrderId : String}
    {inc : Increment} (hagrees : Agrees env oms order managed)
    (hfits : ∀ {m}, managed = some m → oms.terminal m = true → m.status = "FILLED") :
    Kept env oms order (applyFillEvent env oms order managed brokerOrderId inc true).1
      (applyFillEvent env oms order managed brokerOrderId inc true).2 := by
  cases managed with
  | none => exact Kept.filledUp hlawful (localState_setState ..) nofun
  | some m =>
    obtain ⟨hkeeps, hmoves⟩ := hlawful.fillManaged brokerOrderId inc m
    simp only [applyFillEvent]
    split
    · next hmismatch =>
      -- the OMS has the order open, before the fill and after it
      have hopen : oms.terminal m = false := by
        by_contra hterminal
        have hterminal := Bool.not_eq_false _ ▸ hterminal
        exact hmismatch.2 ((hkeeps hterminal).trans (hfits rfl hterminal))
      have hopen' : oms.terminal (fillManaged oms m brokerOrderId inc).1 = false := by
        rcases hmoves hopen with hopen' | hends
        · exact hopen'
        · exact absurd (List.mem_singleton.mp hends) hmismatch.2
      refine Kept.opened hlawful ((hagrees.terminal rfl).trans hopen) ?_ fun {m'} hm' => ?_
      · exact isTerminal_of_state (localState_setState ..)
      · obtain rfl := Option.some.inj hm'
        rcases (hlawful.leaveUnknown _).2 hopen' with hopen'' | hends
        · exact hopen''
        · exact absurd hends List.not_mem_nil
    · next hmatch =>
      have hfilled : (fillManaged oms m brokerOrderId inc).1.status = "FILLED" := by
        by_contra hne
        exact hmatch ⟨trivial, hne⟩
      refine Kept.filledUp hlawful (localState_setState ..) fun hm' => ?_
      exact Option.some.inj hm' ▸ hfilled

/-- An active snapshot of an order that is open or has a cancel pending. -/
theorem kept_acknowledgement (hlawful : oms.Lawful) {order : Fields} {managed : Option Managed} {brokerOrderId : String}
    (hagrees : Agrees env oms order managed)
    (hfits : isTerminal env order = false ∨ cancelReconciliationPending env order = true) :
    Kept env oms order (applyAcknowledgement env oms order managed brokerOrderId).1
      (applyAcknowledgement env oms order managed brokerOrderId).2 := by
  simp only [applyAcknowledgement]
  split
  · next hpending =>
    have hsame : localState env (((order.put "queue_state" (.str "reconcile_required")).put "reason"
        (.str "broker-active-after-cancel-request")).put "cancel_reconciliation" (.str "broker-still-active")) =
        localState env order := by
      rw [localState_put env _ (by decide), localState_put env _ (by decide), localState_put env _ (by decide)]
    exact Kept.same hagrees hsame
  · next hpending =>
    have hopen : isTerminal env order = false := hfits.resolve_right hpending
    cases managed with
    | none => exact Kept.opened hlawful hopen (isTerminal_of_state (localState_setState ..)) nofun
    | some m =>
      have hm : oms.terminal m = false := (hagrees.terminal rfl).symm.trans hopen
      simp only [hm, Bool.false_eq_true, if_false]
      refine Kept.opened hlawful hopen (isTerminal_of_state (localState_setState ..)) fun hm' => ?_
      obtain rfl := Option.some.inj hm'
      rcases (hlawful.acknowledgeManaged brokerOrderId m).2 hm with hopen' | hends
      · exact hopen'
      · exact absurd hends List.not_mem_nil

/-- The local state of an end. -/
def endState (name : String) : String := if name = "rejected" ∨ name = "failed" then "broker_rejected" else name

theorem endState_cases {name : String} (h : name ∈ endStates) :
    lower (endState name) ∈ terminalStates ∧ lower (endState name) ≠ "filled" ∧ endTarget name ≠ "FILLED" := by
  simp only [endStates, List.mem_cons, List.not_mem_nil, or_false] at h
  rcases h with rfl | rfl | rfl | rfl <;> decide

/-- An end of an order that is not filled, and a cancel of one that is. -/
theorem kept_end (hlawful : oms.Lawful) {order : Fields} {managed : Option Managed} {name eventId : String}
    (hname : name ∈ endStates) (hagrees : Agrees env oms order managed)
    (hfits : if filledTruth env order managed = true then name = "canceled" else
      ∀ {m}, managed = some m → oms.terminal (endManaged oms m name eventId).1 = true) :
    Kept env oms order (applyEnd env oms order managed name eventId).1
      (applyEnd env oms order managed name eventId).2 := by
  obtain ⟨hterminal, hnot, htarget⟩ := endState_cases hname
  by_cases hfilled : filledTruth env order managed = true
  · rw [if_pos hfilled] at hfits
    rw [applyEnd, if_pos ⟨hfits, hfilled⟩]
    refine Kept.filledUp hlawful ?_ fun {m} hm => ?_
    · rw [localState_put env _ (by decide)]
      exact localState_setState ..
    · rcases Bool.or_eq_true _ _ |>.mp hfilled with hlocal | hmanaged
      · exact (hagrees.filled hm).mp (of_decide_eq_true hlocal)
      · obtain rfl : managed = some m := hm
        exact of_decide_eq_true hmanaged
  · rw [if_neg hfilled] at hfits
    rw [applyEnd, if_neg fun h => hfilled h.2]
    have hopen : localState env order ≠ "filled" := fun hlocal =>
      hfilled (Bool.or_eq_true _ _ |>.mpr (.inl (decide_eq_true hlocal)))
    cases managed with
    | none =>
      refine Kept.ended ?_ hnot hterminal hopen nofun
      exact localState_setState ..
    | some m =>
      refine Kept.ended ?_ hnot hterminal hopen fun hm' => ?_
      · exact localState_setState ..
      · obtain rfl := Option.some.inj hm'
        refine ⟨hfits rfl, fun hstatus => ?_⟩
        have hnotFilled : m.status ≠ "FILLED" := fun hm =>
          hfilled (Bool.or_eq_true _ _ |>.mpr (.inr (decide_eq_true hm)))
        obtain ⟨hkeeps, hmoves⟩ := hlawful.endManaged name eventId m
        cases hm : oms.terminal m with
        | true => exact hnotFilled ((hkeeps hm).symm.trans hstatus)
        | false =>
          rcases hmoves hm with hstays | hends
          · exact absurd (hstays.symm.trans (hfits rfl)) (by decide)
          · exact htarget ((List.mem_singleton.mp hends).symm.trans hstatus)

/-- **One event.** -/
theorem kept_of_applyState (hlawful : oms.Lawful) {order order' : Fields} {managed managed' : Option Managed}
    {name brokerOrderId eventId : String} {inc : Increment} (hagrees : Agrees env oms order managed)
    (hfits : fitsOrder env oms order managed name brokerOrderId eventId inc = true)
    (h : applyState env oms order managed name brokerOrderId eventId inc = some (order', managed')) :
    Kept env oms order order' managed' := by
  simp only [applyState, decide_eq_true_eq] at h
  rw [fitsOrder] at hfits
  split at h
  · next hfill =>
    rw [if_pos hfill] at hfits
    have hresult := Option.some.inj h
    split at hfits
    · next hfinal =>
      have hkept : Kept env oms order (applyFillEvent env oms order managed brokerOrderId inc true).1
          (applyFillEvent env oms order managed brokerOrderId inc true).2 := by
        refine kept_final hlawful hagrees fun {m} hm hterminal => ?_
        subst hm
        rw [Option.all_some, hterminal] at hfits
        exact of_decide_eq_true hfits
      rw [decide_eq_true hfinal] at hresult
      rw [hresult] at hkept
      exact hkept
    · next hpartial =>
      obtain ⟨hopen, hmanaged⟩ := Bool.and_eq_true _ _ |>.mp hfits
      have hkept : Kept env oms order (applyFillEvent env oms order managed brokerOrderId inc false).1
          (applyFillEvent env oms order managed brokerOrderId inc false).2 := by
        refine kept_partial hlawful hagrees ((Bool.not_eq_true' _).mp hopen) fun {m} hm => ?_
        subst hm
        exact of_decide_eq_true hmanaged
      rw [decide_eq_false hpartial] at hresult
      rw [hresult] at hkept
      exact hkept
  · next hnofill =>
    rw [if_neg hnofill] at hfits
    split at h
    · next hack =>
      rw [if_pos hack] at hfits
      have hkept : Kept env oms order (applyAcknowledgement env oms order managed brokerOrderId).1
          (applyAcknowledgement env oms order managed brokerOrderId).2 := by
        refine kept_acknowledgement hlawful hagrees ?_
        rcases Bool.or_eq_true _ _ |>.mp hfits with hopen | hpending
        · exact .inl ((Bool.not_eq_true' _).mp hopen)
        · exact .inr hpending
      rw [Option.some.inj h] at hkept
      exact hkept
    · next hnoack =>
      rw [if_neg hnoack] at hfits
      split at h
      · next hend =>
        rw [if_pos hend] at hfits
        have hkept : Kept env oms order (applyEnd env oms order managed name eventId).1
            (applyEnd env oms order managed name eventId).2 := by
          refine kept_end hlawful hend hagrees ?_
          split at hfits
          · next hfilled =>
            rw [if_pos hfilled]
            exact of_decide_eq_true hfits
          · next hfilled =>
            rw [if_neg hfilled]
            rintro m rfl
            exact hfits
        rw [Option.some.inj h] at hkept
        exact hkept
      · exact absurd h nofun

/-! ## What an event leaves alone -/

/-- The fields of an order that an event may write. -/
def eventKeys : List String :=
  ["broker_order_id", "filled_quantity", "average_fill_price", "fee", "state", "queue_state", "reason",
    "reconciliation_warning", "cancel_reconciliation", "oms_status", "last_execution_event_id"]

/-- Every other field is as it was. -/
def Untouched (order order' : Fields) : Prop := ∀ key, key ∉ eventKeys → order'.at key = order.at key

theorem Untouched.refl (order : Fields) : Untouched order order := fun _ _ => rfl

theorem Untouched.trans {order order' order'' : Fields} (h : Untouched order order') (h' : Untouched order' order'') :
    Untouched order order'' :=
  fun key hkey => (h' key hkey).trans (h key hkey)

theorem Untouched.put {order order' : Fields} (h : Untouched order order') {key : String} (hkey : key ∈ eventKeys)
    (value : Json) : Untouched order (order'.put key value) := by
  intro key' hkey'
  have hne : key' ≠ key := fun heq => hkey' (heq ▸ hkey)
  exact (Fields.at_put_ne order' hne value).trans (h key' hkey')

theorem Untouched.setState {order order' : Fields} (h : Untouched order order') (state queueState reason : String) :
    Untouched order (setState order' state queueState reason) :=
  ((h.put (by decide) _).put (by decide) _).put (by decide) _

theorem Untouched.warn {order order' : Fields} (h : Untouched order order') (raised : Option String) :
    Untouched order (warn order' raised) := by
  cases raised with
  | none => exact h
  | some message => exact h.put (by decide) _

theorem Untouched.mirror {order order' : Fields} (h : Untouched order order') (m : Managed) :
    Untouched order (mirror order' m) :=
  ((h.put (by decide) _).put (by decide) _).put (by decide) _

theorem untouched_identified (order : Fields) (brokerOrderId : String) :
    Untouched order (identified order brokerOrderId) := by
  rw [identified]
  split
  · exact (Untouched.refl order).put (by decide) _
  · exact .refl order

theorem untouched_bookFill (env : Env) (order : Fields) (inc : Increment) : Untouched order (bookFill env order inc) :=
  (((Untouched.refl order).put (by decide) _).put (by decide) _).put (by decide) _

theorem Untouched.conclude {order order' : Fields} (h : Untouched order order') (managed : Option Managed)
    (eventId : String) : Untouched order (conclude order' managed eventId) := by
  cases managed with
  | none => exact h.put (by decide) _
  | some m => exact (h.put (by decide) _).put (by decide) _

/-- A branch touches no other field, and makes and loses no managed order. -/
structure Contained (order : Fields) (managed : Option Managed) (result : Fields × Option Managed) : Prop where
  untouched : Untouched order result.1
  managed : result.2.isSome = managed.isSome

theorem contained_fill (env : Env) (oms : Oms) (order : Fields) (managed : Option Managed) (brokerOrderId : String)
    (inc : Increment) (finalFill : Bool) :
    Contained order managed (applyFillEvent env oms order managed brokerOrderId inc finalFill) := by
  have hbooked : Untouched order (if inc.isFill then bookFill env order inc else order) := by
    split
    · exact untouched_bookFill env order inc
    · exact .refl order
  have hfilled : ∀ {order' : Fields}, Untouched order order' → Untouched order (if finalFill then
      setState order' "filled" "completed" "broker-filled"
      else setState order' "partially_filled" "submitted" "broker-partially-filled") := by
    intro order' h
    split
    · exact h.setState _ _ _
    · exact h.setState _ _ _
  cases managed with
  | none => exact ⟨hfilled hbooked, rfl⟩
  | some m =>
    have hmirrored := (hbooked.warn (fillManaged oms m brokerOrderId inc).2).mirror (fillManaged oms m brokerOrderId inc).1
    simp only [applyFillEvent]
    split
    · exact ⟨((hmirrored.put (by decide) _).warn _).setState _ _ _, rfl⟩
    · exact ⟨hfilled hmirrored, rfl⟩

theorem contained_acknowledgement (env : Env) (oms : Oms) (order : Fields) (managed : Option Managed)
    (brokerOrderId : String) : Contained order managed (applyAcknowledgement env oms order managed brokerOrderId) := by
  have hself := Untouched.refl order
  simp only [applyAcknowledgement]
  split
  · exact ⟨((hself.put (by decide) _).put (by decide) _).put (by decide) _, rfl⟩
  · cases managed with
    | none => exact ⟨hself.setState _ _ _, rfl⟩
    | some m =>
      dsimp only
      split
      · exact ⟨hself.setState _ _ _, rfl⟩
      · exact ⟨(hself.warn _).setState _ _ _, rfl⟩

theorem contained_end (env : Env) (oms : Oms) (order : Fields) (managed : Option Managed) (name eventId : String) :
    Contained order managed (applyEnd env oms order managed name eventId) := by
  have hself := Untouched.refl order
  simp only [applyEnd]
  split
  · exact ⟨(hself.setState _ _ _).put (by decide) _, rfl⟩
  · cases managed with
    | none => exact ⟨hself.setState _ _ _, rfl⟩
    | some m => exact ⟨(hself.warn _).setState _ _ _, rfl⟩

/-- **What a branch leaves alone.** -/
theorem contained_of_applyState {order : Fields} {managed : Option Managed} {result : Fields × Option Managed}
    {name brokerOrderId eventId : String} {inc : Increment}
    (h : applyState env oms order managed name brokerOrderId eventId inc = some result) :
    Contained order managed result := by
  rw [applyState] at h
  split at h
  · exact Option.some.inj h ▸ contained_fill ..
  · split at h
    · exact Option.some.inj h ▸ contained_acknowledgement ..
    · split at h
      · exact Option.some.inj h ▸ contained_end ..
      · exact absurd h nofun

/-! ## The links between orders and managed orders -/

/-- The order names the same managed order. -/
def Linked (order order' : Fields) : Prop := order'.at "oms_order_id" = order.at "oms_order_id"

theorem Untouched.linked {order order' : Fields} (h : Untouched order order') : Linked order order' :=
  h "oms_order_id" (by decide)

theorem linked_identified (order : Fields) (brokerOrderId : String) : Linked order (identified order brokerOrderId) :=
  (untouched_identified order brokerOrderId).linked

theorem Linked.conclude {order order' : Fields} (h : Linked order order') (managed : Option Managed) (eventId : String) :
    Linked order (conclude order' managed eventId) :=
  ((Untouched.refl order').conclude managed eventId).linked.trans h

/-- A branch keeps the link, and makes and loses no managed order. -/
def KeepsLink (order : Fields) (managed : Option Managed) (result : Fields × Option Managed) : Prop :=
  Linked order result.1 ∧ result.2.isSome = managed.isSome

theorem keepsLink_of_applyState {order : Fields} {managed : Option Managed} {result : Fields × Option Managed}
    {name brokerOrderId eventId : String} {inc : Increment}
    (h : applyState env oms order managed name brokerOrderId eventId inc = some result) :
    KeepsLink order managed result := by
  have hcontained := contained_of_applyState h
  exact ⟨hcontained.untouched.linked, hcontained.managed⟩

end LiveTrader.LiveOrders
