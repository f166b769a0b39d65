/-
# `LiveOrders.Terminal` — terminal order states and late events

In every run of events that are applied as they should be, a terminal order stays terminal, a
filled one filled, and the local state, the managed order and `oms_status` agree
(`terminal_of_run`); a batch is such a run (`applyExecutionEvents_run`).  A late acknowledgement
puts a filled order back to work (`sample_late_acknowledgement`).
-/
import LiveTrader.LiveOrders.Kept
import LiveTrader.Lib.Runs

namespace LiveTrader.LiveOrders

open Lib Lib.Py Lib.Runs

variable {env : Env} {oms : Oms}

/-! ## All orders -/

/-- The managed order that a local order names. -/
def omsOrderId (env : Env) (order : Fields) : String := env.text (order.at "oms_order_id")

theorem Linked.omsOrderId {order order' : Fields} (h : Linked order order') : omsOrderId env order' = omsOrderId env order := by
  rw [LiveOrders.omsOrderId, h, LiveOrders.omsOrderId]

namespace World

variable {w : World}

theorem order_setOrder {i : ℕ} (hi : i < w.orders.length) (order : Fields) (j : ℕ) :
    (w.setOrder i order).order j = if j = i then order else w.order j := by
  simp only [World.order, setOrder, List.getD_eq_getElem?_getD, List.getElem?_set]
  by_cases hj : j = i
  · subst hj
    simp only [if_true, hi, Option.getD_some]
  · simp only [if_neg (Ne.symm hj), if_neg hj]

theorem order_setManaged (id : String) (managed : Option Managed) (j : ℕ) : (w.setManaged id managed).order j = w.order j := by
  cases managed <;> rfl

theorem length_setManaged (id : String) (managed : Option Managed) :
    (w.setManaged id managed).orders.length = w.orders.length := by
  cases managed <;> rfl

theorem managedOf_setManaged (env : Env) (id : String) (managed : Option Managed) (order : Fields) :
    (w.setManaged id managed).managedOf env order =
      if managed.isSome ∧ omsOrderId env order = id then managed else w.managedOf env order := by
  cases managed with
  | none => rfl
  | some m =>
    show (w.managed.set id m).lookup (omsOrderId env order) = _
    rw [Dict.lookup_set]
    simp only [Option.isSome_some, true_and]
    rfl

theorem managedOf_congr {env : Env} {order order' : Fields} (h : omsOrderId env order' = omsOrderId env order) :
    w.managedOf env order' = w.managedOf env order := by
  show w.managed.lookup (omsOrderId env order') = w.managed.lookup (omsOrderId env order)
  rw [h]

theorem target_lt {env : Env} {event : Fields} {i : ℕ} (h : w.target env event = some i) : i < w.orders.length := by
  obtain ⟨hi, -⟩ := List.findIdx?_eq_some_iff_getElem.mp h
  exact hi

end World

/-- The order of an event, with its broker's identifier. -/
def addressed (env : Env) (w : World) (event : Fields) (i : ℕ) : Fields :=
  identified (w.order i) (brokerOrderIdOf env event (w.order i))

theorem applyEvent_cases (env : Env) (oms : Oms) (w : World) (event : Fields) :
    (w.target env event = none ∧ (applyEvent env oms w event).1 = w) ∨
    ∃ i, w.target env event = some i ∧
      ((applyEvent env oms w event).1 = w.setOrder i (addressed env w event i) ∨
      ∃ inc order' managed', executionEventIncrement env event (addressed env w event i)
          (w.managedOf env (addressed env w event i)) = .ok inc ∧
        applyState env oms (addressed env w event i) (w.managedOf env (addressed env w event i)) (stateName env event)
          (brokerOrderIdOf env event (w.order i)) (eventIdOf env event) inc = some (order', managed') ∧
        (applyEvent env oms w event).1 = (w.setOrder i (conclude order' managed' (eventIdOf env event))).setManaged
          (omsOrderId env (addressed env w event i)) managed') := by
  unfold applyEvent
  split
  · next hnone => exact .inl ⟨hnone, rfl⟩
  · next i hi =>
    refine .inr ⟨i, hi, ?_⟩
    dsimp only
    split
    · next inc watermark hinc hwatermark =>
      split
      · exact .inl rfl
      · next order' managed' hstate => exact .inr ⟨inc, order', managed', hinc, hstate, rfl⟩
    · exact .inl rfl
    · exact .inl rfl

/-- The code applies the event as it should where it is about this order. -/
def fits (env : Env) (oms : Oms) (i : ℕ) (w : World) (event : Fields) : Bool :=
  if w.target env event = some i then
    let order := addressed env w event i
    match executionEventIncrement env event order (w.managedOf env order) with
    | .ok inc => fitsOrder env oms order (w.managedOf env order) (stateName env event)
        (brokerOrderIdOf env event (w.order i)) (eventIdOf env event) inc
    | .error _ => true
  else true

/-- The order agrees with its managed order, which no other order has. -/
structure Settled (env : Env) (oms : Oms) (w : World) (i : ℕ) : Prop where
  agrees : Agrees env oms (w.order i) (w.managedOf env (w.order i))
  /-- `oms_status` says whether the order is terminal. -/
  status : (w.managedOf env (w.order i)).isSome = true →
    isTerminal env (w.order i) = decide (env.text ((w.order i).at "oms_status") ∈ terminalStatuses)
  alone : (w.managedOf env (w.order i)).isSome = true →
    ∀ j, j ≠ i → j < w.orders.length → omsOrderId env (w.order j) ≠ omsOrderId env (w.order i)

/-- What an event leaves of an order for good. -/
def Stays (env : Env) (order order' : Fields) : Prop :=
  (isTerminal env order = true → isTerminal env order' = true) ∧
    (localState env order = "filled" → localState env order' = "filled")

theorem Stays.refl (env : Env) (order : Fields) : Stays env order order := ⟨id, id⟩

theorem Stays.trans {order order' order'' : Fields} (h : Stays env order order') (h' : Stays env order' order'') :
    Stays env order order'' :=
  ⟨fun hterminal => h'.1 (h.1 hterminal), fun hfilled => h'.2 (h.2 hfilled)⟩

theorem stays_of_localState {order order' : Fields} (h : localState env order' = localState env order) :
    Stays env order order' := by
  refine ⟨fun hterminal => ?_, fun hfilled => h.trans hfilled⟩
  rw [isTerminal, h]
  exact hterminal

theorem linked_addressed (env : Env) (w : World) (event : Fields) (i : ℕ) :
    Linked (w.order i) (addressed env w event i) := linked_identified _ _

theorem managedOf_addressed (env : Env) (w : World) (event : Fields) (i : ℕ) :
    w.managedOf env (addressed env w event i) = w.managedOf env (w.order i) :=
  World.managedOf_congr (linked_addressed env w event i).omsOrderId

theorem at_status_addressed (env : Env) (w : World) (event : Fields) (i : ℕ) :
    (addressed env w event i).at "oms_status" = (w.order i).at "oms_status" := by
  rw [addressed, identified]
  split
  · exact Fields.at_put_ne _ (by decide) _
  · rfl

/-- The order is there with new contents, and nothing else has changed. -/
theorem Settled.setOrder {w : World} {i : ℕ} (h : Settled env oms w i) {event : Fields} (hi : i < w.orders.length) :
    Settled env oms (w.setOrder i (addressed env w event i)) i ∧
      Stays env (w.order i) ((w.setOrder i (addressed env w event i)).order i) := by
  have horder : (w.setOrder i (addressed env w event i)).order i = addressed env w event i := by
    rw [World.order_setOrder hi, if_pos rfl]
  have hstate : localState env (addressed env w event i) = localState env (w.order i) := localState_identified ..
  have hmanaged : (w.setOrder i (addressed env w event i)).managedOf env (addressed env w event i) =
      w.managedOf env (w.order i) := managedOf_addressed env w event i
  have hkept : Kept env oms (w.order i) (addressed env w event i) (w.managedOf env (w.order i)) :=
    Kept.same h.agrees hstate
  rw [horder]
  refine ⟨⟨?_, ?_, ?_⟩, hkept.terminal, hkept.filled⟩
  · rw [horder, hmanaged]
    exact hkept.agrees
  · rw [horder, hmanaged]
    intro hsome
    rw [at_status_addressed, isTerminal, hstate]
    exact h.status hsome
  · rw [horder, hmanaged]
    intro hsome j hj hlt
    rw [World.order_setOrder hi, if_neg hj, (linked_addressed env w event i).omsOrderId]
    exact h.alone hsome j hj (List.length_set ▸ hlt)

/-- `oms_status` after an event is the status of the managed order. -/
theorem at_status_conclude (order : Fields) (m : Managed) (eventId : String) :
    (conclude order (some m) eventId).at "oms_status" = .str m.status := by
  rw [conclude, Fields.at_put_ne _ (by decide), Fields.at_put]

/-- **The order of an event.** -/
theorem Settled.applied (hlawful : oms.Lawful) {w : World} {i : ℕ} (h : Settled env oms w i) {event order' : Fields}
    {managed' : Option Managed} {inc : Increment} (hi : i < w.orders.length)
    (hfits : fitsOrder env oms (addressed env w event i) (w.managedOf env (addressed env w event i)) (stateName env event)
      (brokerOrderIdOf env event (w.order i)) (eventIdOf env event) inc = true)
    (hstate : applyState env oms (addressed env w event i) (w.managedOf env (addressed env w event i))
      (stateName env event) (brokerOrderIdOf env event (w.order i)) (eventIdOf env event) inc = some (order', managed')) :
    let w' := (w.setOrder i (conclude order' managed' (eventIdOf env event))).setManaged
      (omsOrderId env (addressed env w event i)) managed'
    Settled env oms w' i ∧ Stays env (w.order i) (w'.order i) := by
  intro w'
  obtain ⟨hlinked, hsome⟩ := keepsLink_of_applyState hstate
  have happlied : Linked (w.order i) order' := hlinked.trans (linked_addressed env w event i)
  have hlink : Linked (w.order i) (conclude order' managed' (eventIdOf env event)) := happlied.conclude managed' _
  have hid : omsOrderId env (conclude order' managed' (eventIdOf env event)) = omsOrderId env (addressed env w event i) :=
    hlink.omsOrderId.trans (linked_addressed env w event i).omsOrderId.symm
  have horder : w'.order i = conclude order' managed' (eventIdOf env event) := by
    rw [World.order_setManaged, World.order_setOrder hi, if_pos rfl]
  have hagrees : Agrees env oms (addressed env w event i) (w.managedOf env (addressed env w event i)) := by
    rw [managedOf_addressed]
    exact (Kept.same h.agrees (localState_identified ..)).agrees
  have hkept := kept_of_applyState hlawful hagrees hfits hstate
  have hconclude : Kept env oms order' (conclude order' managed' (eventIdOf env event)) managed' :=
    Kept.same hkept.agrees (localState_conclude ..)
  have hmanaged : w'.managedOf env (w'.order i) = managed' := by
    rw [horder, World.managedOf_setManaged]
    cases managed' with
    | some m => rw [if_pos ⟨rfl, hid⟩]
    | none =>
      have hnone : w.managedOf env (addressed env w event i) = none :=
        Option.isNone_iff_eq_none.mp (Option.isSome_eq_false_iff.mp hsome.symm)
      rw [if_neg fun h => absurd h.1 (by decide)]
      exact (World.managedOf_congr hid).trans hnone
  have hstays : Stays env (w.order i) (w'.order i) := by
    rw [horder]
    refine (stays_of_localState ?_).trans (Stays.trans ⟨hkept.terminal, hkept.filled⟩ ⟨hconclude.terminal, hconclude.filled⟩)
    exact localState_identified ..
  refine ⟨⟨?_, ?_, ?_⟩, hstays⟩
  · rw [hmanaged, horder]
    exact hconclude.agrees
  · rw [hmanaged, horder]
    intro hm
    obtain ⟨m, rfl⟩ := Option.isSome_iff_exists.mp hm
    rw [hconclude.agrees.terminal rfl, at_status_conclude, text_str, Bool.eq_iff_iff, hlawful.terminal_iff, decide_eq_true_iff]
  · rw [hmanaged]
    intro hm j hj hlt
    have hwas : (w.managedOf env (w.order i)).isSome = true := by
      rw [← managedOf_addressed env w event i, ← hsome]
      exact hm
    rw [horder, hlink.omsOrderId, World.order_setManaged, World.order_setOrder hi, if_neg hj]
    rw [World.length_setManaged] at hlt
    exact h.alone hwas j hj (List.length_set ▸ hlt)

/-- No other order names the managed order of this one. -/
def Alone (env : Env) (w : World) (i : ℕ) : Prop :=
  (w.managedOf env (w.order i)).isSome = true →
    ∀ j, j ≠ i → j < w.orders.length → omsOrderId env (w.order j) ≠ omsOrderId env (w.order i)

/-- The links between the orders and the managed orders are the same. -/
structure SameLinks (env : Env) (w w' : World) : Prop where
  length : w'.orders.length = w.orders.length
  ids : ∀ j, omsOrderId env (w'.order j) = omsOrderId env (w.order j)

/-- **An event keeps the links.** -/
theorem sameLinks_applyEvent (env : Env) (oms : Oms) (w : World) (event : Fields) :
    SameLinks env w (applyEvent env oms w event).1 := by
  rcases applyEvent_cases env oms w event with ⟨-, hsame⟩ | ⟨j, htarget, hcase⟩
  · rw [hsame]
    exact ⟨rfl, fun _ => rfl⟩
  · have hj := World.target_lt htarget
    rcases hcase with hset | ⟨inc, order', managed', hinc, hstate, hset⟩
    · rw [hset]
      refine ⟨List.length_set .., fun k => ?_⟩
      rw [World.order_setOrder hj]
      split
      · next hk => rw [hk, (linked_addressed env w event j).omsOrderId]
      · rfl
    · obtain ⟨hlinked, -⟩ := keepsLink_of_applyState hstate
      have happlied : Linked (w.order j) order' := hlinked.trans (linked_addressed env w event j)
      have hlink : Linked (w.order j) (conclude order' managed' (eventIdOf env event)) := happlied.conclude managed' _
      rw [hset]
      refine ⟨(World.length_setManaged ..).trans (List.length_set ..), fun k => ?_⟩
      rw [World.order_setManaged, World.order_setOrder hj]
      split
      · next hk => rw [hk, hlink.omsOrderId]
      · rfl

/-- What an event leaves alone of every order. -/
theorem map_applyEvent {β : Type} (env : Env) (oms : Oms) (w : World) (event : Fields) {f : Fields → β}
    (hf : ∀ {order order'}, Untouched order order' → f order' = f order) :
    (applyEvent env oms w event).1.orders.map f = w.orders.map f := by
  have hset : ∀ {i order'}, i < w.orders.length → Untouched (w.order i) order' →
      (w.orders.set i order').map f = w.orders.map f := by
    intro i order' hi h
    have horder : w.order i = w.orders[i] := by
      rw [World.order, List.getD_eq_getElem?_getD, List.getElem?_eq_getElem hi, Option.getD_some]
    rw [List.map_set, hf h, horder]
    refine List.ext_getElem (List.length_set ..) fun j hj hj' => ?_
    rw [List.getElem_set]
    split
    · next hij => simp only [← hij, List.getElem_map]
    · rfl
  rcases applyEvent_cases env oms w event with ⟨-, hsame⟩ | ⟨i, htarget, hcase⟩
  · rw [hsame]
  · have hi := World.target_lt htarget
    have haddressed : Untouched (w.order i) (addressed env w event i) := untouched_identified _ _
    rcases hcase with hset' | ⟨inc, order', managed', hinc, hstate, hset'⟩
    · rw [hset']
      exact hset hi haddressed
    · have hafter := (haddressed.trans (contained_of_applyState hstate).untouched).conclude managed' (eventIdOf env event)
      rw [hset']
      cases managed' with
      | none => exact hset hi hafter
      | some m => exact hset hi hafter

/-- What a batch leaves alone of every order. -/
theorem map_applyExecutionEvents {β : Type} (env : Env) (oms : Oms) (w : World) (known : List String)
    (events : List Fields) {f : Fields → β} (hf : ∀ {order order'}, Untouched order order' → f order' = f order) :
    (applyExecutionEvents env oms w known events).1.orders.map f = w.orders.map f := by
  induction events generalizing w known with
  | nil => rfl
  | cons event rest ih =>
    have hevent := map_applyEvent env oms w event hf
    rw [applyExecutionEvents]
    split
    · exact ih w known
    · split
      · next w' e happly =>
        rw [happly] at hevent
        exact hevent
      · next w' event' counted happly =>
        rw [happly] at hevent
        exact (ih w' _).trans hevent

/-- **An event about another order** changes neither this one nor its managed order. -/
theorem unchanged_of_other (env : Env) (oms : Oms) {w : World} {event : Fields} {i : ℕ} (halone : Alone env w i)
    (htarget : w.target env event ≠ some i) : (applyEvent env oms w event).1.order i = w.order i ∧
      (applyEvent env oms w event).1.managedOf env (w.order i) = w.managedOf env (w.order i) := by
  rcases applyEvent_cases env oms w event with ⟨-, hsame⟩ | ⟨j, hother, hcase⟩
  · rw [hsame]
    exact ⟨rfl, rfl⟩
  · have hj := World.target_lt hother
    have hij : i ≠ j := fun hij => htarget (hij ▸ hother)
    rcases hcase with hset | ⟨inc, order', managed', hinc, hstate, hset⟩
    · rw [hset]
      refine ⟨?_, rfl⟩
      rw [World.order_setOrder hj, if_neg hij]
    · obtain ⟨-, hsome⟩ := keepsLink_of_applyState hstate
      rw [hset]
      refine ⟨?_, ?_⟩
      · rw [World.order_setManaged, World.order_setOrder hj, if_neg hij]
      · rw [World.managedOf_setManaged]
        refine if_neg fun hid => ?_
        -- the other order has a managed order of its own
        have hsameId : omsOrderId env (w.order i) = omsOrderId env (w.order j) :=
          hid.2.trans (linked_addressed env w event j).omsOrderId
        have hmanaged : (w.managedOf env (w.order i)).isSome = true := by
          rw [World.managedOf_congr hsameId, ← managedOf_addressed env w event j, ← hsome]
          exact hid.1
        exact halone hmanaged j hij.symm hj hsameId.symm

theorem Alone.keep {w w' : World} {i : ℕ} (h : Alone env w i) (hlinks : SameLinks env w w')
    (hsome : (w'.managedOf env (w'.order i)).isSome = true → (w.managedOf env (w.order i)).isSome = true) :
    Alone env w' i := by
  intro hmanaged j hj hlt
  rw [hlinks.ids j, hlinks.ids i]
  exact h (hsome hmanaged) j hj (hlinks.length ▸ hlt)

/-- One event of a run. -/
def step (env : Env) (oms : Oms) (w : World) (event : Fields) : Option World := some (applyEvent env oms w event).1

/-- **What an event keeps.** -/
theorem Settled.step (hlawful : oms.Lawful) {w : World} {i : ℕ} {event : Fields} (h : Settled env oms w i)
    (hfits : fits env oms i w event = true) :
    Settled env oms (applyEvent env oms w event).1 i ∧ Stays env (w.order i) ((applyEvent env oms w event).1.order i) := by
  by_cases htarget : w.target env event = some i
  · have hi := World.target_lt htarget
    rw [fits, if_pos htarget] at hfits
    rcases applyEvent_cases env oms w event with ⟨hnone, -⟩ | ⟨j, hj, hcase⟩
    · exact absurd (htarget.symm.trans hnone) (by simp only [reduceCtorEq, not_false_eq_true])
    · obtain rfl : i = j := Option.some.inj (htarget.symm.trans hj)
      rcases hcase with hset | ⟨inc, order', managed', hinc, hstate, hset⟩
      · rw [hset]
        exact h.setOrder hi
      · rw [hset]
        dsimp only at hfits
        rw [hinc] at hfits
        exact h.applied hlawful hi hfits hstate
  · obtain ⟨horder, hmanaged⟩ := unchanged_of_other env oms h.alone htarget
    refine ⟨⟨?_, ?_, ?_⟩, horder.symm ▸ Stays.refl env _⟩
    · rw [horder, hmanaged]
      exact h.agrees
    · rw [horder, hmanaged]
      exact h.status
    · refine Alone.keep h.alone (sameLinks_applyEvent env oms w event) fun hsome => ?_
      rw [horder, hmanaged] at hsome
      exact hsome

/-- **Every run of events.**  Of an order that agrees with its managed order, and of events that the
code applies as it should: a terminal order stays terminal, a filled one filled, and the local
state, the managed order and `oms_status` go on to agree. -/
theorem terminal_of_run (env : Env) {oms : Oms} (hlawful : oms.Lawful) (i : ℕ) {events : List Fields} {w w' : World}
    (hstart : Settled env oms w i) (h : Run (step env oms) (fun w event => fits env oms i w event = true) w events w') :
    Settled env oms w' i ∧ Stays env (w.order i) (w'.order i) := by
  induction h with
  | nil w => exact ⟨hstart, Stays.refl env _⟩
  | cons hfits hstep _ ih =>
    obtain rfl := Option.some.inj hstep
    obtain ⟨hsettled, hstays⟩ := hstart.step hlawful hfits
    obtain ⟨hend, hrest⟩ := ih hsettled
    exact ⟨hend, hstays.trans hrest⟩

/-- A batch is a run of those of its events that are new. -/
theorem applyExecutionEvents_run (env : Env) (oms : Oms) (w : World) (known : List String) (events : List Fields) :
    ∃ applied, applied.Sublist events ∧ (applied.map (eventIdOf env)).Nodup ∧
      (∀ event ∈ applied, eventIdOf env event ∉ known) ∧
      Run (step env oms) Free w applied (applyExecutionEvents env oms w known events).1 := by
  induction events generalizing w known with
  | nil => exact ⟨[], .slnil, List.nodup_nil, nofun, .nil w⟩
  | cons event rest ih =>
    rw [applyExecutionEvents]
    split
    · obtain ⟨applied, hsub, hnodup, hnew, hrun⟩ := ih w known
      exact ⟨applied, hsub.cons event, hnodup, hnew, hrun⟩
    · next hnew =>
      have hfresh : eventIdOf env event ∉ known := fun hknown => hnew (.inr hknown)
      split
      · next w' e happly =>
        refine ⟨[event], List.singleton_sublist.mpr List.mem_cons_self, ?_, fun e he => ?_, ?_⟩
        · exact List.nodup_cons.mpr ⟨List.not_mem_nil, List.nodup_nil⟩
        · obtain rfl := List.mem_singleton.mp he
          exact hfresh
        · exact .single trivial (by rw [step, happly])
      · next w' event' counted happly =>
        obtain ⟨applied, hsub, hnodup, hother, hrun⟩ := ih w' (eventIdOf env event :: known)
        refine ⟨event :: applied, hsub.cons_cons event, ?_, fun e he => ?_, ?_⟩
        · rw [List.map_cons, List.nodup_cons]
          refine ⟨fun hmem => ?_, hnodup⟩
          obtain ⟨e, he, hid⟩ := List.mem_map.mp hmem
          exact hother e he (hid ▸ List.mem_cons_self)
        · rcases List.mem_cons.mp he with rfl | he
          · exact hfresh
          · exact fun hknown => hother e he (List.mem_cons_of_mem _ hknown)
        · exact .cons trivial (by rw [step, happly]) hrun

/-! ## Two runs -/

def Env.sample : Env where
  float
    | .int n => some n
    | .float q => some q
    | _ => none
  repr _ := "?"
  isdigit _ := true
  tolerance := 1 / 1000000000000

/-- An OMS that refuses every operation on a terminal order. -/
def Oms.sample : Oms where
  terminal m := m.status ∈ terminalStatuses
  acknowledge m _ := if m.status = "SUBMITTING" then ({ m with status := "ACKNOWLEDGED" }, none) else (m, some "status")
  applyFill m quantity price fee _ :=
    if m.status ∈ terminalStatuses then (m, some "status")
    else ({ m with
      filledQuantity := m.filledQuantity + quantity
      averageFillPrice := (m.filledQuantity * m.averageFillPrice + quantity * price) / (m.filledQuantity + quantity)
      fee := m.fee + fee
      status := if m.quantity ≤ m.filledQuantity + quantity then "FILLED" else "PARTIALLY_FILLED" }, none)
  markUnknown m _ := if m.status ∈ terminalStatuses then (m, some "status") else ({ m with status := "UNKNOWN" }, none)
  reconcileUnknown m _ := if m.status = "UNKNOWN" then ({ m with status := "ACKNOWLEDGED" }, none) else (m, some "status")
  transition m target _ _ := if m.status ∈ terminalStatuses then (m, some "status") else ({ m with status := target }, none)

/-- An operation of the sample that leaves a terminal order alone. -/
theorem sample_moves {op : Managed → Outcome} {ends : List String}
    (h : ∀ m, (op m).1.status = m.status ∨ (m.status ∉ terminalStatuses ∧
      ((op m).1.status ∉ terminalStatuses ∨ (op m).1.status ∈ ends))) : Oms.sample.Moves op ends := by
  intro m
  rcases h m with hsame | ⟨hopen, hends⟩
  · refine ⟨fun _ => hsame, fun hm => .inl ?_⟩
    have hm : decide (m.status ∈ terminalStatuses) = false := hm
    show decide ((op m).1.status ∈ terminalStatuses) = false
    rw [hsame]
    exact hm
  · refine ⟨fun hm => absurd (of_decide_eq_true hm) hopen, fun _ => ?_⟩
    rcases hends with hends | hends
    · exact .inl (decide_eq_false hends)
    · exact .inr hends

theorem sample_lawful : Oms.sample.Lawful := by
  have hacknowledged : "ACKNOWLEDGED" ∉ terminalStatuses := by decide
  have hunknown : "UNKNOWN" ∉ terminalStatuses := by decide
  refine ⟨fun m => decide_eq_true_iff, fun _ => ?_, fun quantity _ _ _ => ?_, fun _ => ?_, fun _ => ?_, fun _ _ _ => ?_⟩
  · refine sample_moves fun m => ?_
    simp only [Oms.sample]
    split
    · next hstatus => exact .inr ⟨hstatus ▸ by decide, .inl hacknowledged⟩
    · exact .inl rfl
  · refine sample_moves fun m => ?_
    simp only [Oms.sample]
    split
    · exact .inl rfl
    · next hopen =>
      refine .inr ⟨hopen, ?_⟩
      dsimp only
      split
      · exact .inr (List.mem_singleton_self _)
      · exact .inl (by decide)
  · refine sample_moves fun m => ?_
    simp only [Oms.sample]
    split
    · exact .inl rfl
    · next hopen => exact .inr ⟨hopen, .inl hunknown⟩
  · refine sample_moves fun m => ?_
    simp only [Oms.sample]
    split
    · next hstatus => exact .inr ⟨hstatus ▸ by decide, .inl hacknowledged⟩
    · exact .inl rfl
  · refine sample_moves fun m => ?_
    simp only [Oms.sample]
    split
    · exact .inl rfl
    · next hopen => exact .inr ⟨hopen, .inr (List.mem_singleton_self _)⟩

/-- An order of three units that the broker has acknowledged. -/
def sampleWorld : World where
  orders := [[("order_id", .str "o"), ("oms_order_id", .str "m"), ("broker_order_id", .str "b"),
    ("state", .str "acknowledged"), ("oms_status", .str "ACKNOWLEDGED")]]
  managed := [("m", { status := "ACKNOWLEDGED", quantity := 3 })]

def sampleEvent (eventId state : String) (quantity : ℤ) : Fields :=
  [("event_id", .str eventId), ("broker_id", .str "binance"), ("broker_order_id", .str "b"), ("state", .str state),
    ("quantity", .int quantity), ("price", .int 10)]

theorem sampleWorld_settled : Settled Env.sample Oms.sample sampleWorld 0 := by
  have hmanaged : sampleWorld.managedOf Env.sample (sampleWorld.order 0) =
      some { status := "ACKNOWLEDGED", quantity := 3 } := rfl
  refine ⟨⟨fun {m} hm => ?_, fun {m} hm => ?_⟩, fun _ => by decide, fun _ j hj hlt => ?_⟩
  · obtain rfl := Option.some.inj (hmanaged.symm.trans hm)
    decide
  · obtain rfl := Option.some.inj (hmanaged.symm.trans hm)
    decide
  · exact absurd (Nat.lt_one_iff.mp hlt) hj

/-- A partial fill, the final one and a late cancel. -/
theorem terminal_of_run_sample : ∃ w,
    runAll (fun w event => if fits Env.sample Oms.sample 0 w event then step Env.sample Oms.sample w event else none)
      sampleWorld [sampleEvent "1" "partially_filled" 1, sampleEvent "2" "filled" 2, sampleEvent "3" "canceled" 0] =
      some w ∧
    localState Env.sample (w.order 0) = "filled" ∧ Settled Env.sample Oms.sample w 0 := by
  obtain ⟨w, hw, hfilled⟩ : ∃ w,
      runAll (fun w event => if fits Env.sample Oms.sample 0 w event then step Env.sample Oms.sample w event else none)
        sampleWorld [sampleEvent "1" "partially_filled" 1, sampleEvent "2" "filled" 2, sampleEvent "3" "canceled" 0] =
        some w ∧
      localState Env.sample (w.order 0) = "filled" := by
    decide +kernel
  exact ⟨w, hw, hfilled, (terminal_of_run Env.sample sample_lawful 0 sampleWorld_settled (run_of_guarded hw)).1⟩

/-- **A late acknowledgement.**  It puts a filled order back to work, against its managed order. -/
theorem sample_late_acknowledgement : ∃ w w',
    Run (step Env.sample Oms.sample) Free sampleWorld [sampleEvent "1" "filled" 3] w ∧
    Run (step Env.sample Oms.sample) Free w [sampleEvent "2" "acknowledged" 0] w' ∧
    localState Env.sample (w.order 0) = "filled" ∧ localState Env.sample (w'.order 0) = "acknowledged" ∧
    (w'.managedOf Env.sample (w'.order 0)).map (·.status) = some "FILLED" := by
  obtain ⟨w, hw, hfilled, w', hw', hlate⟩ : ∃ w, runAll (step Env.sample Oms.sample) sampleWorld
        [sampleEvent "1" "filled" 3] = some w ∧
      localState Env.sample (w.order 0) = "filled" ∧
      ∃ w', runAll (step Env.sample Oms.sample) w [sampleEvent "2" "acknowledged" 0] = some w' ∧
        localState Env.sample (w'.order 0) = "acknowledged" ∧
        (w'.managedOf Env.sample (w'.order 0)).map (·.status) = some "FILLED" := by
    decide +kernel
  exact ⟨w, w', free_of_runAll hw, free_of_runAll hw', hfilled, hlate.1, hlate.2⟩

end LiveTrader.LiveOrders
