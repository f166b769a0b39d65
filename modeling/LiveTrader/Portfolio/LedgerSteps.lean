/-
# `Portfolio.LedgerSteps` — what a successful call does to the ledger

Every method of the ledger commits whole groups of events.  `Books` has one
constructor for each kind of group, with the guards that the code checked before
it wrote the group, and `Op.books` reads a successful call back as a run of
`Books` steps.  The invariants of the ledger are then proved over `Books`, and
no other file unfolds a method of `Portfolio.Ledger`.

The measures that those invariants speak about are sums over the log: `held` for
the holding of a sleeve and `filledQuantities` for the filled part of an order.
The second section computes both for every kind of group.
-/
import LiveTrader.Portfolio.Ledger
import LiveTrader.Portfolio.ApportionSound

namespace LiveTrader.Portfolio

open Lib.Py Lib.Decimal

/-! ## Holdings as sums over the log -/

/-- What an event adds to the holding of a sleeve. -/
def Event.holding (scopeId : Text) (sleeveId symbol : String) (event : Event) : ℤ :=
  match event.payload.leg with
  | some (signedQuantity, _, _) =>
      if event.scopeId = scopeId ∧ event.sleeveId = sleeveId ∧ event.symbol = symbol then
        signedQuantity
      else 0
  | none => 0

/-- The holding of a sleeve after a log. -/
def held (log : List Event) (scopeId : Text) (sleeveId symbol : String) : ℤ :=
  (log.map (Event.holding scopeId sleeveId symbol)).sum

@[simp] theorem held_nil (scopeId : Text) (sleeveId symbol : String) :
    held [] scopeId sleeveId symbol = 0 := rfl

@[simp] theorem held_cons (event : Event) (log : List Event) (scopeId : Text)
    (sleeveId symbol : String) : held (event :: log) scopeId sleeveId symbol =
      event.holding scopeId sleeveId symbol + held log scopeId sleeveId symbol := by
  simp [held]

@[simp] theorem held_append (log log' : List Event) (scopeId : Text) (sleeveId symbol : String) :
    held (log ++ log') scopeId sleeveId symbol =
      held log scopeId sleeveId symbol + held log' scopeId sleeveId symbol := by
  simp [held]

@[simp] theorem filledQuantities_append (log log' : List Event) (scopeId : Text)
    (planId : String) : filledQuantities (log ++ log') scopeId planId =
      filledQuantities log scopeId planId + filledQuantities log' scopeId planId := by
  simp [filledQuantities]

@[simp] theorem filledQuantities_cons (event : Event) (log : List Event) (scopeId : Text)
    (planId : String) : filledQuantities (event :: log) scopeId planId =
      event.fillOf scopeId planId + filledQuantities log scopeId planId := by
  simp [filledQuantities]

/-- What an allocation list gives one sleeve. -/
def sleeveQuantity (allocations : List SleeveAllocation) (sleeveId : String) : ℤ :=
  (allocations.map fun a => if a.sleeveId.val = sleeveId then a.signedQuantity else 0).sum

/-- Events that move no holding and fill no order. -/
def Neutral (events : List Event) : Prop :=
  ∀ event ∈ events, event.payload.leg = none ∧ ∀ fill, event.payload ≠ .brokerFill fill

/-- Events of a reconciliation. -/
def Quiet (events : List Event) : Prop :=
  ∀ event ∈ events, ∃ payload contentHash,
    event.payload = .restartReconciliation payload contentHash

theorem held_eq_zero {events : List Event} (h : ∀ event ∈ events, event.payload.leg = none)
    (scopeId : Text) (sleeveId symbol : String) : held events scopeId sleeveId symbol = 0 := by
  induction events with
  | nil => rfl
  | cons event events ih =>
    rw [held_cons, ih fun e he => h e (List.mem_cons_of_mem _ he), Event.holding,
      h event List.mem_cons_self, add_zero]

theorem filledQuantities_eq_zero {events : List Event} {scopeId : Text} {planId : String}
    (h : ∀ event ∈ events, event.fillOf scopeId planId = 0) :
    filledQuantities events scopeId planId = 0 := by
  rw [filledQuantities, List.sum_eq_zero_iff]
  simpa using h

theorem Neutral.held {events : List Event} (h : Neutral events) (scopeId : Text)
    (sleeveId symbol : String) : held events scopeId sleeveId symbol = 0 :=
  held_eq_zero (fun event he => (h event he).1) scopeId sleeveId symbol

theorem Neutral.filled {events : List Event} (h : Neutral events) (scopeId : Text)
    (planId : String) : filledQuantities events scopeId planId = 0 := by
  refine filledQuantities_eq_zero fun event he => ?_
  unfold Event.fillOf
  split
  case h_1 fill hp => exact absurd hp ((h event he).2 fill)
  case h_2 => rfl

theorem Quiet.neutral {events : List Event} (h : Quiet events) : Neutral events := by
  intro event he
  obtain ⟨payload, contentHash, hp⟩ := h event he
  exact ⟨by rw [hp]; rfl, fun fill hp' => by simp [hp] at hp'⟩

theorem neutral_statusEvent (scopeId : Text) (order : OrderRow) (n : Notice) :
    Neutral [statusEvent scopeId order n] := by
  intro event he
  obtain rfl := List.mem_singleton.mp he
  exact ⟨rfl, fun _ hp => by simp [statusEvent] at hp⟩

/-! ## The groups -/

/-- Events of one scope and symbol whose legs are those of an allocation list. -/
theorem held_map {α : Type} (f : α → Event) (key : α → Text) (quantity : α → ℤ) {scopeId : Text}
    {symbol : String} (l : List α)
    (h : ∀ a ∈ l, ∃ price fee, (f a).payload.leg = some (quantity a, price, fee) ∧
      (f a).scopeId = scopeId ∧ (f a).sleeveId = (key a).val ∧ (f a).symbol = symbol)
    (scopeId' : Text) (sleeveId symbol' : String) :
    held (l.map f) scopeId' sleeveId symbol' =
      if scopeId = scopeId' ∧ symbol = symbol' then
        (l.map fun a => if (key a).val = sleeveId then quantity a else 0).sum
      else 0 := by
  induction l with
  | nil => simp
  | cons a l ih =>
    obtain ⟨price, fee, hleg, hscope, hsleeve, hsym⟩ := h a List.mem_cons_self
    rw [List.map_cons, held_cons, ih fun b hb => h b (List.mem_cons_of_mem _ hb), Event.holding,
      hleg, hscope, hsleeve, hsym]
    by_cases h1 : scopeId = scopeId' <;> by_cases h2 : symbol = symbol' <;>
      by_cases h3 : (key a).val = sleeveId <;> simp [h1, h2, h3]

theorem held_crossEvents {plan : SymbolNetPlan} {now : ℤ} {cross : List Event}
    (h : internalCrossEvents plan now = .ok cross) (scopeId : Text) (sleeveId symbol : String) :
    held cross scopeId sleeveId symbol =
      if plan.scopeId = scopeId ∧ plan.symbol.val = symbol then
        sleeveQuantity plan.internalAllocations sleeveId
      else 0 := by
  unfold internalCrossEvents at h
  split_ifs at h with hnil
  · obtain rfl := (Except.ok.inj h).symm
    simp [hnil, sleeveQuantity]
  · simp only [bind_eq_ok, require_eq_ok, pure_eq_ok] at h
    obtain ⟨_, _, rfl⟩ := h
    rw [held_cons, held_map (sleeveCrossEvent plan now) (·.sleeveId) (·.signedQuantity) _
      fun a _ => ⟨_, _, rfl, rfl, rfl, rfl⟩]
    simp [Event.holding, crossEvent, Payload.leg, sleeveQuantity]

theorem crossEvents_payload {plan : SymbolNetPlan} {now : ℤ} {cross : List Event}
    (h : internalCrossEvents plan now = .ok cross) {event : Event} (he : event ∈ cross) :
    event.scopeId = plan.scopeId ∧ ((∃ price, event.payload = .internalCross plan.planId price) ∨
      ∃ intentId quantity price,
        event.payload = .sleeveInternalCross plan.planId intentId quantity price) := by
  unfold internalCrossEvents at h
  split_ifs at h
  · obtain rfl := (Except.ok.inj h).symm
    cases he
  · simp only [bind_eq_ok, require_eq_ok, pure_eq_ok] at h
    obtain ⟨_, _, rfl⟩ := h
    rcases List.mem_cons.mp he with rfl | he
    · exact ⟨rfl, .inl ⟨_, rfl⟩⟩
    · obtain ⟨item, _, rfl⟩ := List.mem_map.mp he
      exact ⟨rfl, .inr ⟨_, _, _, rfl⟩⟩

theorem filled_crossEvents {plan : SymbolNetPlan} {now : ℤ} {cross : List Event}
    (h : internalCrossEvents plan now = .ok cross) (scopeId : Text) (planId : String) :
    filledQuantities cross scopeId planId = 0 := by
  refine filledQuantities_eq_zero fun event he => ?_
  rcases (crossEvents_payload h he).2 with ⟨_, hp⟩ | ⟨_, _, _, hp⟩ <;> simp [Event.fillOf, hp]

section fill

variable {scopeId : Text} {order : OrderRow} {n : Notice} {active : List SleeveAllocation}
  {fees : List ℚ}

theorem sleeveQuantity_fillAllocations (price : ℚ) (sleeveId : String) :
    ∀ (active : List SleeveAllocation) (fees : List ℚ), fees.length = active.length →
    ((fillAllocations active price fees).map fun a =>
      if a.sleeveId.val = sleeveId then a.signedQuantity else 0).sum =
      sleeveQuantity active sleeveId
  | [], [], _ => rfl
  | a :: active, fee :: fees, h => by
      have ih := sleeveQuantity_fillAllocations price sleeveId active fees (by simpa using h)
      simp only [fillAllocations, List.zipWith_cons_cons, List.map_cons, List.sum_cons,
        sleeveQuantity] at ih ⊢
      rw [ih]

theorem held_fillEvents (hlen : fees.length = active.length) (scopeId' : Text)
    (sleeveId symbol : String) :
    held (fillEvents scopeId order n active fees) scopeId' sleeveId symbol =
      if scopeId = scopeId' ∧ n.symbol.val = symbol then sleeveQuantity active sleeveId else 0 := by
  rw [fillEvents, held_cons, held_map (sleeveFillEvent scopeId order n) (·.sleeveId)
    (·.signedQuantity) _ fun a _ => ⟨_, _, rfl, rfl, rfl, rfl⟩,
    sleeveQuantity_fillAllocations _ _ _ _ hlen]
  simp [Event.holding, brokerFillEvent, Payload.leg]

theorem filled_fillEvents (scopeId' : Text) (planId : String) :
    filledQuantities (fillEvents scopeId order n active fees) scopeId' planId =
      if scopeId = scopeId' ∧ order.planId = planId then n.quantity else 0 := by
  rw [fillEvents, filledQuantities_cons, filledQuantities_eq_zero, add_zero]
  · rfl
  · intro event he
    obtain ⟨a, _, rfl⟩ := List.mem_map.mp he
    rfl

end fill

theorem revisionEvents_payload {H : Hashes} {scopeId : Text} {order : OrderRow} {n : Notice}
    {shares : List SleeveAllocation} {current : ℚ} {deltas : List ℚ} {event : Event}
    (he : event ∈ revisionEvents H scopeId order n shares current deltas) :
    event.scopeId = scopeId ∧ ((∃ a, event.payload = .feeAdjustment a ∧
      a.sourceEventId = n.sourceEventId) ∨
      ∃ a, event.payload =
        .sleeveFeeAdjustment order.planId order.brokerOrderId n.sourceEventId a) := by
  rcases List.mem_cons.mp he with rfl | he
  · exact ⟨rfl, .inl ⟨_, rfl, rfl⟩⟩
  · obtain ⟨a, _, rfl⟩ := List.mem_map.mp he
    exact ⟨rfl, .inr ⟨a, rfl⟩⟩

theorem neutral_revisionEvents {H : Hashes} {scopeId : Text} {order : OrderRow} {n : Notice}
    {shares : List SleeveAllocation} {current : ℚ} {deltas : List ℚ} :
    Neutral (revisionEvents H scopeId order n shares current deltas) := by
  intro event he
  rcases (revisionEvents_payload he).2 with ⟨a, hp, _⟩ | ⟨a, hp⟩ <;> simp [hp, Payload.leg]

/-! ## Steps -/

/-- One group of `apply_execution_events`, or one that changes no total; `P`
holds of the notices whose fills are booked. -/
inductive Applies (H : Hashes) (P : Notice → Prop) (l : Ledger) : Ledger → Prop
  | fill {order : OrderRow} {n : Notice} {active : List SleeveAllocation} {fees : List ℚ}
      {l' : Ledger} : order ∈ l.orders → P n → n.symbol = order.symbol → 0 < n.quantity → 0 ≤ n.fee →
      fillId order.scopeId n.sourceEventId ∉ l.eventIds →
      filledQuantities l.log order.scopeId order.planId + n.quantity ≤ order.quantity →
      activeShares order.allocations order.side
        (filledQuantities l.log order.scopeId order.planId) n.quantity = .ok active →
      allocateMoney n.fee (active.map (·.signedQuantity.natAbs)) = .ok fees →
      Appended l (fillEvents order.scopeId order n active fees) l' → Applies H P l l'
  | status {order : OrderRow} {n : Notice} {l' : Ledger} :
      order ∈ l.orders → Appended l [statusEvent order.scopeId order n] l' → Applies H P l l'
  | revise {order : OrderRow} {n : Notice} {shares : List SleeveAllocation} {current : ℚ}
      {deltas : List ℚ} {l' : Ledger} : order ∈ l.orders →
      fillId order.scopeId n.sourceEventId ∈ l.eventIds →
      Appended l (revisionEvents H order.scopeId order n shares current deltas) l' → Applies H P l l'
  | quiet {events : List Event} {l' : Ledger} : Quiet events → Appended l events l' →
      Applies H P l l'

/-- One committed group of any method. -/
inductive Books (H : Hashes) (l : Ledger) : Ledger → Prop
  | scope {l' : Ledger} : l'.orders = l.orders → l'.log = l.log →
      (∀ scopeId, l.hasScope scopeId → l'.hasScope scopeId) → Books H l l'
  | order {plan : SymbolNetPlan} {brokerId : Text} {localId : String} {now : ℤ}
      {cross : List Event} {l' : Ledger} : 0 < plan.quantity → plan.side ≠ .none →
      (∀ row ∈ l.orders, row.planId ≠ plan.planId) →
      (∀ row ∈ l.orders, ¬ (row.scopeId = plan.scopeId ∧ row.brokerOrderId = brokerId)) →
      l.hasScope plan.scopeId → internalCrossEvents plan now = .ok cross →
      Appended { l with orders := l.orders ++ [orderRow plan brokerId localId now] }
        (acceptedEvent plan brokerId localId now :: cross) l' → Books H l l'
  | cross {plan : SymbolNetPlan} {now : ℤ} {cross : List Event} {l' : Ledger} :
      plan.internalOnly → internalCrossEvents plan now = .ok cross → Appended l cross l' →
      Books H l l'
  | applies {l' : Ledger} : Applies H (fun _ => True) l l' → Books H l l'

/-! ## The tables agree -/

/-- Order rows and the events about them belong together. -/
structure Ledger.Sound (l : Ledger) : Prop where
  planIds : (l.orders.map (·.planId)).Nodup
  brokerIds : (l.orders.map fun row => (row.scopeId, row.brokerOrderId)).Nodup
  acceptedRow : ∀ event ∈ l.log, ∀ plan brokerId localId,
    event.payload = .brokerOrderAccepted plan brokerId localId →
      ∃ row ∈ l.orders, row.planId = plan.planId
  fillRow : ∀ event ∈ l.log, ∀ fill, event.payload = .brokerFill fill →
    ∃ row ∈ l.orders, row.planId = fill.planId
  orderEvent : ∀ row ∈ l.orders,
    row.scopeId.val ++ ":order:" ++ row.brokerOrderId.val ∈ l.eventIds
  orderScope : ∀ row ∈ l.orders, l.hasScope row.scopeId

theorem Ledger.Sound.empty : Ledger.empty.Sound :=
  ⟨by simp [Ledger.empty], by simp [Ledger.empty], by simp [Ledger.empty, Ledger.log],
    by simp [Ledger.empty, Ledger.log], by simp [Ledger.empty], by simp [Ledger.empty]⟩

section sound

variable {H : Hashes} {l l' : Ledger}

/-- A plan without an order row has no fills. -/
theorem filledQuantities_of_new (hs : l.Sound) {planId : String}
    (hnew : ∀ row ∈ l.orders, row.planId ≠ planId) (scopeId : Text) :
    filledQuantities l.log scopeId planId = 0 := by
  refine filledQuantities_eq_zero fun event he => ?_
  unfold Event.fillOf
  split
  case h_1 f hp =>
    obtain ⟨row, hrow, hid⟩ := hs.fillRow event he f hp
    exact if_neg fun h => hnew row hrow (hid.trans h.2)
  case h_2 => rfl

/-- Appending events about known plans keeps the tables in agreement. -/
theorem Ledger.Sound.append (h : l.Sound) {new : List Event} (happ : Appended l new l')
    (hnew : ∀ event ∈ new, match event.payload with
      | .brokerOrderAccepted plan _ _ => ∃ row ∈ l.orders, row.planId = plan.planId
      | .brokerFill fill => ∃ row ∈ l.orders, row.planId = fill.planId
      | _ => True) : l'.Sound := by
  refine ⟨?_, ?_, ?_, ?_, ?_, ?_⟩
  · rw [happ.orders]; exact h.planIds
  · rw [happ.orders]; exact h.brokerIds
  · intro event he plan brokerId localId hp
    rw [happ.log, List.mem_append] at he
    rw [happ.orders]
    rcases he with he | he
    · exact h.acceptedRow event he plan brokerId localId hp
    · simpa [hp] using hnew event he
  · intro event he fill hp
    rw [happ.log, List.mem_append] at he
    rw [happ.orders]
    rcases he with he | he
    · exact h.fillRow event he fill hp
    · simpa [hp] using hnew event he
  · intro row hrow
    rw [happ.orders] at hrow
    rw [Ledger.eventIds, happ.log, List.map_append, List.mem_append]
    exact .inl (h.orderEvent row hrow)
  · intro row hrow
    rw [happ.orders] at hrow
    exact happ.hasScope_iff.mpr (h.orderScope row hrow)

theorem Applies.sound {P : Notice → Prop} (h : l.Sound) (step : Applies H P l l') : l'.Sound := by
  cases step with
  | fill horder _ _ _ _ _ _ _ _ happ =>
    refine h.append happ fun event he => ?_
    rcases List.mem_cons.mp he with rfl | he
    · exact ⟨_, horder, rfl⟩
    · obtain ⟨a, _, rfl⟩ := List.mem_map.mp he
      trivial
  | status _ happ =>
    refine h.append happ fun event he => ?_
    obtain rfl := List.mem_singleton.mp he
    trivial
  | revise _ _ happ =>
    refine h.append happ fun event he => ?_
    rcases (revisionEvents_payload he).2 with ⟨a, hp, _⟩ | ⟨a, hp⟩ <;> simp [hp]
  | quiet hq happ =>
    refine h.append happ fun event he => ?_
    obtain ⟨_, _, hp⟩ := hq event he
    simp [hp]

theorem Books.sound (h : l.Sound) (step : Books H l l') : l'.Sound := by
  cases step with
  | scope horders hlog hscopes =>
    obtain ⟨h1, h1', h2, h3, h4, h5⟩ := h
    refine ⟨?_, ?_, ?_, ?_, ?_, ?_⟩ <;> rw [horders]
    · exact h1
    · exact h1'
    · rwa [hlog]
    · rwa [hlog]
    · rwa [Ledger.eventIds, hlog]
    · exact fun row hrow => hscopes _ (h5 row hrow)
  | @order plan brokerId localId now cross _ hq hside hnew hbroker hscope hcross happ =>
    have hmem : orderRow plan brokerId localId now ∈ l'.orders := by
      rw [happ.orders]; simp
    have hpl : ∀ event ∈ cross, ∀ fill, event.payload ≠ .brokerFill fill := fun event he fill hp => by
      rcases (crossEvents_payload hcross he).2 with ⟨_, hp'⟩ | ⟨_, _, _, hp'⟩ <;> simp [hp'] at hp
    have hpa : ∀ event ∈ cross, ∀ p b s, event.payload ≠ .brokerOrderAccepted p b s :=
      fun event he p b s hp => by
        rcases (crossEvents_payload hcross he).2 with ⟨_, hp'⟩ | ⟨_, _, _, hp'⟩ <;> simp [hp'] at hp
    have hold : ∀ row ∈ l.orders, row ∈ l'.orders := fun row hrow => by
      rw [happ.orders]; exact List.mem_append_left _ hrow
    have hlog : l'.log = l.log ++ (acceptedEvent plan brokerId localId now :: cross) := happ.log
    refine ⟨?_, ?_, ?_, ?_, ?_, ?_⟩
    · rw [happ.orders, List.map_append, List.nodup_append]
      refine ⟨h.planIds, by simp, fun id hid id' hid' => ?_⟩
      obtain ⟨row, hrow, rfl⟩ := List.mem_map.mp hid
      obtain rfl : id' = plan.planId := by simpa [orderRow] using hid'
      exact hnew row hrow
    · rw [happ.orders, List.map_append, List.nodup_append]
      refine ⟨h.brokerIds, by simp, fun id hid id' hid' => ?_⟩
      obtain ⟨row, hrow, rfl⟩ := List.mem_map.mp hid
      obtain rfl : id' = (plan.scopeId, brokerId) := by simpa [orderRow] using hid'
      exact fun heq => hbroker row hrow (Prod.mk.inj heq)
    · intro event he p b s hp
      rw [hlog, List.mem_append, List.mem_cons] at he
      rcases he with he | rfl | he
      · obtain ⟨row, hrow, hid⟩ := h.acceptedRow event he p b s hp
        exact ⟨row, hold row hrow, hid⟩
      · obtain ⟨rfl, rfl, rfl⟩ : plan.metadata = p ∧ brokerId = b ∧ localId = s := by
          simpa [acceptedEvent] using hp
        exact ⟨_, hmem, rfl⟩
      · exact absurd hp (hpa event he p b s)
    · intro event he fill hp
      rw [hlog, List.mem_append, List.mem_cons] at he
      rcases he with he | rfl | he
      · obtain ⟨row, hrow, hid⟩ := h.fillRow event he fill hp
        exact ⟨row, hold row hrow, hid⟩
      · simp [acceptedEvent] at hp
      · exact absurd hp (hpl event he fill)
    · intro row hrow
      rw [happ.orders, List.mem_append, List.mem_singleton] at hrow
      rw [Ledger.eventIds, hlog, List.map_append, List.mem_append]
      rcases hrow with hrow | rfl
      · exact .inl (h.orderEvent row hrow)
      · exact .inr (by simp [acceptedEvent, orderRow])
    · intro row hrow
      rw [happ.orders, List.mem_append, List.mem_singleton] at hrow
      rcases hrow with hrow | rfl
      · exact happ.hasScope_iff.mpr (h.orderScope row hrow)
      · exact happ.hasScope_iff.mpr hscope
  | cross _ hcross happ =>
    refine h.append happ fun event he => ?_
    rcases (crossEvents_payload hcross he).2 with ⟨_, hp⟩ | ⟨_, _, _, hp⟩ <;> simp [hp]
  | applies step => exact step.sound h

end sound

/-! ## Reading a call back -/

section calls

variable {H : Hashes} {l l' : Ledger}

theorem registerScope_eq_ok {scopeId portfolioId portfolioHash accountId : String}
    (h : registerScope l scopeId portfolioId portfolioHash accountId = .ok l') :
    l'.orders = l.orders ∧ l'.log = l.log ∧ ∀ s, l.hasScope s → l'.hasScope s := by
  simp only [registerScope, bind_eq_ok] at h
  obtain ⟨scopeId, _, portfolioId, _, portfolioHash, _, accountId, _, h⟩ := h
  split at h
  · obtain rfl := pure_eq_ok.mp h
    refine ⟨rfl, rfl, fun s hscope => ?_⟩
    obtain ⟨row, hrow, hs⟩ := hscope
    exact ⟨row, List.mem_append_left _ hrow, hs⟩
  · simp only [bind_eq_ok, pure_eq_ok] at h
    obtain ⟨_, _, _, _, _, _, rfl⟩ := h
    exact ⟨rfl, rfl, fun _ hs => hs⟩

/-- What `record_accepted_order` did. -/
structure Accepted (H : Hashes) (l : Ledger) (plan : SymbolNetPlan) (brokerOrderId : String)
    (localOrderId : String) (l' : Ledger) (created : Bool) (brokerId : Text) (now : ℤ)
    (cross : List Event) : Prop where
  quantity : 0 < plan.quantity
  side : plan.side ≠ .none
  broker : text brokerOrderId "broker_order_id" = .ok brokerId
  crossed : internalCrossEvents plan now = .ok cross
  new : created = true → (∀ row ∈ l.orders, row.planId ≠ plan.planId) ∧
    (∀ row ∈ l.orders, ¬ (row.scopeId = plan.scopeId ∧ row.brokerOrderId = brokerId)) ∧
    l.hasScope plan.scopeId ∧
    Appended { l with orders := l.orders ++ [orderRow plan brokerId (strip localOrderId) now] }
      (acceptedEvent plan brokerId (strip localOrderId) now :: cross) l'
  replay : created = false →
    orderRow plan brokerId (strip localOrderId) now ∈ l.orders ∧ l' = l

theorem recordAcceptedOrder_eq_ok (hs : l.Sound) {plan : SymbolNetPlan}
    {brokerOrderId localOrderId : String} {time : RawTime} {created : Bool}
    (h : recordAcceptedOrder H l plan brokerOrderId localOrderId time = .ok (l', created)) :
    ∃ brokerId now cross,
      Accepted H l plan brokerOrderId localOrderId l' created brokerId now cross := by
  simp only [recordAcceptedOrder, bind_eq_ok, require_eq_ok] at h
  obtain ⟨_, ⟨hq, hside⟩, brokerId, hbroker, now, _, h⟩ := h
  split at h
  case h_1 hnone =>
    simp only [bind_eq_ok, require_eq_ok, pure_eq_ok, Prod.mk.injEq] at h
    obtain ⟨_, hids, _, hscope, cross, hcross, ⟨l'', written⟩, happ, rfl, rfl⟩ := h
    have hnew : ∀ row ∈ l.orders, row.planId ≠ plan.planId := by
      simpa using List.find?_eq_none.mp hnone
    refine ⟨brokerId, now, cross, hq, hside, hbroker, hcross,
      fun _ => ⟨hnew, hids, hscope, ?_⟩, by simp⟩
    rcases appendEvents_eq_ok happ with ⟨_, _, hall⟩ | ⟨_, _, happ, _⟩
    · -- a stored acceptance event of the plan would come with an order row
      have hstored := hall _ List.mem_cons_self
      obtain ⟨hmem, _⟩ := mem_log_of_stored hstored
      obtain ⟨row, hrow, hid⟩ := hs.acceptedRow _ hmem _ _ _ rfl
      exact absurd hid (hnew row hrow)
    · exact happ
  case h_2 row hrow =>
    simp only [bind_eq_ok, require_eq_ok, pure_eq_ok, Prod.mk.injEq] at h
    obtain ⟨_, hrow', cross, hcross, ⟨l'', written⟩, happ, rfl, rfl⟩ := h
    have hmem : orderRow plan brokerId (strip localOrderId) row.acceptedAt ∈ l.orders :=
      hrow' ▸ List.mem_of_find?_eq_some hrow
    refine ⟨brokerId, row.acceptedAt, cross, hq, hside, hbroker, hcross, by simp, fun _ => ⟨hmem, ?_⟩⟩
    rcases appendEvents_eq_ok happ with ⟨_, rfl, _⟩ | ⟨_, _, _, _, hfresh⟩
    · rfl
    · exact absurd (hs.orderEvent _ hmem) (hfresh _ (by simp [acceptedEvent, orderRow]))

theorem recordInternalCross_eq_ok {plan : SymbolNetPlan} {price : Raw} {time : RawTime} {n : ℕ}
    (h : recordInternalCross H l plan price time = .ok (l', n)) :
    plan.internalOnly ∧ ∃ now cross, internalCrossEvents plan now = .ok cross ∧
      (l' = l ∨ n ≠ 0 ∧ Appended l cross l') := by
  simp only [recordInternalCross, bind_eq_ok, require_eq_ok] at h
  obtain ⟨_, hplan, _, _, _, _, _, _, now, _, cross, hcross, happ⟩ := h
  refine ⟨hplan, now, cross, hcross, ?_⟩
  rcases appendEvents_eq_ok happ with ⟨_, rfl, _⟩ | ⟨hn, hne, happ, _⟩
  · exact .inl rfl
  · exact .inr ⟨by rw [hn]; simpa using hne, happ⟩

theorem reconcileRestart_eq_ok {scopeId : String} {brokerHoldings : List (String × Raw)}
    {managedSymbols : List String} {persist : Bool} {time : RawTime}
    {result : PortfolioReconciliation}
    (h : reconcileRestart H l scopeId brokerHoldings managedSymbols persist time =
      .ok (l', result)) : ∃ events, Quiet events ∧ Appended l events l' := by
  have hskip : ∃ events, Quiet events ∧ Appended l events l := ⟨[], by simp [Quiet], .refl l⟩
  simp only [reconcileRestart, bind_eq_ok] at h
  obtain ⟨_, _, _, _, _, _, _, _, _, _, _, _, h⟩ := h
  split_ifs at h
  · simp only [bind_eq_ok, pure_eq_ok, Prod.mk.injEq] at h
    obtain ⟨⟨l'', _⟩, happ, rfl, _⟩ := h
    rcases appendEvents_eq_ok happ with ⟨_, rfl, _⟩ | ⟨_, _, happ, _⟩
    · exact hskip
    · exact ⟨_, by simp [Quiet], happ⟩
  · obtain ⟨rfl, _⟩ : l = l' ∧ _ := by simpa using h
    exact hskip

/-! ### The execution loop -/

variable {P : Notice → Prop}

/-- What the loop keeps: the orders, and the cache of filled quantities. -/
structure SyncInv (l : Ledger) (scopeId : Text) (sync : Sync) : Prop where
  orders : sync.ledger.orders = l.orders
  filled : ∀ planId, sync.filled planId = filledQuantities sync.ledger.log scopeId planId

theorem SyncInv.append {scopeId : Text} {sync sync' : Sync} {new : List Event}
    (hinv : SyncInv l scopeId sync) (happ : Appended sync.ledger new sync'.ledger)
    (hfilled : ∀ planId, sync'.filled planId =
      sync.filled planId + filledQuantities new scopeId planId) : SyncInv l scopeId sync' :=
  ⟨happ.orders.trans hinv.orders, fun planId => by
    rw [hfilled, hinv.filled, happ.log, filledQuantities_append]⟩

theorem reviseFee_applies {scopeId : Text} {order : OrderRow} {n : Notice} {payload : Payload}
    {sync sync' : Sync} (hinv : SyncInv l scopeId sync) (horder : order ∈ l.orders)
    (hscope : order.scopeId = scopeId)
    (hstored : fillId scopeId n.sourceEventId ∈ sync.ledger.eventIds)
    (h : reviseFee H scopeId order n payload sync = .ok sync') :
    Applies H P sync.ledger sync'.ledger ∧ SyncInv l scopeId sync' := by
  subst hscope
  have hskip : Applies H P sync.ledger sync.ledger := .quiet (by simp [Quiet]) (.refl _)
  simp only [reviseFee, bind_eq_ok] at h
  obtain ⟨stored, _, _, _, _, _, h⟩ := h
  split_ifs at h
  · obtain rfl := pure_eq_ok.mp h
    exact ⟨hskip, hinv⟩
  · obtain rfl := pure_eq_ok.mp h
    exact ⟨hskip, hinv⟩
  · simp only [bind_eq_ok, pure_eq_ok] at h
    obtain ⟨shares, _, _, _, deltas, _, ⟨ledger, written⟩, happ, rfl⟩ := h
    rcases appendEvents_eq_ok happ with ⟨_, rfl, _⟩ | ⟨_, _, happ, _⟩
    · exact ⟨hskip, hinv.orders, hinv.filled⟩
    · refine ⟨.revise (hinv.orders ▸ horder) hstored happ, hinv.append happ fun planId => ?_⟩
      rw [neutral_revisionEvents.filled, add_zero]

theorem bookFill_applies {scopeId : Text} {order : OrderRow} {n : Notice} {sync sync' : Sync}
    (hinv : SyncInv l scopeId sync) (horder : order ∈ l.orders) (hscope : order.scopeId = scopeId)
    (hP : P n) (hsym : n.symbol = order.symbol) (hq : 0 < n.quantity) (hfee : 0 ≤ n.fee)
    (hnone : sync.ledger.stored (fillId scopeId n.sourceEventId) = none)
    (h : bookFill H scopeId order n sync = .ok sync') :
    Applies H P sync.ledger sync'.ledger ∧ SyncInv l scopeId sync' := by
  subst hscope
  simp only [bookFill, bind_eq_ok, require_eq_ok, rowAllocations, pure_eq_ok] at h
  obtain ⟨_, _, _, hle, _, ⟨_, _, _, _, _, _, rfl⟩, active, hactive, fees, hfees,
    ⟨ledger, written⟩, happ, h⟩ := h
  rw [hinv.filled] at hle hactive
  rcases appendEvents_eq_ok happ with ⟨_, _, hall⟩ | ⟨hn, hne, happ, _⟩
  · -- the lead event of the group is not stored
    have := hall _ List.mem_cons_self
    rw [show (brokerFillEvent order.scopeId order n _).eventId =
      fillId order.scopeId n.sourceEventId from rfl, hnone] at this
    cases this
  · rw [if_pos (by rw [hn]; simp [fillEvents])] at h
    obtain rfl := pure_eq_ok.mp h
    refine ⟨.fill (hinv.orders ▸ horder) hP hsym hq hfee (stored_eq_none.mp hnone) hle hactive hfees happ,
      hinv.append happ fun planId => ?_⟩
    rw [filled_fillEvents]
    by_cases hp : order.planId = planId
    · subst hp; simp
    · simp [Function.update_of_ne (Ne.symm hp), hp]

theorem bookStatus_applies {scopeId : Text} {order : OrderRow} {n : Notice} {sync sync' : Sync}
    (hinv : SyncInv l scopeId sync) (horder : order ∈ l.orders) (hscope : order.scopeId = scopeId)
    (h : bookStatus H scopeId order n sync = .ok sync') :
    Applies H P sync.ledger sync'.ledger ∧ SyncInv l scopeId sync' := by
  have hskip : Applies H P sync.ledger sync.ledger := .quiet (by simp [Quiet]) (.refl _)
  subst hscope
  unfold bookStatus at h
  split_ifs at h
  · simp only [bind_eq_ok, pure_eq_ok] at h
    obtain ⟨⟨ledger, written⟩, happ, rfl⟩ := h
    rcases appendEvents_eq_ok happ with ⟨_, rfl, _⟩ | ⟨_, _, happ, _⟩
    · exact ⟨hskip, hinv.orders, hinv.filled⟩
    · exact ⟨.status (hinv.orders ▸ horder) happ, hinv.append happ fun planId => rfl⟩
  · obtain rfl := (Except.ok.inj h).symm
    exact ⟨hskip, hinv⟩

theorem readNotice_symbol {row : Collected} {n : Notice} (h : readNotice row = .ok n) :
    n.symbol = row.order.symbol := by
  simp only [readNotice, bind_eq_ok, require_eq_ok, pure_eq_ok] at h
  obtain ⟨_, _, symbol, _, _, hsym, _, _, _, _, _, _, _, _, rfl⟩ := h
  exact hsym

theorem readNotice_fee {row : Collected} {n : Notice} (h : readNotice row = .ok n) : 0 ≤ n.fee := by
  simp only [readNotice, bind_eq_ok, pure_eq_ok] at h
  obtain ⟨_, _, _, _, _, _, _, _, _, _, _, _, fee, hfee, rfl⟩ := h
  unfold decimal at hfee
  split at hfee
  · simp only [bind_eq_ok, require_eq_ok, pure_eq_ok] at hfee
    obtain ⟨_, hmin, rfl⟩ := hfee
    exact hmin 0 rfl
  · cases hfee

theorem applyRow_applies {scopeId : Text} {row : Collected} {sync sync' : Sync}
    (hinv : SyncInv l scopeId sync) (horder : row.order ∈ l.orders)
    (hscope : row.order.scopeId = scopeId) (hP : ∀ n, readNotice row = .ok n → P n)
    (h : applyRow H scopeId sync row = .ok sync') :
    Relation.ReflTransGen (Applies H P) sync.ledger sync'.ledger ∧ SyncInv l scopeId sync' := by
  simp only [applyRow, bind_eq_ok] at h
  obtain ⟨n, hn, h⟩ := h
  split_ifs at h with hq
  · split at h
    case h_1 stored hstored =>
      have hmem : fillId scopeId n.sourceEventId ∈ sync.ledger.eventIds := by
        by_contra hnot
        rw [stored_eq_none.mpr hnot] at hstored
        cases hstored
      exact (reviseFee_applies hinv horder hscope hmem h).imp_left .single
    case h_2 hnone =>
      obtain ⟨mid, hmid, h⟩ := bind_eq_ok.mp h
      obtain ⟨step1, hinv1⟩ :=
        bookFill_applies hinv horder hscope (hP n hn) (readNotice_symbol hn) hq (readNotice_fee hn)
          hnone hmid
      obtain ⟨step2, hinv2⟩ := bookStatus_applies hinv1 horder hscope h
      exact ⟨.tail (.single step1) step2, hinv2⟩
  · exact (bookStatus_applies hinv horder hscope h).imp_left .single

theorem applyRows_applies {scopeId : Text} {rows : List Collected} {sync sync' : Sync}
    (hinv : SyncInv l scopeId sync)
    (hrows : ∀ row ∈ rows, row.order ∈ l.orders ∧ row.order.scopeId = scopeId ∧
      ∀ n, readNotice row = .ok n → P n)
    (h : rows.foldlM (applyRow H scopeId) sync = .ok sync') :
    Relation.ReflTransGen (Applies H P) sync.ledger sync'.ledger := by
  induction rows generalizing sync with
  | nil =>
    obtain rfl := pure_eq_ok.mp h
    exact .refl
  | cons row rows ih =>
    rw [List.foldlM_cons] at h
    obtain ⟨mid, hmid, h⟩ := bind_eq_ok.mp h
    obtain ⟨horder, hscope, hP⟩ := hrows row List.mem_cons_self
    obtain ⟨steps, hinv'⟩ := applyRow_applies hinv horder hscope hP hmid
    exact steps.trans (ih hinv' (fun r hr => hrows r (List.mem_cons_of_mem _ hr)) h)

theorem collectRow_eq_ok {scopeId : Text} {event : ExecutionEvent} {row : Collected}
    (h : collectRow l scopeId event = .ok (some row)) :
    row.order ∈ l.orders ∧ row.order.scopeId = scopeId ∧ row.event = event := by
  unfold collectRow at h
  split_ifs at h
  · simp at h
  · split at h
    · simp at h
    · simp only [bind_eq_ok, pure_eq_ok, Option.some.injEq] at h
      next order horder =>
        obtain ⟨_, _, rfl⟩ := h
        have := List.find?_some horder
        simp only [decide_eq_true_eq] at this
        exact ⟨List.mem_of_find?_eq_some horder, this.1, rfl⟩

theorem mem_collected {scopeId : Text} {events : List ExecutionEvent}
    {collected : List (Option Collected)} (h : events.mapM (collectRow l scopeId) = .ok collected)
    {row : Collected} (hrow : row ∈ (collected.filterMap id).insertionSort collectedLe) :
    row.order ∈ l.orders ∧ row.order.scopeId = scopeId ∧ row.event ∈ events := by
  rw [List.mem_insertionSort, List.mem_filterMap] at hrow
  obtain ⟨o, ho, rfl⟩ := hrow
  obtain ⟨event, hmem, he⟩ := exists_of_mem_mapM h ho
  obtain ⟨horder, hscope, rfl⟩ := collectRow_eq_ok he
  exact ⟨horder, hscope, hmem⟩

/-- **A batch is a run of groups**, and books fills that its events report. -/
theorem applyExecutionEvents_applies {scopeId : String} {events : List ExecutionEvent}
    {report : ExecutionSyncReport}
    (hP : ∀ row : Collected, row.event ∈ events → ∀ n, readNotice row = .ok n → P n)
    (h : applyExecutionEvents H l scopeId events = .ok (l', report)) :
    Relation.ReflTransGen (Applies H P) l l' := by
  simp only [applyExecutionEvents, bind_eq_ok, pure_eq_ok, Prod.mk.injEq] at h
  obtain ⟨scopeId, _, collected, hcol, sync, hsync, rfl, _⟩ := h
  refine applyRows_applies ⟨rfl, fun _ => rfl⟩ (fun row hrow => ?_) hsync
  obtain ⟨horder, hscope, hmem⟩ := mem_collected hcol hrow
  exact ⟨horder, hscope, hP row hmem⟩

/-- **Every call is a run of committed groups.** -/
theorem Op.books (hs : l.Sound) (h : Op H l l') : Relation.ReflTransGen (Books H) l l' := by
  cases h with
  | registerScope h =>
    obtain ⟨horders, hlog, hscopes⟩ := registerScope_eq_ok h
    exact .single (.scope horders hlog hscopes)
  | @accept plan brokerOrderId localOrderId time _ created h =>
    obtain ⟨brokerId, now, cross, h⟩ := recordAcceptedOrder_eq_ok hs h
    cases created with
    | true =>
      obtain ⟨hnew, hids, hscope, happ⟩ := h.new rfl
      exact .single (.order h.quantity h.side hnew hids hscope h.crossed happ)
    | false => rw [(h.replay rfl).2]
  | cross h =>
    obtain ⟨hplan, now, cross, hcross, rfl | ⟨_, happ⟩⟩ := recordInternalCross_eq_ok h
    · exact .refl
    · exact .single (.cross hplan hcross happ)
  | apply h =>
    exact (applyExecutionEvents_applies (fun _ _ _ _ => trivial) h).lift id fun _ _ => .applies
  | reconcile h =>
    obtain ⟨events, hq, happ⟩ := reconcileRestart_eq_ok h
    exact .single (.applies (.quiet hq happ))

end calls

theorem books_sound {H : Hashes} {l l' : Ledger} (h : l.Sound)
    (steps : Relation.ReflTransGen (Books H) l l') : l'.Sound := by
  induction steps with
  | refl => exact h
  | tail _ step ih => exact step.sound ih

/-- A reachable ledger is built by committed groups. -/
theorem Reachable.books {H : Hashes} {l : Ledger} (h : Reachable H l) :
    Relation.ReflTransGen (Books H) Ledger.empty l := by
  induction h with
  | refl => exact .refl
  | tail _ op ih => exact ih.trans (op.books (books_sound .empty ih))

/-- The tables of every reachable ledger agree. -/
theorem Reachable.sound {H : Hashes} {l : Ledger} (h : Reachable H l) : l.Sound :=
  books_sound .empty h.books

/-- What every committed group keeps holds in every reachable ledger. -/
theorem Reachable.books_induction {H : Hashes} {P : Ledger → Prop} (h0 : P Ledger.empty)
    (hstep : ∀ {l l' : Ledger}, l.Sound → Books H l l' → P l → P l') {l : Ledger}
    (h : Reachable H l) : P l := by
  have hsteps := h.books
  clear h
  have : l.Sound ∧ P l := by
    induction hsteps with
    | refl => exact ⟨.empty, h0⟩
    | tail _ step ih => exact ⟨step.sound ih.1, hstep ih.1 step ih.2⟩
  exact this.2

end LiveTrader.Portfolio
