/-
# `Portfolio.Guarded` — guarded operation of the sleeve ledger

`validatePortfolioExecutionDispatch` re-reads the ledger right before an order is
posted.  A run is guarded when every order is accepted, and every zero-net plan
recorded, in a ledger where those checks hold, and no fill of an order comes
after its terminal event (`Timely`).  Which sleeves a plan covers is checked in
the source as well, and not needed below.

In a guarded run no prefix of the log leaves a sleeve short.  The internal cross
of an order is booked before its external part fills, so between the two a
sleeve stands at `base + cross + share`; both parts point from the sleeve's
current quantity to its target, and `Backed` keeps that sum for the one order of
a scope that may be pending (`guarded_never_short`).

Whole-share counts are exact integers here and below 10^28 in every plan: up to
there they are the decimals of the source.
-/
import LiveTrader.Portfolio.Holdings
import LiveTrader.Portfolio.FillRuns

namespace LiveTrader.Portfolio

open Lib.Py Lib.Decimal

/-! ## The dispatch check -/

/-- The fields of a runtime spec that the check reads. -/
structure RuntimeSpec where
  strategyInstanceId : String
  symbol : String
  portfolioId : String
  portfolioHash : String
  deriving DecidableEq

/-- The controller's side of the check. -/
structure PortfolioRuntime where
  scopeId : String
  portfolioId : String
  specs : List RuntimeSpec
  managedSymbols : List String
  deriving DecidableEq

/-- The fields of an order intent that the check reads. -/
structure PortfolioIntent where
  symbol : String
  side : String
  quantity : ℚ
  deriving DecidableEq

/-- `latest != delta.current_quantity` for no delta of the plan. -/
def BaseHolds (plan : SymbolNetPlan) (sleeves : Dict (String × String) ℤ) : Prop :=
  ∀ d ∈ plan.deltas, sleeves.get (d.sleeveId.val, plan.symbol.val) 0 = d.currentQuantity

instance (plan : SymbolNetPlan) (sleeves : Dict (String × String) ℤ) :
    Decidable (BaseHolds plan sleeves) := by
  unfold BaseHolds; infer_instance

/-- `validate_portfolio_execution_dispatch`, after its synchronisation of the
ledger with the broker. -/
def validatePortfolioExecutionDispatch (H : Hashes) (runtime : PortfolioRuntime)
    (plan : SymbolNetPlan) (intent : PortfolioIntent) (freshHoldings : Dict String ℕ)
    (time : RawTime) (l : Ledger) : Result Unit := do
  require (plan.scopeId.val = runtime.scopeId)
    (.value "portfolio execution scope does not match runtime")
  require (plan.portfolioId.val = runtime.portfolioId)
    (.value "portfolio execution artifact id does not match runtime")
  require (plan.side.text = upper (strip intent.side))
    (.value "portfolio execution side does not match intent")
  require ((plan.quantity : ℚ) = intent.quantity)
    (.value "portfolio execution quantity does not match intent")
  let symbol ← canonicalKisSymbol intent.symbol
  require (plan.symbol = symbol) (.value "portfolio execution symbol does not match intent")
  let symbolSpecs ← runtime.specs.filterM fun spec => do
    let specSymbol ← canonicalKisSymbol spec.symbol
    pure (decide (specSymbol = plan.symbol))
  let expectedSleeves := symbolSpecs.map (·.strategyInstanceId)
  require (expectedSleeves ≠ [] ∧ (∀ d ∈ plan.deltas, d.sleeveId.val ∈ expectedSleeves) ∧
      ∀ s ∈ expectedSleeves, s ∈ plan.deltas.map (·.sleeveId.val))
    (.value "portfolio execution does not bind every runtime sleeve for symbol")
  require (∀ spec ∈ symbolSpecs, lower (strip spec.portfolioHash) = plan.portfolioHash ∧
      strip spec.portfolioId = plan.portfolioId.val)
    (.value "portfolio execution lineage does not match runtime")
  let pending := pendingOrders l plan.scopeId
  require (pending = []) (.value ("portfolio has unresolved broker orders: " ++
    String.intercalate "," ((pending.take 5).map (·.val))))
  let (_, reconciliation) ← reconcileRestart H l plan.scopeId.val
    (freshHoldings.map fun (symbol, quantity) => (symbol, Raw.number quantity))
    runtime.managedSymbols false time
  require (reconciliation.ready = true) (.value (
    if reconciliation.externalHoldings ≠ [] then "dedicated KIS account has external holdings"
    else if reconciliation.mismatches ≠ [] then "fresh KIS holdings do not match sleeve ledger"
    else "portfolio reconciliation is not ready"))
  let sleeves ← sleeveHoldings l plan.scopeId
  require (BaseHolds plan sleeves)
    (.value "portfolio plan base sleeve position changed before POST")
  require (¬ (plan.side = .sell ∧ freshHoldings.get plan.symbol.val 0 < plan.quantity))
    (.value "fresh KIS holding is insufficient for portfolio sell")

/-- What the check says about the ledger. -/
def Dispatchable (l : Ledger) (plan : SymbolNetPlan) : Prop :=
  pendingOrders l plan.scopeId = [] ∧
    ∃ sleeves, sleeveHoldings l plan.scopeId = .ok sleeves ∧ BaseHolds plan sleeves

instance (l : Ledger) (plan : SymbolNetPlan) : Decidable (Dispatchable l plan) := by
  unfold Dispatchable; infer_instance

theorem validatePortfolioExecutionDispatch_ok {H : Hashes} {runtime : PortfolioRuntime}
    {plan : SymbolNetPlan} {intent : PortfolioIntent} {freshHoldings : Dict String ℕ}
    {time : RawTime} {l : Ledger}
    (h : validatePortfolioExecutionDispatch H runtime plan intent freshHoldings time l = .ok ()) :
    Dispatchable l plan := by
  simp only [validatePortfolioExecutionDispatch, bind_eq_ok, require_eq_ok] at h
  obtain ⟨_, _, _, _, _, _, _, _, _, _, _, _, _, _, _, _, _, _, _, hpending, _, _, _, _, sleeves,
    hsleeves, _, hbase, _⟩ := h
  exact ⟨hpending, sleeves, hsleeves, hbase⟩

/-- The same base check for a zero-net plan; an order pending on another symbol
does not disturb it. -/
def Crossable (l : Ledger) (plan : SymbolNetPlan) : Prop :=
  (∀ order ∈ l.orders, order.scopeId = plan.scopeId → order.symbol = plan.symbol →
    ¬ order.pending l.log) ∧
    ∃ sleeves, sleeveHoldings l plan.scopeId = .ok sleeves ∧ BaseHolds plan sleeves

/-! ## Guarded runs -/

/-- A fill of an order that has ended. -/
def LateFill (before : List Event) (event : Event) : Prop :=
  match event.payload with
  | .brokerFill f => isTerminal before event.scopeId f.planId
  | _ => False

instance (before : List Event) : ∀ event : Event, Decidable (LateFill before event)
  | ⟨_, scopeId, _, _, .brokerFill f, _⟩ => inferInstanceAs (Decidable (isTerminal before scopeId f.planId))
  | ⟨_, _, _, _, .brokerOrderAccepted .., _⟩ => instDecidableFalse
  | ⟨_, _, _, _, .internalCross .., _⟩ => instDecidableFalse
  | ⟨_, _, _, _, .sleeveInternalCross .., _⟩ => instDecidableFalse
  | ⟨_, _, _, _, .sleeveFill .., _⟩ => instDecidableFalse
  | ⟨_, _, _, _, .feeAdjustment .., _⟩ => instDecidableFalse
  | ⟨_, _, _, _, .sleeveFeeAdjustment .., _⟩ => instDecidableFalse
  | ⟨_, _, _, _, .brokerOrderTerminal .., _⟩ => instDecidableFalse
  | ⟨_, _, _, _, .restartReconciliation .., _⟩ => instDecidableFalse

/-- No fill of an order comes after its terminal event. -/
def Timely (log : List Event) : Prop := ∀ i, ∀ h : i < log.length, ¬ LateFill (log.take i) log[i]

instance (log : List Event) : Decidable (Timely log) := by unfold Timely; infer_instance

/-- The plan comes from `build_symbol_net_plan`. -/
def Built (H : Hashes) (plan : SymbolNetPlan) : Prop :=
  ∃ scopeId portfolioId portfolioHash targets currentPositions brokerQuantity referencePrice,
    buildSymbolNetPlan H.plan scopeId portfolioId portfolioHash targets currentPositions
      brokerQuantity referencePrice = .ok plan

/-- One successful call of guarded operation.  A call that only repeats a stored
plan writes nothing and needs no check. -/
inductive Guarded (H : Hashes) (l : Ledger) : Ledger → Prop
  | registerScope {scopeId portfolioId portfolioHash accountId : String} {l' : Ledger} :
      registerScope l scopeId portfolioId portfolioHash accountId = .ok l' → Guarded H l l'
  | accept {plan : SymbolNetPlan} {brokerOrderId localOrderId : String} {time : RawTime}
      {l' : Ledger} {created : Bool} : Built H plan → plan.quantity < 10 ^ 28 →
      (created = true → Dispatchable l plan) →
      recordAcceptedOrder H l plan brokerOrderId localOrderId time = .ok (l', created) →
      Guarded H l l'
  | cross {plan : SymbolNetPlan} {price : Raw} {time : RawTime} {l' : Ledger} {n : ℕ} :
      Built H plan → (n ≠ 0 → Crossable l plan) →
      recordInternalCross H l plan price time = .ok (l', n) → Guarded H l l'
  | apply {scopeId : String} {events : List ExecutionEvent} {l' : Ledger}
      {report : ExecutionSyncReport} : Timely l'.log →
      applyExecutionEvents H l scopeId events = .ok (l', report) → Guarded H l l'
  | reconcile {scopeId : String} {brokerHoldings : List (String × Raw)}
      {managedSymbols : List String} {persist : Bool} {time : RawTime} {l' : Ledger}
      {result : PortfolioReconciliation} :
      reconcileRestart H l scopeId brokerHoldings managedSymbols persist time = .ok (l', result) →
      Guarded H l l'

theorem Guarded.op {H : Hashes} {l l' : Ledger} (h : Guarded H l l') : Op H l l' := by
  cases h with
  | registerScope h => exact .registerScope h
  | accept _ _ _ h => exact .accept h
  | cross _ _ h => exact .cross h
  | apply _ h => exact .apply h
  | reconcile h => exact .reconcile h

/-! ## Pending orders -/

section pending

variable {log new : List Event} {order : OrderRow}

theorem isTerminal_append {scopeId : Text} {planId : String} (h : isTerminal log scopeId planId) :
    isTerminal (log ++ new) scopeId planId :=
  h.imp fun _ he => ⟨List.mem_append_left _ he.1, he.2⟩

/-- An order that is pending later was pending before. -/
theorem pending_of_append (h : order.pending (log ++ new)) : order.pending log := by
  obtain ⟨hfilled, hterm⟩ := h
  rw [filledQuantities_append] at hfilled
  exact ⟨by omega, fun ht => hterm (isTerminal_append ht)⟩

theorem Timely.of_append (h : Timely (log ++ new)) : Timely log := by
  intro i hi hlate
  refine h i (by rw [List.length_append]; omega) ?_
  rwa [List.take_append_of_le_length hi.le, List.getElem_append_left hi]

theorem Timely.not_late {event : Event} (h : Timely (log ++ event :: new)) : ¬ LateFill log event := by
  have := h log.length (by simp)
  simpa using this

theorem not_pending_of_nil {l : Ledger} {scopeId : Text} (h : pendingOrders l scopeId = [])
    (horder : order ∈ l.orders) (hs : order.scopeId = scopeId) : ¬ order.pending l.log := by
  intro hp
  have hmem : order.brokerOrderId ∈ pendingOrders l scopeId := by
    refine List.mem_map_of_mem (List.mem_filter.mpr ⟨List.mem_filter.mpr ⟨horder, ?_⟩, ?_⟩)
    · simpa using hs
    · simpa using hp
  rw [h] at hmem
  cases hmem

end pending

/-! ## Sums of broker fills -/

/-- What a broker fill adds to the account's holding of a symbol. -/
def Event.brokerHolding (scopeId : Text) (symbol : String) (event : Event) : ℤ :=
  match event.payload with
  | .brokerFill f =>
      if event.scopeId = scopeId ∧ event.symbol = symbol then f.brokerQuantity * f.side.sign else 0
  | _ => 0

/-- All broker fills of a symbol. -/
def brokerNet (log : List Event) (scopeId : Text) (symbol : String) : ℤ :=
  (log.map (Event.brokerHolding scopeId symbol)).sum

section broker

variable {log log' : List Event} {scopeId : Text} {symbol : String}

theorem brokerNet_append : brokerNet (log ++ log') scopeId symbol =
    brokerNet log scopeId symbol + brokerNet log' scopeId symbol := by
  simp [brokerNet]

theorem brokerNet_eq_zero (h : ∀ event ∈ log, ∀ fill, event.payload ≠ .brokerFill fill) :
    brokerNet log scopeId symbol = 0 := by
  refine List.sum_eq_zero fun x hx => ?_
  obtain ⟨event, he, rfl⟩ := List.mem_map.mp hx
  unfold Event.brokerHolding
  split
  case h_1 f hp => exact absurd hp (h event he f)
  case h_2 => rfl

theorem brokerNet_fill {order : OrderRow} {n : Notice} {active : List SleeveAllocation}
    {fees : List ℚ} : brokerNet (fillEvents order.scopeId order n active fees) scopeId symbol =
      if order.scopeId = scopeId ∧ n.symbol.val = symbol then n.quantity * order.side.sign else 0 := by
  have htail : ∀ event ∈ (fillAllocations active n.price fees).map
      (sleeveFillEvent order.scopeId order n), ∀ fill, event.payload ≠ .brokerFill fill := by
    intro event he fill hp
    obtain ⟨a, _, rfl⟩ := List.mem_map.mp he
    cases hp
  rw [fillEvents, ← List.singleton_append, brokerNet_append, brokerNet_eq_zero htail, add_zero]
  simp [brokerNet, Event.brokerHolding, brokerFillEvent]

end broker

/-! ## The invariant -/

/-- A sleeve on the way from its current quantity to its target is not short. -/
theorem PlanSound.stays_long {plan : PlanPayload} (h : PlanSound plan) {base : String → ℤ}
    (share : String → ℤ)
    (hbase : ∀ d ∈ plan.deltas, base d.sleeveId.val = d.currentQuantity)
    (hnonneg : ∀ s, 0 ≤ base s)
    (hshare : ∀ s : Text, (0 ≤ share s.val ∧ share s.val ≤ sleeveQuantity plan.allocations s.val) ∨
      (sleeveQuantity plan.allocations s.val ≤ share s.val ∧ share s.val ≤ 0))
    (hother : ∀ s, (∀ d ∈ plan.deltas, d.sleeveId.val ≠ s) → share s = 0) (sleeveId : String) :
    0 ≤ base sleeveId + sleeveQuantity plan.internalAllocations sleeveId + share sleeveId := by
  by_cases hd : ∃ d ∈ plan.deltas, d.sleeveId.val = sleeveId
  · obtain ⟨d, hd, rfl⟩ := hd
    have hb := hbase d hd
    have hn := hnonneg d.sleeveId.val
    have hs := hshare d.sleeveId
    have htotal := h.sleeve_total hd
    have hin := internalCross_bounds h.keys hd
    have hout := residual_bounds h.keys hd
    rw [h.sleeve_external hd] at hs htotal
    rw [h.sleeve_internal hd] at htotal ⊢
    have htarget : (0 : ℤ) ≤ d.targetQuantity := by positivity
    omega
  · simp only [not_exists, not_and] at hd
    have hnone : ∀ part : SleeveDelta → ℤ,
        sleeveQuantity (allocationsOf plan.deltas part) sleeveId = 0 := by
      intro part
      refine List.sum_eq_zero fun x hx => ?_
      obtain ⟨a, ha, rfl⟩ := List.mem_map.mp hx
      obtain ⟨d, hmem, _, rfl⟩ := mem_allocationsOf.mp ha
      exact if_neg (hd d hmem)
    rw [h.internal, hnone, hother sleeveId hd]
    simpa using hnonneg sleeveId

/-- The plan behind an order row, and the holdings it was built on. -/
structure Backing (order : OrderRow) (plan : PlanPayload) (base : String → ℤ) : Prop where
  sound : PlanSound plan
  pos : plan.quantity ≠ 0
  small : plan.quantity < 10 ^ 28
  side : order.side = plan.side
  allocations : order.allocations = plan.allocations
  current : ∀ d ∈ plan.deltas, base d.sleeveId.val = d.currentQuantity
  nonneg : ∀ s, 0 ≤ base s

/-- The sleeves stand where the plan's cross and the fills so far have put them. -/
def Backed (order : OrderRow) (log : List Event) : Prop :=
  ∃ plan base, Backing order plan base ∧ ∀ sleeveId,
    held log order.scopeId sleeveId order.symbol.val =
      base sleeveId + sleeveQuantity plan.internalAllocations sleeveId +
        shareAt order.allocations order.side
          (filledQuantities log order.scopeId order.planId) sleeveId

/-- Wherever the fills stand, no sleeve of a backed order is short. -/
theorem Backing.stays_long {order : OrderRow} {plan : PlanPayload} {base : String → ℤ}
    (h : Backing order plan base) (filled : ℕ) (sleeveId : String) :
    0 ≤ base sleeveId + sleeveQuantity plan.internalAllocations sleeveId +
      shareAt order.allocations order.side filled sleeveId := by
  rw [h.allocations, h.side]
  cases hshares : sharesAt plan.allocations plan.side filled with
  | error e =>
    have hzero : ∀ s, shareAt plan.allocations plan.side filled s = 0 := fun s => by
      simp only [shareAt, hshares]
    refine h.sound.stays_long _ h.current h.nonneg (fun s => ?_) (fun s _ => hzero s) sleeveId
    rw [hzero]
    omega
  | ok shares =>
    refine h.sound.stays_long _ h.current h.nonneg
      (h.sound.share_within h.pos hshares h.small) (fun s hs => ?_) sleeveId
    simp only [shareAt, hshares]
    refine List.sum_eq_zero fun x hx => ?_
    obtain ⟨a, ha, rfl⟩ := List.mem_map.mp hx
    have hmem : a.sleeveId ∈ (withQuantities plan.allocations shares).map (·.sleeveId) :=
      List.mem_map_of_mem ha
    rw [withQuantities_sleeves _ _ (sharesAt_length hshares), h.sound.external] at hmem
    obtain ⟨d, hd, hds⟩ := List.mem_map.mp ((allocationsOf_sleeves _ _).subset hmem)
    exact if_neg fun heq => hs d hd (by rw [← heq, hds])

/-- **The invariant of guarded operation.** -/
structure Safe (l : Ledger) : Prop where
  long : ∀ pre, pre <+: l.log → ∀ scopeId sleeveId symbol, 0 ≤ held pre scopeId sleeveId symbol
  single : ∀ order ∈ l.orders, ∀ order' ∈ l.orders, order.scopeId = order'.scopeId →
    order.pending l.log → order'.pending l.log → order = order'
  backed : ∀ order ∈ l.orders, order.pending l.log → Backed order l.log
  net : ∀ scopeId symbol, netHeld l.log scopeId symbol = brokerNet l.log scopeId symbol

theorem Safe.empty : Safe .empty := by
  refine ⟨fun pre hp scopeId sleeveId symbol => ?_, ?_, ?_, fun _ _ => rfl⟩
  · rw [show pre = [] from List.prefix_nil.mp hp]
    exact le_rfl
  · simp [Ledger.empty]
  · simp [Ledger.empty]

section steps

variable {H : Hashes} {l l' : Ledger} {group : List Event}

/-- A group that touches a sleeve once is safe if its end is. -/
theorem long_append
    (h : ∀ pre, pre <+: l.log → ∀ scopeId sleeveId symbol, 0 ≤ held pre scopeId sleeveId symbol)
    (hlog : l'.log = l.log ++ group) (hone : OnePerSleeve group)
    (hend : ∀ scopeId sleeveId symbol, 0 ≤ held l'.log scopeId sleeveId symbol) :
    ∀ pre, pre <+: l'.log → ∀ scopeId sleeveId symbol, 0 ≤ held pre scopeId sleeveId symbol := by
  intro pre hp scopeId sleeveId symbol
  rw [hlog] at hp
  rcases List.prefix_or_prefix_of_prefix hp (List.prefix_append l.log group) with hpre | hpre
  · exact h pre hpre scopeId sleeveId symbol
  · obtain ⟨post, rfl⟩ := hpre
    have hpost : post <+: group := (List.prefix_append_right_inj l.log).mp hp
    have hbefore := h l.log (List.prefix_refl _) scopeId sleeveId symbol
    have hafter := hend scopeId sleeveId symbol
    rw [hlog, held_append] at hafter
    rw [held_append]
    rcases held_group_prefix hone hpost scopeId sleeveId symbol with h0 | h0 <;> rw [h0]
    · simpa using hbefore
    · exact hafter

theorem Safe.neutral (h : Safe l) (happ : Appended l group l') (hgroup : Neutral group) : Safe l' := by
  have hlog := happ.log
  have hheld : ∀ scopeId sleeveId symbol, held l'.log scopeId sleeveId symbol =
      held l.log scopeId sleeveId symbol := fun scopeId sleeveId symbol => by
    rw [hlog, held_append, hgroup.held, add_zero]
  have hfilled : ∀ scopeId planId, filledQuantities l'.log scopeId planId =
      filledQuantities l.log scopeId planId := fun scopeId planId => by
    rw [hlog, filledQuantities_append, hgroup.filled, add_zero]
  have hpending : ∀ order : OrderRow, order.pending l'.log → order.pending l.log :=
    fun order hp => pending_of_append (hlog ▸ hp)
  refine ⟨?_, ?_, ?_, fun scopeId symbol => ?_⟩
  · refine long_append h.long hlog ?_ fun scopeId sleeveId symbol => ?_
    · exact List.Pairwise.imp_of_mem (fun ha _ _ => .inl (hgroup _ ha).1)
        (List.pairwise_of_forall (R := fun _ _ => True) fun _ _ => trivial)
    · rw [hheld]
      exact h.long _ (List.prefix_refl _) _ _ _
  · rw [happ.orders]
    exact fun o ho o' ho' hs hp hp' => h.single o ho o' ho' hs (hpending o hp) (hpending o' hp')
  · rw [happ.orders]
    intro o ho hp
    obtain ⟨plan, base, hback, hat⟩ := h.backed o ho (hpending o hp)
    exact ⟨plan, base, hback, fun sleeveId => by rw [hheld, hfilled, hat]⟩
  · rw [hlog, netHeld_append, brokerNet_append, h.net, netHeld_eq_zero fun e he => (hgroup e he).1,
      brokerNet_eq_zero fun e he => (hgroup e he).2]

theorem activeShares_sleeves {allocations active : List SleeveAllocation} {side : Side}
    {previous quantity : ℕ} (hq : 0 < quantity)
    (h : activeShares allocations side previous quantity = .ok active) :
    (active.map (·.sleeveId)).Sublist (allocations.map (·.sleeveId)) := by
  simp only [activeShares, bind_eq_ok, pure_eq_ok] at h
  obtain ⟨current, hcurrent, prior, hprior, rfl⟩ := h
  have hcurrent' : sharesAt allocations side (previous + quantity) = .ok current := by
    rw [sharesAt, if_pos (by omega), hcurrent]
  have h1 := sharesAt_length hcurrent'
  have h2 := sharesAt_length hprior
  have hlen : (List.zipWith (· - ·) current prior).length = allocations.length := by
    simp [h1, h2]
  rw [← withQuantities_sleeves _ _ hlen]
  exact (List.filter_sublist).map _

/-- **A fill of the pending order.** -/
theorem Applies.safe (h : Safe l) (htimely : Timely l'.log)
    (step : Applies H (fun _ => True) l l') : Safe l' := by
  cases step with
  | @fill order n active fees _ horder _ hsym hq _ _ hle hactive hfees happ =>
    have hlog := happ.log
    have hlen : fees.length = active.length := by simpa using allocateMoney_length hfees
    have hpend : order.pending l.log := by
      refine ⟨by omega, fun hterm => ?_⟩
      rw [hlog, fillEvents] at htimely
      exact htimely.not_late hterm
    obtain ⟨plan, base, hback, hat⟩ := h.backed order horder hpend
    set filled := filledQuantities l.log order.scopeId order.planId
    have hheld : ∀ scopeId sleeveId symbol, held l'.log scopeId sleeveId symbol =
        held l.log scopeId sleeveId symbol +
          if order.scopeId = scopeId ∧ n.symbol.val = symbol then
            shareAt order.allocations order.side (filled + n.quantity) sleeveId -
              shareAt order.allocations order.side filled sleeveId
          else 0 := fun scopeId sleeveId symbol => by
      rw [hlog, held_append, held_fill hq hactive hfees]
    have hend : ∀ sleeveId, held l'.log order.scopeId sleeveId order.symbol.val =
        base sleeveId + sleeveQuantity plan.internalAllocations sleeveId +
          shareAt order.allocations order.side (filled + n.quantity) sleeveId := fun sleeveId => by
      rw [hheld, if_pos ⟨rfl, by rw [hsym]⟩, hat]
      ring
    have hpending : ∀ o : OrderRow, o.pending l'.log → o.pending l.log :=
      fun o hp => pending_of_append (hlog ▸ hp)
    refine ⟨?_, ?_, ?_, fun scopeId symbol => ?_⟩
    · refine long_append h.long hlog (onePerSleeve_fill hlen ?_) fun scopeId sleeveId symbol => ?_
      · refine List.Nodup.sublist (activeShares_sleeves hq hactive) ?_
        rw [hback.allocations]
        exact hback.sound.external_sleeves
      · by_cases hc : order.scopeId = scopeId ∧ n.symbol.val = symbol
        · obtain ⟨rfl, rfl⟩ := hc
          rw [hsym, hend]
          exact hback.stays_long _ _
        · rw [hheld, if_neg hc, add_zero]
          exact h.long _ (List.prefix_refl _) _ _ _
    · rw [happ.orders]
      exact fun o ho o' ho' hs hp hp' => h.single o ho o' ho' hs (hpending o hp) (hpending o' hp')
    · rw [happ.orders]
      intro o ho hp
      by_cases hs : o.scopeId = order.scopeId
      · obtain rfl := h.single o ho order horder hs (hpending o hp) hpend
        refine ⟨plan, base, hback, fun sleeveId => ?_⟩
        rw [hend, hlog, filledQuantities_append, filled_fillEvents, if_pos ⟨rfl, rfl⟩]
      · obtain ⟨plan', base', hback', hat'⟩ := h.backed o ho (hpending o hp)
        have hne : ¬ order.scopeId = o.scopeId := fun heq => hs heq.symm
        refine ⟨plan', base', hback', fun sleeveId => ?_⟩
        rw [hheld, if_neg fun hc => hne hc.1, add_zero, hlog, filledQuantities_append,
          filled_fillEvents, if_neg fun hc => hne hc.1, add_zero, hat']
    · rw [hlog, netHeld_append, brokerNet_append, h.net, netHeld_fill hlen, brokerNet_fill,
        activeShares_net hq hactive]
  | status _ happ => exact h.neutral happ (neutral_statusEvent _ _ _)
  | revise _ _ happ => exact h.neutral happ neutral_revisionEvents
  | quiet hq happ => exact h.neutral happ hq.neutral

theorem applies_safe (steps : Relation.ReflTransGen (Applies H fun _ => True) l l') :
    Safe l → Timely l'.log → Safe l' := by
  induction steps with
  | refl => exact fun h _ => h
  | tail _ step ih =>
    intro h htimely
    refine step.safe (ih h ?_) htimely
    -- the log of the step before is a prefix
    have hlead : ∀ {m : Ledger} {new : List Event}, Appended m new _ → Timely m.log :=
      fun happ => Timely.of_append (happ.log ▸ htimely)
    cases step with
    | fill _ _ _ _ _ _ _ _ _ happ => exact hlead happ
    | status _ happ => exact hlead happ
    | revise _ _ happ => exact hlead happ
    | quiet _ happ => exact hlead happ

/-- The cross of a plan moves its sleeves part of the way. -/
theorem held_cross_nonneg (h : Safe l) {plan : SymbolNetPlan} (hsound : PlanSound plan.toPlanPayload)
    (hbase : ∀ d ∈ plan.deltas,
      held l.log plan.scopeId d.sleeveId.val plan.symbol.val = d.currentQuantity) {now : ℤ}
    {cross : List Event} (hcross : internalCrossEvents plan now = .ok cross) (scopeId : Text)
    (sleeveId symbol : String) :
    0 ≤ held l.log scopeId sleeveId symbol + held cross scopeId sleeveId symbol := by
  have hlong := h.long _ (List.prefix_refl l.log)
  rw [held_crossEvents hcross]
  split_ifs with hc
  · obtain ⟨rfl, rfl⟩ := hc
    have := hsound.stays_long (fun _ => 0) hbase (fun s => hlong _ s _)
      (fun s => by omega) (fun _ _ => rfl) sleeveId
    simpa using this
  · simpa using hlong scopeId sleeveId symbol

theorem baseHolds_held {plan : SymbolNetPlan} {sleeves : Dict (String × String) ℤ}
    (hsleeves : sleeveHoldings l plan.scopeId = .ok sleeves) (hbase : BaseHolds plan sleeves) :
    ∀ d ∈ plan.deltas, held l.log plan.scopeId d.sleeveId.val plan.symbol.val = d.currentQuantity :=
  fun d hd => by rw [← sleeveHoldings_get hsleeves, hbase d hd]

theorem Built.sound {plan : SymbolNetPlan} (h : Built H plan) : PlanSound plan.toPlanPayload := by
  obtain ⟨_, _, _, _, _, _, _, h⟩ := h
  exact buildSymbolNetPlan_sound h

/-- **Acceptance** of an order in a scope where none is pending. -/
theorem Safe.accept (h : Safe l) (hs : l.Sound) {plan : SymbolNetPlan}
    (hplan : PlanSound plan.toPlanPayload) (hsmall : plan.quantity < 10 ^ 28)
    (hdispatch : Dispatchable l plan) {brokerId : Text} {localId : String} {now : ℤ}
    {cross : List Event} (hq : 0 < plan.quantity)
    (hnew : ∀ row ∈ l.orders, row.planId ≠ plan.planId)
    (hcross : internalCrossEvents plan now = .ok cross)
    (happ : Appended { l with orders := l.orders ++ [orderRow plan brokerId localId now] }
      (acceptedEvent plan brokerId localId now :: cross) l') : Safe l' := by
  obtain ⟨hnone, sleeves, hsleeves, hbase⟩ := hdispatch
  have hlog : l'.log = l.log ++ (acceptedEvent plan brokerId localId now :: cross) := happ.log
  have hheld : ∀ scopeId sleeveId symbol, held l'.log scopeId sleeveId symbol =
      held l.log scopeId sleeveId symbol + held cross scopeId sleeveId symbol :=
    fun scopeId sleeveId symbol => by
      rw [hlog, held_append, held_cons]
      have : (acceptedEvent plan brokerId localId now).holding scopeId sleeveId symbol = 0 := rfl
      rw [this, zero_add]
  have hfilled : ∀ scopeId planId, filledQuantities l'.log scopeId planId =
      filledQuantities l.log scopeId planId := fun scopeId planId => by
    rw [hlog, filledQuantities_append, filledQuantities_cons, filled_crossEvents hcross]
    rfl
  have hpending : ∀ o : OrderRow, o.pending l'.log → o.pending l.log :=
    fun o hp => pending_of_append (hlog ▸ hp)
  have hbase' := baseHolds_held hsleeves hbase
  have hmem : ∀ {o : OrderRow}, o ∈ l'.orders →
      o ∈ l.orders ∨ o = orderRow plan brokerId localId now := fun ho => by
    rw [happ.orders, List.mem_append, List.mem_singleton] at ho
    exact ho
  -- an order that was there before and is pending belongs to another scope
  have helse : ∀ {o : OrderRow}, o ∈ l.orders → o.pending l'.log → o.scopeId ≠ plan.scopeId :=
    fun ho hp heq => not_pending_of_nil hnone ho heq (hpending _ hp)
  refine ⟨?_, ?_, ?_, fun scopeId symbol => ?_⟩
  · refine long_append h.long hlog (onePerSleeve_cross hcross hplan.internal_sleeves rfl)
      fun scopeId sleeveId symbol => ?_
    rw [hheld]
    exact held_cross_nonneg h hplan hbase' hcross _ _ _
  · intro o ho o' ho' hscope hp hp'
    rcases hmem ho with ho | rfl <;> rcases hmem ho' with ho' | rfl
    · exact h.single o ho o' ho' hscope (hpending o hp) (hpending o' hp')
    · exact absurd hscope (helse ho hp)
    · exact absurd hscope.symm (helse ho' hp')
    · rfl
  · intro o ho hp
    rcases hmem ho with ho | rfl
    · obtain ⟨plan', base', hback', hat'⟩ := h.backed o ho (hpending o hp)
      refine ⟨plan', base', hback', fun sleeveId => ?_⟩
      rw [hheld, hfilled, hat', held_crossEvents hcross,
        if_neg fun hc => helse ho hp hc.1.symm, add_zero]
    · refine ⟨plan.toPlanPayload, fun s => held l.log plan.scopeId s plan.symbol.val,
        ⟨hplan, hq.ne', hsmall, rfl, rfl, hbase', fun s => h.long _ (List.prefix_refl _) _ _ _⟩,
        fun sleeveId => ?_⟩
      have hzero : filledQuantities l'.log plan.scopeId plan.planId = 0 := by
        rw [hfilled, filledQuantities_of_new hs hnew]
      show held l'.log plan.scopeId sleeveId plan.symbol.val = held l.log plan.scopeId sleeveId _ +
        _ + shareAt _ _ (filledQuantities l'.log plan.scopeId plan.planId) _
      rw [hzero, shareAt_zero, add_zero, hheld, held_crossEvents hcross, if_pos ⟨rfl, rfl⟩]
  · have hnet : Event.netHolding scopeId symbol (acceptedEvent plan brokerId localId now) = 0 := rfl
    have hfills : ∀ e ∈ acceptedEvent plan brokerId localId now :: cross,
        ∀ fill, e.payload ≠ .brokerFill fill := by
      rintro e (_ | ⟨_, he⟩) fill hp
      · cases hp
      · rcases (crossEvents_payload hcross he).2 with ⟨_, hp'⟩ | ⟨_, _, _, hp'⟩ <;> simp [hp'] at hp
    rw [hlog, netHeld_append, brokerNet_append, h.net, netHeld_cons, hnet,
      netHeld_cross hcross hplan.internalNet, brokerNet_eq_zero hfills]
    simp

/-- **A recorded cross**, with no order pending on its symbol. -/
theorem Safe.cross (h : Safe l) {plan : SymbolNetPlan} (hplan : PlanSound plan.toPlanPayload)
    (hcrossable : Crossable l plan) {now : ℤ} {cross : List Event}
    (hcross : internalCrossEvents plan now = .ok cross) (happ : Appended l cross l') : Safe l' := by
  obtain ⟨hnone, sleeves, hsleeves, hbase⟩ := hcrossable
  have hlog := happ.log
  have hbase' := baseHolds_held hsleeves hbase
  have hfilled : ∀ scopeId planId, filledQuantities l'.log scopeId planId =
      filledQuantities l.log scopeId planId := fun scopeId planId => by
    rw [hlog, filledQuantities_append, filled_crossEvents hcross, add_zero]
  have hpending : ∀ o : OrderRow, o.pending l'.log → o.pending l.log :=
    fun o hp => pending_of_append (hlog ▸ hp)
  have hone : OnePerSleeve cross :=
    (List.pairwise_cons.mp (onePerSleeve_cross hcross hplan.internal_sleeves
      (show (crossEvent plan now).payload.leg = none from rfl))).2
  refine ⟨?_, ?_, ?_, fun scopeId symbol => ?_⟩
  · refine long_append h.long hlog hone fun scopeId sleeveId symbol => ?_
    rw [hlog, held_append]
    exact held_cross_nonneg h hplan hbase' hcross _ _ _
  · rw [happ.orders]
    exact fun o ho o' ho' hs hp hp' => h.single o ho o' ho' hs (hpending o hp) (hpending o' hp')
  · rw [happ.orders]
    intro o ho hp
    obtain ⟨plan', base', hback', hat'⟩ := h.backed o ho (hpending o hp)
    refine ⟨plan', base', hback', fun sleeveId => ?_⟩
    rw [hfilled, ← hat', hlog, held_append, held_crossEvents hcross, if_neg, add_zero]
    rintro ⟨hscope, hsymbol⟩
    exact hnone o ho hscope.symm (Subtype.ext hsymbol.symm) (hpending o hp)
  · have hfills : ∀ e ∈ cross, ∀ fill, e.payload ≠ .brokerFill fill := by
      intro e he fill hp
      rcases (crossEvents_payload hcross he).2 with ⟨_, hp'⟩ | ⟨_, _, _, hp'⟩ <;> simp [hp'] at hp
    rw [hlog, netHeld_append, brokerNet_append, h.net, netHeld_cross hcross hplan.internalNet,
      brokerNet_eq_zero hfills]

theorem Guarded.safe (hs : l.Sound) (h : Safe l) (step : Guarded H l l') : Safe l' := by
  cases step with
  | registerScope hcall =>
    obtain ⟨horders, hlog, _⟩ := registerScope_eq_ok hcall
    obtain ⟨h1, h2, h3, h4⟩ := h
    exact ⟨by rwa [hlog], by rwa [hlog, horders], by rwa [hlog, horders], by rwa [hlog]⟩
  | @accept plan _ _ _ _ created hbuilt hsmall hdispatch hcall =>
    obtain ⟨brokerId, now, cross, hacc⟩ := recordAcceptedOrder_eq_ok hs hcall
    cases created with
    | true =>
      obtain ⟨hnew, _, _, happ⟩ := hacc.new rfl
      exact h.accept hs hbuilt.sound hsmall (hdispatch rfl) hacc.quantity hnew hacc.crossed happ
    | false => rw [(hacc.replay rfl).2]; exact h
  | cross hbuilt hcrossable hcall =>
    obtain ⟨_, now, cross, hcross, rfl | ⟨hn, happ⟩⟩ := recordInternalCross_eq_ok hcall
    · exact h
    · exact h.cross hbuilt.sound (hcrossable hn) hcross happ
  | apply htimely hcall =>
    exact applies_safe (applyExecutionEvents_applies (fun _ _ _ _ => trivial) hcall) h htimely
  | reconcile hcall =>
    obtain ⟨events, hq, happ⟩ := reconcileRestart_eq_ok hcall
    exact h.neutral happ hq.neutral

/-- Every state of guarded operation is safe. -/
theorem guarded_safe (h : Relation.ReflTransGen (Guarded H) Ledger.empty l) : l.Sound ∧ Safe l := by
  induction h with
  | refl => exact ⟨.empty, .empty⟩
  | tail _ step ih => exact ⟨books_sound ih.1 (step.op.books ih.1), step.safe ih.1 ih.2⟩

end steps

/-! ## No short sleeve -/

theorem length_le_one {α : Type} : ∀ {l : List α}, l.Nodup → (∀ a ∈ l, ∀ b ∈ l, a = b) →
    l.length ≤ 1
  | [], _, _ => by simp
  | [_], _, _ => by simp
  | a :: b :: l, hnd, h => by
      have hab : a = b := h a (by simp) b (by simp)
      simp [hab] at hnd

/-- What holds of a scope at any moment of guarded operation. -/
structure NeverShort (l : Ledger) (scopeId : Text) : Prop where
  long : ∀ pre, pre <+: l.log → ∀ sleeveId symbol, 0 ≤ held pre scopeId sleeveId symbol
  holdings : ∃ sleeves, sleeveHoldings l scopeId = .ok sleeves ∧
    (∀ sleeveId symbol, sleeves.get (sleeveId, symbol) 0 = held l.log scopeId sleeveId symbol) ∧
    ∀ symbol, (sumHoldings sleeves).get symbol 0 = brokerNet l.log scopeId symbol
  pending : (pendingOrders l scopeId).length ≤ 1

/-- **No sleeve is ever short**, at most one order of a scope is pending, and the
sleeves of a symbol always add up to its broker fills. -/
theorem guarded_never_short {H : Hashes} {l : Ledger}
    (h : Relation.ReflTransGen (Guarded H) Ledger.empty l) (scopeId : Text) :
    NeverShort l scopeId := by
  obtain ⟨hs, hsafe⟩ := guarded_safe h
  have hlong : ∀ pre, pre <+: l.log → ∀ sleeveId symbol, 0 ≤ held pre scopeId sleeveId symbol :=
    fun pre hp => hsafe.long pre hp scopeId
  obtain ⟨sleeves, hsleeves⟩ := sleeveHoldings_ok hlong
  refine ⟨hlong, ⟨sleeves, hsleeves, sleeveHoldings_get hsleeves, fun symbol => ?_⟩, ?_⟩
  · rw [sumHoldings_get hsleeves, hsafe.net]
  · rw [pendingOrders, List.length_map]
    refine length_le_one ((hs.planIds.of_map _).filter _ |>.filter _) fun o ho o' ho' => ?_
    simp only [List.mem_filter, decide_eq_true_eq] at ho ho'
    exact hsafe.single o ho.1.1 o' ho'.1.1 (ho.1.2.trans ho'.1.2.symm) ho.2 ho'.2

/-- The sample order, accepted and filled in part. -/
theorem sampleOrder_never_short : ∃ l scopeId, NeverShort l scopeId ∧
    brokerNet l.log scopeId "005930" = 2 ∧ (pendingOrders l scopeId).length = 1 := by
  obtain ⟨l₀, hl₀, targets, -, plan, hplan, l₁, haccept, l₂, hfill, ⟨hq, _⟩, hdispatch, htimely,
      hnet, hpending⟩ : ∃ l₀, sampleScope = .ok l₀ ∧ ∃ targets, sampleTargets = .ok targets ∧
      ∃ plan, samplePlan targets = .ok plan ∧
      ∃ l₁ : Ledger × Bool, recordAcceptedOrder sampleHashes l₀ plan "order-1" "" (.stamp 0) = .ok l₁ ∧
      ∃ l₂ : Ledger × ExecutionSyncReport, applyExecutionEvents sampleHashes l₁.1 "scope"
        [sampleReport "fill-2" 2 .absent "PARTIAL"] = .ok l₂ ∧
      (plan.quantity = 3 ∧ l₁.2 = true) ∧ Dispatchable l₀ plan ∧ Timely l₂.1.log ∧
      brokerNet l₂.1.log plan.scopeId "005930" = 2 ∧
      (pendingOrders l₂.1 plan.scopeId).length = 1 := by
    decide +kernel
  refine ⟨l₂.1, plan.scopeId, guarded_never_short (H := sampleHashes) ?_ _, hnet, hpending⟩
  exact ((Relation.ReflTransGen.single (.registerScope hl₀)).tail
    (.accept ⟨_, _, _, _, _, _, _, hplan⟩ (by omega) (fun _ => hdispatch) haccept)).tail
    (.apply htimely hfill)

/-- The controller of the sample order. -/
def sampleRuntime : PortfolioRuntime :=
  ⟨"scope", "portfolio", [⟨"a", "005930", "portfolio", "hash"⟩, ⟨"b", "005930", "portfolio", "hash"⟩], ["005930"]⟩

end LiveTrader.Portfolio
