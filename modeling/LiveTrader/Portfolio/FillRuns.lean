/-
# `Portfolio.FillRuns` — runs of execution batches for one order

A run is a list of `apply_execution_events` batches that report fills of one
accepted order, each event id a fixed quantity and price, repeated as often and
batched in any way.

Event ids join texts with colons, so two facts can claim one id and a fill can
be refused for it; a replay can be refused too.  `RunClear` says of a run that
this does not happen: at every row, judged in the ledger before the row, the ids
a new fill needs are free and its fee can be split, and a replay finds its own
fill, a price of 28 digits and a fee revision that is new or recorded already.

`FillRun` is the invariant of such a run, over the set of event ids booked so
far; `applyRow_fillRun` is its step, and `fills_conserve_sleeves` the result.
-/
import LiveTrader.Portfolio.Conservation
import LiveTrader.Portfolio.Runs
import Mathlib.Algebra.Order.BigOperators.Group.Finset

namespace LiveTrader.Portfolio

open Lib.Py Lib.Decimal

/-! ## Clear rows -/

/-- The id of the status event that a notice brings along, if any. -/
def statusIds (order : OrderRow) (n : Notice) : List String :=
  if n.state ∈ terminalStates then [statusId order.scopeId n.sourceEventId] else []

/-- The ids that booking a new fill writes. -/
def newFillIds (order : OrderRow) (n : Notice) (active : List SleeveAllocation) : List String :=
  fillId order.scopeId n.sourceEventId ::
    active.map (fun a => sleeveFillId order.scopeId n.sourceEventId a.sleeveId a.intentId)

/-- A new fill meets only free ids, and its fee can be split. -/
def NewFillClear (ledger : Ledger) (order : OrderRow) (n : Notice) : Prop :=
  match activeShares order.allocations order.side
    (filledQuantities ledger.log order.scopeId order.planId) n.quantity with
  | .error _ => True
  | .ok active => FreshIds ledger (newFillIds order n active ++ statusIds order n) ∧
      SplitsFee n.fee (active.map (·.signedQuantity.natAbs))

instance (ledger : Ledger) (order : OrderRow) (n : Notice) :
    Decidable (NewFillClear ledger order n) := by
  unfold NewFillClear; split <;> infer_instance

/-- A fee revision can be split and is either new or recorded already. -/
def RevisionClear (H : Hashes) (ledger : Ledger) (order : OrderRow) (n : Notice) (f : BrokerFill)
    (current : ℚ) : Prop :=
  SplitsFee (ctx 28 (n.fee - current)) (f.shares.map (·.signedQuantity.natAbs)) ∧
    match allocateMoney (ctx 28 (n.fee - current)) (f.shares.map (·.signedQuantity.natAbs)) with
    | .error _ => True
    | .ok deltas =>
        FreshIds ledger ((revisionEvents H order.scopeId order n f.shares current deltas).map
          (·.eventId)) ∨
        AllStored ledger (revisionEvents H order.scopeId order n f.shares current deltas)

instance (H : Hashes) (ledger : Ledger) (order : OrderRow) (n : Notice) (f : BrokerFill)
    (current : ℚ) : Decidable (RevisionClear H ledger order n f current) := by
  unfold RevisionClear
  refine @instDecidableAnd _ _ _ ?_
  split <;> infer_instance

/-- A replay finds its own fill and asks for no fee revision that is refused. -/
def ReplayClear (H : Hashes) (ledger : Ledger) (order : OrderRow) (n : Notice) (f : BrokerFill) :
    Prop :=
  f.planId = order.planId ∧ f.sourceEventId = n.sourceEventId ∧ decimalText n.price = n.price ∧
    ((n.fee = 0 ∧ 0 < currentFee ledger.log order.scopeId n.sourceEventId f.fee) ∨
      n.fee = currentFee ledger.log order.scopeId n.sourceEventId f.fee ∨
      RevisionClear H ledger order n f (currentFee ledger.log order.scopeId n.sourceEventId f.fee))

instance (H : Hashes) (ledger : Ledger) (order : OrderRow) (n : Notice) (f : BrokerFill) :
    Decidable (ReplayClear H ledger order n f) := by
  unfold ReplayClear; infer_instance

/-- A row that reports a fill is clear in the ledger it is applied to. -/
def NoticeClear (H : Hashes) (ledger : Ledger) (order : OrderRow) (n : Notice) : Prop :=
  match ledger.stored (fillId order.scopeId n.sourceEventId) with
  | none => NewFillClear ledger order n
  | some event => match event.payload with
      | .brokerFill f => ReplayClear H ledger order n f
      | _ => False

/-- A condition on the fill that is stored, or on none being there. -/
def decideStored (A : Prop) (B : BrokerFill → Prop) [Decidable A] [DecidablePred B] :
    ∀ found : Option Event, Decidable (match found with
      | none => A
      | some event => match event.payload with
        | .brokerFill f => B f
        | _ => False)
  | none => inferInstanceAs (Decidable A)
  | some ⟨_, _, _, _, .brokerFill f, _⟩ => inferInstanceAs (Decidable (B f))
  | some ⟨_, _, _, _, .brokerOrderAccepted .., _⟩ => instDecidableFalse
  | some ⟨_, _, _, _, .internalCross .., _⟩ => instDecidableFalse
  | some ⟨_, _, _, _, .sleeveInternalCross .., _⟩ => instDecidableFalse
  | some ⟨_, _, _, _, .sleeveFill .., _⟩ => instDecidableFalse
  | some ⟨_, _, _, _, .feeAdjustment .., _⟩ => instDecidableFalse
  | some ⟨_, _, _, _, .sleeveFeeAdjustment .., _⟩ => instDecidableFalse
  | some ⟨_, _, _, _, .brokerOrderTerminal .., _⟩ => instDecidableFalse
  | some ⟨_, _, _, _, .restartReconciliation .., _⟩ => instDecidableFalse

instance (H : Hashes) (ledger : Ledger) (order : OrderRow) (n : Notice) :
    Decidable (NoticeClear H ledger order n) :=
  decideStored (NewFillClear ledger order n) (ReplayClear H ledger order n)
    (ledger.stored (fillId order.scopeId n.sourceEventId))

/-- Every row of the run is clear when its turn comes. -/
def RunClear (H : Hashes) (scopeId : Text) (ledger : Ledger)
    (batches : List (List ExecutionEvent)) : Prop :=
  RunMeets H (NoticeClear H) scopeId ledger batches

instance (H : Hashes) (scopeId : Text) (ledger : Ledger) (batches : List (List ExecutionEvent)) :
    Decidable (RunClear H scopeId ledger batches) := by
  unfold RunClear; infer_instance

/-! ## Reports -/

/-- The notice is of the fill that `fillOf` gives its id. -/
def IsFill (fillOf : String → ℕ × ℚ) (n : Notice) : Prop :=
  0 < n.quantity ∧ 0 < n.price ∧ fillOf n.sourceEventId.val = (n.quantity, n.price)

instance (fillOf : String → ℕ × ℚ) : DecidablePred (IsFill fillOf) := fun n => by
  unfold IsFill; infer_instance

/-- The event reports a fill of the order. -/
abbrev ReportsFill (order : OrderRow) (fillOf : String → ℕ × ℚ) : ExecutionEvent → Prop :=
  Reads order (IsFill fillOf)

/-- The ids of the fills that a run reports. -/
def reportedIds (batches : List (List ExecutionEvent)) : Finset String :=
  (batches.flatten.map fun event => strip event.eventId).toFinset

/-- Their total: every distinct fill counts once. -/
def reportedTotal (fillOf : String → ℕ × ℚ) (ids : Finset String) : ℕ := ∑ id ∈ ids, (fillOf id).1

/-! ## The invariant of a run -/

/-- The order row of a built plan, small enough for the split to go through. -/
structure Planned (order : OrderRow) (plan : PlanPayload) : Prop where
  sound : PlanSound plan
  pos : plan.quantity ≠ 0
  small : plan.quantity < 10 ^ 12
  quantity : order.quantity = plan.quantity
  side : order.side = plan.side
  allocations : order.allocations = plan.allocations

/-- What is known about a stored fill of the order. -/
structure OwnFill (order : OrderRow) (fillOf : String → ℕ × ℚ) (seen : Finset String)
    (f : BrokerFill) : Prop where
  seen : f.sourceEventId.val ∈ seen
  quantity : f.brokerQuantity = (fillOf f.sourceEventId.val).1
  price : f.price = decimalText (fillOf f.sourceEventId.val).2
  shares : 0 < (f.shares.map (·.signedQuantity.natAbs)).sum

/-- The fills of the order in the ledger are those of the ids seen so far, and
every sleeve stands at its base plus the share of their total. -/
structure FillRun (order : OrderRow) (fillOf : String → ℕ × ℚ) (base : String → ℤ)
    (seen : Finset String) (sync : Sync) : Prop where
  order_mem : order ∈ sync.ledger.orders
  sound : sync.ledger.Sound
  cache : ∀ planId, sync.filled planId = filledQuantities sync.ledger.log order.scopeId planId
  filled : filledQuantities sync.ledger.log order.scopeId order.planId = reportedTotal fillOf seen
  own : ∀ event ∈ sync.ledger.log, ∀ f, event.payload = .brokerFill f →
    f.planId = order.planId → OwnFill order fillOf seen f
  booked : ∀ s : Text, s.val ∈ seen → fillId order.scopeId s ∈ sync.ledger.eventIds
  held : ∀ sleeveId, held sync.ledger.log order.scopeId sleeveId order.symbol.val =
    base sleeveId + shareAt order.allocations order.side (reportedTotal fillOf seen) sleeveId

section run

variable {H : Hashes} {order : OrderRow} {fillOf : String → ℕ × ℚ} {base : String → ℤ}
  {seen : Finset String} {sync : Sync} {n : Notice}

/-- Events that fill nothing keep the invariant. -/
theorem FillRun.neutral {sync' : Sync} {new : List Event} (hrun : FillRun order fillOf base seen sync)
    (happ : Appended sync.ledger new sync'.ledger) (hnew : Neutral new)
    (hsound : sync'.ledger.Sound) (hfilled : sync'.filled = sync.filled) :
    FillRun order fillOf base seen sync' := by
  refine ⟨?_, hsound, fun planId => ?_, ?_, fun event he f hp hid => ?_, fun s hs => ?_,
    fun sleeveId => ?_⟩
  · rw [happ.orders]; exact hrun.order_mem
  · rw [hfilled, hrun.cache, happ.log, filledQuantities_append, hnew.filled, add_zero]
  · rw [happ.log, filledQuantities_append, hnew.filled, add_zero, hrun.filled]
  · rw [happ.log, List.mem_append] at he
    rcases he with he | he
    · exact hrun.own event he f hp hid
    · exact absurd hp ((hnew event he).2 f)
  · rw [Ledger.eventIds, happ.log, List.map_append, List.mem_append]
    exact .inl (hrun.booked s hs)
  · rw [happ.log, held_append, hnew.held, add_zero, hrun.held]

theorem reviseFee_fillRun (hrun : FillRun order fillOf base seen sync) {event : Event}
    {f : BrokerFill} (he : event ∈ sync.ledger.log)
    (hid : event.eventId = fillId order.scopeId n.sourceEventId) (hp : event.payload = .brokerFill f)
    (hreport : fillOf n.sourceEventId.val = (n.quantity, n.price)) (hq : 0 < n.quantity)
    (hclear : ReplayClear H sync.ledger order n f) :
    ∃ sync', reviseFee H order.scopeId order n event.payload sync = .ok sync' ∧
      FillRun order fillOf base seen sync' ∧ n.sourceEventId.val ∈ seen := by
  obtain ⟨hplan, hsource, hprice, hfee⟩ := hclear
  have hown := hrun.own event he f hp hplan
  have hqty := hown.quantity
  have hpr := hown.price
  have hseen := hown.seen
  rw [hsource, hreport] at hqty hpr
  rw [hsource] at hseen
  have hstored : Payload.storedFill (.brokerFill f) =
      some ⟨f.brokerQuantity, f.price, f.fee, some f.shares⟩ := rfl
  set current := currentFee sync.ledger.log order.scopeId n.sourceEventId f.fee with hcurrent
  unfold reviseFee
  rw [hp, hstored]
  simp only [orRaise, ok_bind]
  rw [require_true (by rw [hqty]; exact hq.ne'), ok_bind,
    require_true ⟨hqty, by rw [hpr]; exact hprice⟩, ok_bind, ← hcurrent]
  split_ifs with h1 h2
  · exact ⟨sync, rfl, hrun, hseen⟩
  · exact ⟨sync, rfl, hrun, hseen⟩
  · obtain ⟨hsplit, hids⟩ := (hfee.resolve_left h1).resolve_left h2
    obtain ⟨deltas, hdeltas⟩ := allocateMoney_ok hown.shares hsplit
    simp only [hdeltas] at hids
    have hne : f.shares ≠ [] := by
      rintro hnil
      have := hown.shares
      simp [hnil] at this
    have hscope : sync.ledger.hasScope order.scopeId := hrun.sound.orderScope order hrun.order_mem
    rw [require_true hne, ok_bind, hdeltas, ok_bind]
    rcases hids with hfresh | hall
    · obtain ⟨l', happend, happ⟩ := appendEvents_fresh (H := H) (by simp [revisionEvents])
        (fun e he => by
          rcases List.mem_cons.mp he with rfl | he
          · rfl
          · obtain ⟨a, _, rfl⟩ := List.mem_map.mp he
            rfl) hscope hfresh
      rw [happend, ok_bind]
      have hstored : fillId order.scopeId n.sourceEventId ∈ sync.ledger.eventIds :=
        hid ▸ List.mem_map_of_mem he
      have hsound : l'.Sound :=
        (Applies.revise (P := fun _ => True) hrun.order_mem hstored happ).sound hrun.sound
      exact ⟨_, rfl, hrun.neutral happ neutral_revisionEvents hsound rfl, hseen⟩
    · rw [appendEvents_stored hall, ok_bind]
      exact ⟨_, rfl, ⟨hrun.order_mem, hrun.sound, hrun.cache, hrun.filled, hrun.own, hrun.booked,
        hrun.held⟩, hseen⟩

theorem bookStatus_fillRun (hrun : FillRun order fillOf base seen sync)
    (hfresh : FreshIds sync.ledger (statusIds order n)) :
    ∃ sync', bookStatus H order.scopeId order n sync = .ok sync' ∧
      FillRun order fillOf base seen sync' := by
  unfold bookStatus
  unfold statusIds at hfresh
  split_ifs at hfresh ⊢
  · obtain ⟨l', happend, happ⟩ := appendEvents_fresh (H := H)
      (show [statusEvent order.scopeId order n] ≠ [] by simp) (by simp [statusEvent])
      (hrun.sound.orderScope order hrun.order_mem) hfresh
    rw [happend, ok_bind]
    have hsound : l'.Sound :=
      (Applies.status (H := H) (P := fun _ => True) hrun.order_mem happ).sound hrun.sound
    exact ⟨_, rfl, hrun.neutral happ (neutral_statusEvent _ _ _) hsound rfl⟩
  · exact ⟨sync, rfl, hrun⟩

/-! ### A new fill -/

theorem fillEvents_ids (order : OrderRow) (n : Notice) {active : List SleeveAllocation} {fees : List ℚ}
    (hlen : fees.length = active.length) :
    (fillEvents order.scopeId order n active fees).map (·.eventId) = newFillIds order n active := by
  have h := congrArg (List.map fun a : SleeveAllocation =>
    sleeveFillId order.scopeId n.sourceEventId a.sleeveId a.intentId)
    (fillAllocations_shares n.price _ _ hlen)
  rw [List.map_map] at h
  rw [fillEvents, newFillIds, List.map_cons, List.map_map, ← h]
  rfl

variable {plan : PlanPayload} (hplan : Planned order plan)
include hplan

theorem rowAllocations_ok : rowAllocations order = .ok plan.allocations := by
  have hsign := hplan.sound.oneSided hplan.pos
  unfold rowAllocations
  rw [hplan.allocations, require_true (hplan.sound.external_ne_nil hplan.pos), ok_bind,
    require_true, ok_bind, require_true, ok_bind]
  · rfl
  · exact hplan.sound.external_keys
  · intro a ha h0
    have := hsign a ha
    rw [h0, zero_mul] at this
    exact this.false

theorem activeShares_ok {previous quantity : ℕ} (hle : previous + quantity ≤ plan.quantity)
    (hq : 0 < quantity) :
    ∃ active, activeShares plan.allocations plan.side previous quantity = .ok active := by
  obtain ⟨current, hcurrent⟩ := hplan.sound.shares_ok hplan.pos hplan.small hle
  obtain ⟨prior, hprior⟩ := hplan.sound.shares_ok hplan.pos hplan.small
    (show previous ≤ plan.quantity by omega)
  rw [sharesAt, if_pos (by omega)] at hcurrent
  simp only [activeShares, hcurrent, hprior, ok_bind]
  exact ⟨_, rfl⟩

theorem bookFill_fillRun (hrun : FillRun order fillOf base seen sync)
    (hsym : n.symbol = order.symbol)
    (hreport : fillOf n.sourceEventId.val = (n.quantity, n.price)) (hq : 0 < n.quantity)
    (hp : 0 < n.price) (hfee : 0 ≤ n.fee) (hnew : n.sourceEventId.val ∉ seen)
    (hle : reportedTotal fillOf (insert n.sourceEventId.val seen) ≤ plan.quantity)
    (hclear : NewFillClear sync.ledger order n) :
    ∃ sync', bookFill H order.scopeId order n sync = .ok sync' ∧
      FillRun order fillOf base (insert n.sourceEventId.val seen) sync' ∧
      FreshIds sync'.ledger (statusIds order n) := by
  have htotal : reportedTotal fillOf (insert n.sourceEventId.val seen) =
      reportedTotal fillOf seen + n.quantity := by
    rw [reportedTotal, Finset.sum_insert hnew, hreport, add_comm]
    rfl
  rw [htotal] at hle
  obtain ⟨active, hactive⟩ := activeShares_ok hplan hle hq
  have hweights := activeShares_weights hq hactive
  rw [← hplan.allocations, ← hplan.side] at hactive
  unfold NewFillClear at hclear
  simp only [hrun.filled, hactive] at hclear
  obtain ⟨hfresh, hsplit⟩ := hclear
  obtain ⟨fees, hfees⟩ := allocateMoney_ok hweights hsplit
  have hlen : fees.length = active.length := by simpa using allocateMoney_length hfees
  have hids := fillEvents_ids order n hlen
  have hscope := hrun.sound.orderScope order hrun.order_mem
  obtain ⟨l', happend, happ⟩ := appendEvents_fresh (H := H) (l := sync.ledger)
    (show fillEvents order.scopeId order n active fees ≠ [] by simp [fillEvents])
    (fun e he => by
      rcases List.mem_cons.mp he with rfl | he
      · rfl
      · obtain ⟨a, _, rfl⟩ := List.mem_map.mp he
        rfl) hscope (hids ▸ hfresh.of_append)
  have hsound : l'.Sound := (Applies.fill (H := H) (P := fun _ => True) hrun.order_mem trivial hsym
    hq hfee (hfresh.2 _ List.mem_cons_self) (by rw [hrun.filled, hplan.quantity]; exact hle)
    (by rw [hrun.filled]; exact hactive) hfees happ).sound hrun.sound
  refine ⟨⟨l', Function.update sync.filled order.planId (reportedTotal fillOf seen + n.quantity),
    sync.appliedFills + 1, sync.appliedStatuses, sync.appliedFeeAdjustments⟩, ?_, ?_, ?_⟩
  · simp only [bookFill, require_true hp, ok_bind, hrun.cache, hrun.filled,
      require_true (hplan.quantity ▸ hle), rowAllocations_ok hplan, ← hplan.allocations, hactive,
      hfees, happend]
    rw [if_pos (by simp [fillEvents])]
    rfl
  · refine ⟨?_, hsound, fun planId => ?_, ?_, fun event he f hpay hid => ?_, fun s hs => ?_,
      fun sleeveId => ?_⟩
    · rw [happ.orders]; exact hrun.order_mem
    · rw [happ.log, filledQuantities_append, filled_fillEvents, ← hrun.cache]
      by_cases hid : order.planId = planId
      · subst hid; simp [hrun.cache, hrun.filled]
      · simp [Function.update_of_ne (Ne.symm hid), hid]
    · rw [happ.log, filledQuantities_append, filled_fillEvents, hrun.filled, htotal]
      simp
    · rw [happ.log, List.mem_append] at he
      rcases he with he | he
      · have hown := hrun.own event he f hpay hid
        exact ⟨Finset.mem_insert_of_mem hown.seen, hown.quantity, hown.price, hown.shares⟩
      · rcases List.mem_cons.mp he with rfl | he
        · obtain rfl := Payload.brokerFill.inj hpay
          refine ⟨Finset.mem_insert_self _ _, by simp [hreport], by simp [hreport], ?_⟩
          rwa [BrokerFill.shares, fillAllocations_shares _ _ _ hlen]
        · obtain ⟨a, _, rfl⟩ := List.mem_map.mp he
          cases hpay
    · rw [Ledger.eventIds, happ.log, List.map_append, List.mem_append, hids]
      rcases Finset.mem_insert.mp hs with hs | hs
      · rw [Subtype.ext hs]
        exact .inr List.mem_cons_self
      · exact .inl (hrun.booked s hs)
    · rw [happ.log, held_append, hrun.held, held_fill hq hactive hfees, htotal, hsym]
      simp
  · exact hfresh.after happ hids

/-- **Step.**  A clear row that reports a fill goes through. -/
theorem applyRow_fillRun (hrun : FillRun order fillOf base seen sync) {row : Collected}
    (horder : row.order = order) (hn : readNotice row = .ok n)
    (hreport : fillOf n.sourceEventId.val = (n.quantity, n.price)) (hq : 0 < n.quantity)
    (hp : 0 < n.price)
    (hle : reportedTotal fillOf (insert n.sourceEventId.val seen) ≤ plan.quantity)
    (hclear : NoticeClear H sync.ledger order n) :
    ∃ sync', applyRow H order.scopeId sync row = .ok sync' ∧
      FillRun order fillOf base (insert n.sourceEventId.val seen) sync' := by
  subst horder
  unfold NoticeClear at hclear
  unfold applyRow
  rw [hn, ok_bind, if_pos hq]
  cases hst : sync.ledger.stored (fillId row.order.scopeId n.sourceEventId) with
  | none =>
    simp only [hst] at hclear
    have hnew : n.sourceEventId.val ∉ seen := fun hs =>
      stored_eq_none.mp hst (hrun.booked _ hs)
    obtain ⟨mid, hmid, hrun', hfresh⟩ :=
      bookFill_fillRun hplan hrun (readNotice_symbol hn) hreport hq hp (readNotice_fee hn) hnew hle hclear
    obtain ⟨sync', hsync', hrun''⟩ := bookStatus_fillRun hrun' hfresh
    exact ⟨sync', by rw [hmid, ok_bind, hsync'], hrun''⟩
  | some event =>
    simp only [hst] at hclear
    split at hclear
    case h_1 f hpay =>
      obtain ⟨sync', hsync', hrun', hseen⟩ :=
        reviseFee_fillRun hrun (mem_log_of_stored hst).1 (mem_log_of_stored hst).2 hpay hreport hq hclear
      exact ⟨sync', hsync', by rwa [Finset.insert_eq_of_mem hseen]⟩
    case h_2 => exact hclear.elim

/-! ### Batches -/

omit hplan in
theorem reportedTotal_mono {ids ids' : Finset String} (h : ids ⊆ ids') :
    reportedTotal fillOf ids ≤ reportedTotal fillOf ids' :=
  Finset.sum_le_sum_of_subset h

omit hplan in
theorem foldl_insert {α : Type} (id : α → String) : ∀ (l : List α) (seen : Finset String),
    l.foldl (fun seen a => insert (id a) seen) seen = seen ∪ (l.map id).toFinset
  | [], seen => by simp
  | a :: l, seen => by
      rw [List.foldl_cons, foldl_insert id l]
      ext x
      simp

omit hplan in
theorem foldl_reportedIds : ∀ (batches : List (List ExecutionEvent)) (seen : Finset String),
    batches.foldl (fun seen batch => seen ∪ reportedIds [batch]) seen = seen ∪ reportedIds batches
  | [], seen => by simp [reportedIds]
  | batch :: batches, seen => by
      rw [List.foldl_cons, foldl_reportedIds batches, Finset.union_assoc]
      congr 1
      ext x
      simp [reportedIds]

variable {all : Finset String} (hle : reportedTotal fillOf all ≤ plan.quantity)
include hle

theorem applyBatch_fillRun {l : Ledger} {batch : List ExecutionEvent}
    (hrun : FillRun order fillOf base seen (startSync l order.scopeId)) (hseen : seen ⊆ all)
    (hreports : ∀ event ∈ batch, ReportsFill order fillOf event) (hbatch : reportedIds [batch] ⊆ all)
    (hclear : BatchMeets H (NoticeClear H) order.scopeId l batch) :
    ∃ l' report, applyExecutionEvents H l order.scopeId.val batch = .ok (l', report) ∧
      FillRun order fillOf base (seen ∪ reportedIds [batch]) (startSync l' order.scopeId) := by
  obtain ⟨rows, hcol, hrows, hevents⟩ := collect_batch (l := l) hrun.sound hrun.order_mem _ hreports
  have hperm := List.perm_insertionSort collectedLe rows
  have hids : ((rows.insertionSort collectedLe).map fun row => strip row.event.eventId).toFinset =
      reportedIds [batch] := by
    rw [reportedIds, List.toFinset_eq_of_perm _ _ (hperm.map _), ← hevents]
    simp [Function.comp_def]
  -- a row adds its id to the ids seen, and these stay within the run's
  obtain ⟨sync', hsync', hrun', _⟩ := applyRows_run H (NoticeClear H) order.scopeId
    (fun seen sync => FillRun order fillOf base seen sync ∧ seen ⊆ all)
    (fun seen row => insert (strip row.event.eventId) seen)
    (fun row => RowReads order (IsFill fillOf) row ∧ strip row.event.eventId ∈ all)
    (fun {seen sync row} hinv hrow hmeets => by
      obtain ⟨⟨horder, n, hn, hq, hp, hreport⟩, hid⟩ := hrow
      have hsub := Finset.insert_subset hid hinv.2
      unfold RowMeets at hmeets
      simp only [hn, horder] at hmeets
      rw [← readNotice_source hn] at hsub ⊢
      obtain ⟨sync', hsync', hrun'⟩ := applyRow_fillRun hplan hinv.1 horder hn hreport hq hp
        ((reportedTotal_mono hsub).trans hle) hmeets
      exact ⟨sync', hsync', hrun', hsub⟩)
    ⟨hrun, hseen⟩
    (fun row hrow => ⟨hrows row ((List.mem_insertionSort _).mp hrow), hbatch (by
      rw [← hids]
      exact List.mem_toFinset.mpr (List.mem_map.mpr ⟨row, hrow, rfl⟩))⟩)
    (batchMeets_rows hclear hcol)
  rw [foldl_insert, hids] at hrun'
  exact ⟨_, _, applyExecutionEvents_of_rows hcol hsync', hrun'.order_mem, hrun'.sound, fun _ => rfl,
    hrun'.filled, hrun'.own, hrun'.booked, hrun'.held⟩

/-- **Run.** -/
theorem applyBatches_fillRun {batches : List (List ExecutionEvent)} {l : Ledger}
    (hrun : FillRun order fillOf base ∅ (startSync l order.scopeId))
    (hreports : ∀ batch ∈ batches, ∀ event ∈ batch, ReportsFill order fillOf event)
    (hall : reportedIds batches = all) (hclear : RunClear H order.scopeId l batches) :
    ∃ l', applyBatches H l order.scopeId batches = .ok l' ∧
      FillRun order fillOf base all (startSync l' order.scopeId) := by
  have hsub : ∀ batch ∈ batches, reportedIds [batch] ⊆ all := by
    intro batch hbatch id hid
    obtain ⟨event, he, rfl⟩ : ∃ event ∈ batch, strip event.eventId = id := by
      simpa [reportedIds] using hid
    rw [← hall, reportedIds, List.mem_toFinset]
    exact List.mem_map.mpr ⟨event, List.mem_flatten.mpr ⟨batch, hbatch, he⟩, rfl⟩
  obtain ⟨l', hl', hrun', _⟩ := applyBatches_run H (NoticeClear H) order.scopeId
    (fun seen l => FillRun order fillOf base seen (startSync l order.scopeId) ∧ seen ⊆ all)
    (fun seen batch => seen ∪ reportedIds [batch])
    (fun batch => (∀ event ∈ batch, ReportsFill order fillOf event) ∧
      reportedIds [batch] ⊆ all)
    (fun hinv hbatch hmeets => by
      obtain ⟨l', report, hl', hrun'⟩ :=
        applyBatch_fillRun hplan hle hinv.1 hinv.2 hbatch.1 hbatch.2 hmeets
      exact ⟨l', report, hl', hrun', Finset.union_subset hinv.2 hbatch.2⟩)
    ⟨hrun, Finset.empty_subset _⟩ (fun batch hbatch => ⟨hreports batch hbatch, hsub batch hbatch⟩)
    hclear
  rw [foldl_reportedIds, Finset.empty_union, hall] at hrun'
  exact ⟨l', hl', hrun'⟩

end run

/-! ## Conservation -/

section conservation

variable {H : Hashes} {l₀ l₁ : Ledger} {plan : SymbolNetPlan} {order : OrderRow}
  {fillOf : String → ℕ × ℚ} {brokerOrderId localOrderId : String} {time : RawTime}

/-- The ledger right after the acceptance starts a run with no fill seen. -/
theorem fillRun_start (fillOf : String → ℕ × ℚ) (hs : l₀.Sound)
    (h : recordAcceptedOrder H l₀ plan brokerOrderId localOrderId time = .ok (l₁, true))
    (ho : l₁.orderOf plan.scopeId (strip brokerOrderId) = some order) :
    (∃ brokerId now, order = orderRow plan brokerId (strip localOrderId) now) ∧
      FillRun order fillOf (fun sleeveId => held l₀.log plan.scopeId sleeveId plan.symbol.val +
        sleeveQuantity plan.internalAllocations sleeveId) ∅ (startSync l₁ order.scopeId) := by
  obtain ⟨brokerId, now, cross, h⟩ := recordAcceptedOrder_eq_ok hs h
  obtain ⟨hnew, hids, hscope, happ⟩ := h.new rfl
  have hs₁ : l₁.Sound :=
    (Books.order (H := H) h.quantity h.side hnew hids hscope h.crossed happ).sound hs
  have hmem : orderRow plan brokerId (strip localOrderId) now ∈ l₁.orders := by
    rw [happ.orders]; simp
  have hfound := orderOf_mem hs₁ hmem
  rw [show (orderRow plan brokerId (strip localOrderId) now).brokerOrderId.val =
    strip brokerOrderId from text_eq_ok h.broker] at hfound
  obtain rfl : orderRow plan brokerId (strip localOrderId) now = order :=
    Option.some.inj (hfound.symm.trans ho)
  have hlog : l₁.log = l₀.log ++ (acceptedEvent plan brokerId (strip localOrderId) now :: cross) :=
    happ.log
  have hfilled : filledQuantities l₁.log plan.scopeId plan.planId = 0 := by
    rw [hlog, filledQuantities_append, filledQuantities_of_new hs hnew, filledQuantities_cons,
      filled_crossEvents h.crossed]
    rfl
  refine ⟨⟨brokerId, now, rfl⟩, hmem, hs₁, fun _ => rfl, hfilled, fun event he f hp hid => ?_,
    by simp, fun sleeveId => ?_⟩
  · obtain ⟨row, hrow, hrid⟩ : ∃ row ∈ l₀.orders, row.planId = f.planId := by
      rw [startSync, hlog, List.mem_append, List.mem_cons] at he
      rcases he with he | rfl | he
      · exact hs.fillRow event he f hp
      · cases hp
      · rcases (crossEvents_payload h.crossed he).2 with ⟨_, hp'⟩ | ⟨_, _, _, hp'⟩ <;>
          simp [hp'] at hp
    exact absurd (hrid.trans hid) (hnew row hrow)
  · rw [startSync, hlog, held_append, held_cons]
    have hacc : Event.holding plan.scopeId sleeveId plan.symbol.val
        (acceptedEvent plan brokerId (strip localOrderId) now) = 0 := rfl
    have hcross := held_crossEvents h.crossed plan.scopeId sleeveId plan.symbol.val
    simp only [and_self, if_true] at hcross
    show held l₀.log plan.scopeId sleeveId plan.symbol.val + _ = _
    rw [show (orderRow plan brokerId (strip localOrderId) now).scopeId = plan.scopeId from rfl,
      show (orderRow plan brokerId (strip localOrderId) now).symbol = plan.symbol from rfl,
      hacc, hcross]
    simp [reportedTotal]

/-- What the fills of an order, `filled` shares in all, did between two ledgers. -/
structure SleevesConserved (plan : SymbolNetPlan) (filled : ℕ) (l₀ l₂ : Ledger) : Prop where
  change : ∀ sleeveId, held l₂.log plan.scopeId sleeveId plan.symbol.val -
    held l₀.log plan.scopeId sleeveId plan.symbol.val =
      sleeveQuantity plan.internalAllocations sleeveId +
        shareAt plan.allocations plan.side filled sleeveId
  total : (plan.deltas.map fun d =>
    shareAt plan.allocations plan.side filled d.sleeveId.val).sum = filled * plan.side.sign
  bounded : ∀ d ∈ plan.deltas, |shareAt plan.allocations plan.side filled d.sleeveId.val| ≤
    |sleeveQuantity plan.allocations d.sleeveId.val|
  target : filled = plan.quantity → ∀ d ∈ plan.deltas, (d.currentQuantity : ℤ) +
    (held l₂.log plan.scopeId d.sleeveId.val plan.symbol.val -
      held l₀.log plan.scopeId d.sleeveId.val plan.symbol.val) = d.targetQuantity

/-- **The fills of an order conserve its sleeves**, in every clear run. -/
theorem fills_conserve_sleeves (hreach : Reachable H l₀) {scopeId portfolioId portfolioHash : String}
    {targets : List SleeveTarget} {currentPositions : String → String → Raw}
    {brokerQuantity referencePrice : Raw}
    (hplan : buildSymbolNetPlan H.plan scopeId portfolioId portfolioHash targets currentPositions
      brokerQuantity referencePrice = .ok plan) (hnet : plan.quantity ≠ 0)
    (hsmall : plan.quantity < 10 ^ 12)
    (haccept : recordAcceptedOrder H l₀ plan brokerOrderId localOrderId time = .ok (l₁, true))
    (ho : l₁.orderOf plan.scopeId (strip brokerOrderId) = some order)
    {batches : List (List ExecutionEvent)}
    (hreports : ∀ batch ∈ batches, ∀ event ∈ batch, ReportsFill order fillOf event)
    (htotal : reportedTotal fillOf (reportedIds batches) ≤ plan.quantity)
    (hclear : RunClear H plan.scopeId l₁ batches) :
    ∃ l₂, applyBatches H l₁ plan.scopeId batches = .ok l₂ ∧
      SleevesConserved plan (reportedTotal fillOf (reportedIds batches)) l₀ l₂ := by
  have hsound := buildSymbolNetPlan_sound hplan
  obtain ⟨⟨brokerId, now, rfl⟩, hstart⟩ := fillRun_start fillOf hreach.sound haccept ho
  have hplanned : Planned (orderRow plan brokerId (strip localOrderId) now) plan.toPlanPayload :=
    ⟨hsound, hnet, hsmall, rfl, rfl, rfl⟩
  obtain ⟨l₂, hl₂, hrun⟩ := applyBatches_fillRun (H := H) hplanned htotal hstart hreports rfl hclear
  set filled := reportedTotal fillOf (reportedIds batches)
  have hsmall' : plan.quantity < 10 ^ 28 := hsmall.trans (by norm_num)
  obtain ⟨shares, hshares⟩ := hsound.shares_ok hnet hsmall htotal
  have hchange : ∀ sleeveId, held l₂.log plan.scopeId sleeveId plan.symbol.val -
      held l₀.log plan.scopeId sleeveId plan.symbol.val =
        sleeveQuantity plan.internalAllocations sleeveId +
          shareAt plan.allocations plan.side filled sleeveId := by
    intro sleeveId
    have h : held l₂.log plan.scopeId sleeveId plan.symbol.val = _ := hrun.held sleeveId
    rw [h]
    show _ + shareAt plan.allocations plan.side filled sleeveId - _ = _
    ring
  refine ⟨l₂, hl₂, hchange, hsound.share_sum hshares, fun d _ => ?_,
    fun hfull d hd => ?_⟩
  · rcases hsound.share_within hnet hshares hsmall' d.sleeveId with ⟨h1, h2⟩ | ⟨h1, h2⟩
    · exact abs_le_abs_of_nonneg h1 h2
    · exact abs_le_abs_of_nonpos h2 h1
  · rw [hchange, hsound.share_full hnet hshares hsmall' hfull]
    exact hsound.sleeve_total hd

end conservation

/-! ### Two runs -/

/-- Distinct values for the contents that the runs below hash. -/
def sampleHashes : Hashes where
  plan _ := "plan"
  revision r := toString r.previousFee ++ ">" ++ toString r.revisedFee
  event e _ := e.eventId
  reconciliation _ := "reconciliation"

def sampleScope : Result Ledger := registerScope .empty "scope" "portfolio" "hash" "account"

def sampleTargets : Result (List SleeveTarget) := do
  let a ← SleeveTarget.new "buy-a" "a" "005930" (.number 2)
  let b ← SleeveTarget.new "buy-b" "b" "005930" (.number 1)
  pure [a, b]

def samplePlan (targets : List SleeveTarget) : Result SymbolNetPlan :=
  buildSymbolNetPlan sampleHashes.plan "scope" "portfolio" "hash" targets (fun _ _ => .number 0)
    (.number 0) (.number 70000)

/-- A fill of order `order-1`. -/
def sampleReport (eventId : String) (quantity : ℚ) (fee : Raw) (state : String) : ExecutionEvent where
  brokerId := "kis"
  brokerOrderId := "order-1"
  eventId := eventId
  symbol := "005930"
  side := "BUY"
  state := state
  quantity := .number quantity
  price := .number 70000
  fee := fee
  rawFee := .absent
  occurredAt := .stamp 5

def sampleFillOf (eventId : String) : ℕ × ℚ := (if eventId = "fill-1" then 1 else 2, 70000)

/-- Two fills out of order, and a late fee for the first. -/
def sampleRun : List (List ExecutionEvent) :=
  [[sampleReport "fill-2" 2 .absent "PARTIAL"],
    [sampleReport "fill-1" 1 .absent "FILLED", sampleReport "fill-1" 1 (.number 7) "FILLED"]]

theorem sampleRun_conserves : ∃ plan l₀ l₂, SleevesConserved plan 3 l₀ l₂ := by
  obtain ⟨l₀, hl₀, targets, -, plan, hplan, l₁, haccept, order, horder, hnet, hreports, htotal,
      hclear⟩ : ∃ l₀, sampleScope = .ok l₀ ∧ ∃ targets, sampleTargets = .ok targets ∧
      ∃ plan, samplePlan targets = .ok plan ∧
      ∃ l₁ : Ledger × Bool, recordAcceptedOrder sampleHashes l₀ plan "order-1" "" (.stamp 0) = .ok l₁ ∧
      ∃ order, orRaise (.key "order") (l₁.1.orderOf plan.scopeId (strip "order-1")) = .ok order ∧
      (plan.quantity = 3 ∧ l₁.2 = true) ∧
      (∀ batch ∈ sampleRun, ∀ event ∈ batch, ReportsFill order sampleFillOf event) ∧
      reportedTotal sampleFillOf (reportedIds sampleRun) = 3 ∧
      RunClear sampleHashes plan.scopeId l₁.1 sampleRun := by
    decide +kernel
  obtain ⟨l₁, created⟩ := l₁
  obtain ⟨hq, rfl⟩ := hnet
  obtain ⟨l₂, _, h⟩ := fills_conserve_sleeves (.single (.registerScope hl₀)) hplan (by omega)
    (by omega) haccept (orRaise_eq_ok.mp horder) hreports (by omega) hclear
  exact ⟨plan, l₀, l₂, htotal ▸ h⟩

/-- Two sleeves whose event ids are the same text. -/
def collidingTargets : Result (List SleeveTarget) := do
  let a ← SleeveTarget.new "b:c" "a" "005930" (.number 1)
  let b ← SleeveTarget.new "c" "a:b" "005930" (.number 1)
  pure [a, b]

/-- The complete fill of a two-share order is refused, so the order's total says
two shares and its sleeves hold none. -/
theorem collidingTargets_refuse_fill :
    ∃ l₀, sampleScope = .ok l₀ ∧ ∃ targets, collidingTargets = .ok targets ∧
      ∃ plan, samplePlan targets = .ok plan ∧
      ∃ l₁ : Ledger × Bool,
        recordAcceptedOrder sampleHashes l₀ plan "order-1" "" (.stamp 0) = .ok l₁ ∧
      ∃ order, orRaise (.key "order") (l₁.1.orderOf plan.scopeId (strip "order-1")) = .ok order ∧
      (plan.quantity = 2 ∧ l₁.2 = true) ∧
      ReportsFill order sampleFillOf (sampleReport "fill-2" 2 .absent "FILLED") ∧
      applyBatches sampleHashes l₁.1 plan.scopeId [[sampleReport "fill-2" 2 .absent "FILLED"]] =
        .error (.integrity "UNIQUE constraint failed: live_portfolio_events_v1.event_id") ∧
      ¬ SleevesConserved plan 2 l₀ l₁.1 := by
  have hrun : ∃ l₀, sampleScope = .ok l₀ ∧ ∃ targets, collidingTargets = .ok targets ∧
      ∃ plan, samplePlan targets = .ok plan ∧
      ∃ l₁ : Ledger × Bool,
        recordAcceptedOrder sampleHashes l₀ plan "order-1" "" (.stamp 0) = .ok l₁ ∧
      ∃ order, orRaise (.key "order") (l₁.1.orderOf plan.scopeId (strip "order-1")) = .ok order ∧
      (plan.quantity = 2 ∧ l₁.2 = true) ∧
      ReportsFill order sampleFillOf (sampleReport "fill-2" 2 .absent "FILLED") ∧
      applyBatches sampleHashes l₁.1 plan.scopeId [[sampleReport "fill-2" 2 .absent "FILLED"]] =
        .error (.integrity "UNIQUE constraint failed: live_portfolio_events_v1.event_id") ∧
      held l₁.1.log plan.scopeId "a" plan.symbol.val - held l₀.log plan.scopeId "a" plan.symbol.val ≠
        sleeveQuantity plan.internalAllocations "a" + shareAt plan.allocations plan.side 2 "a" := by
    decide +kernel
  obtain ⟨l₀, hl₀, targets, ht, plan, hplan, l₁, hl₁, order, ho, hq, hrep, herr, hheld⟩ := hrun
  exact ⟨l₀, hl₀, targets, ht, plan, hplan, l₁, hl₁, order, ho, hq, hrep, herr,
    fun h => hheld (h.change "a")⟩

end LiveTrader.Portfolio
