/-
# `Portfolio.AccumulatedFees` — the fees of sleeves over revisions

A fill splits its fee, and every revision splits the difference to the fee before it.  The parts that a sleeve gets add up
(`sleeveFee`).  Over any run of calls whose fees fit 28 digits (`FeeFits`) the sleeves together carry the current fee, and each of
them its exact share of it up to a step for every other allocation and every split (`FillFees`).  A fee that is lowered may so
leave a sleeve with less than nothing; one that is only raised does not.
-/
import LiveTrader.Portfolio.Calls
import LiveTrader.Portfolio.FeeRuns
import LiveTrader.Portfolio.FeeShares

namespace LiveTrader.Portfolio

open Lib Lib.Py Lib.Decimal

/-! ## The fee of a sleeve -/

/-- What an event adds to the fee of a sleeve for an execution. -/
def Event.sleeveFeeOf (scopeId source : Text) (sleeveId : String) (event : Event) : ℚ :=
  if event.sleeveId = sleeveId then event.feeOf scopeId source else 0

/-- The fee of a sleeve: its part of the fill and of every revision. -/
def sleeveFee (log : List Event) (scopeId source : Text) (sleeveId : String) : ℚ :=
  (log.map (Event.sleeveFeeOf scopeId source sleeveId)).sum

/-- The fee revisions of an execution. -/
def feeDeltas (log : List Event) (scopeId source : Text) : List ℚ := log.filterMap (Event.feeDeltaOf scopeId source)

section log

variable {log log' : List Event} {scopeId source : Text} {sleeveId : String}

theorem sleeveFee_append : sleeveFee (log ++ log') scopeId source sleeveId =
    sleeveFee log scopeId source sleeveId + sleeveFee log' scopeId source sleeveId := by
  simp [sleeveFee]

theorem feeDeltas_append : feeDeltas (log ++ log') scopeId source = feeDeltas log scopeId source ++ feeDeltas log' scopeId source :=
  List.filterMap_append

/-- A log without a word about the execution. -/
def Silent (log : List Event) (scopeId source : Text) : Prop :=
  ∀ event ∈ log, event.scopeId = scopeId → event.payload.source ≠ some source

theorem Silent.sleeveFee (h : Silent log scopeId source) : sleeveFee log scopeId source sleeveId = 0 := by
  refine List.sum_eq_zero fun x hx => ?_
  obtain ⟨event, he, rfl⟩ := List.mem_map.mp hx
  have hfee : event.feeOf scopeId source = 0 := if_neg fun hs => h event he hs.1 hs.2
  unfold Event.sleeveFeeOf
  rw [hfee, ite_self]

theorem Silent.feeDeltas (h : Silent log scopeId source) : feeDeltas log scopeId source = [] := by
  refine List.filterMap_eq_nil_iff.mpr fun event he => ?_
  unfold Event.feeDeltaOf
  split
  · rename_i a hp
    refine if_neg fun hs => h event he hs.1 ?_
    rw [hp, Payload.source, hs.2]
  · rfl

theorem currentFee_append (fee : ℚ) : currentFee (log ++ log') scopeId source fee =
    (feeDeltas log' scopeId source).foldl (fun acc x => ctx 28 (acc + x)) (currentFee log scopeId source fee) := by
  unfold currentFee feeDeltas
  rw [List.filterMap_append, List.foldl_append]

end log

/-! ## Groups -/

section groups

variable {H : Hashes} {order : OrderRow} {n : Notice} {active shares : List SleeveAllocation} {fees deltas : List ℚ} {current : ℚ}

theorem sum_parts_of_sleeve {κ : Type} (f : SleeveAllocation → ℚ → κ) (g : κ → ℚ) (sleeveId : String)
    (hexact : ∀ x ∈ fees, decimalText x = x) (h : ∀ a x, g (f a x) = if a.sleeveId.val = sleeveId then decimalText x else 0) :
    ((List.zipWith f shares fees).map g).sum = selected (fun a => a.sleeveId.val = sleeveId) shares fees := by
  unfold selected
  rw [List.map_zipWith]
  induction shares generalizing fees with
  | nil => rfl
  | cons a shares ih =>
    cases fees with
    | nil => rfl
    | cons fee fees =>
      rw [List.zipWith_cons_cons, List.zipWith_cons_cons, List.sum_cons, List.sum_cons, h, hexact fee List.mem_cons_self,
        ih fun x hx => hexact x (List.mem_cons_of_mem _ hx)]

theorem sleeveFee_fillEvents (hexact : ∀ x ∈ fees, decimalText x = x) (sleeveId : String) :
    sleeveFee (fillEvents order.scopeId order n active fees) order.scopeId n.sourceEventId sleeveId =
      selected (fun a => a.sleeveId.val = sleeveId) active fees := by
  rw [← sum_parts_of_sleeve (fun a fee => (⟨a.intentId, a.sleeveId, a.signedQuantity, decimalText n.price, decimalText fee⟩ :
    FillAllocation)) (fun a => if a.sleeveId.val = sleeveId then a.fee else 0) sleeveId hexact fun _ _ => rfl]
  have hlead : (brokerFillEvent order.scopeId order n (fillAllocations active n.price fees)).sleeveFeeOf order.scopeId n.sourceEventId
      sleeveId = 0 := by
    simp [Event.sleeveFeeOf, Event.feeOf, brokerFillEvent, Payload.amounts, Payload.leg]
  rw [sleeveFee, fillEvents, List.map_cons, List.sum_cons, hlead, zero_add, List.map_map]
  refine congrArg List.sum (List.map_congr_left fun a _ => ?_)
  simp [Event.sleeveFeeOf, Event.feeOf, sleeveFillEvent, Payload.amounts, Payload.leg, Payload.source]

theorem sleeveFee_revisionEvents (hexact : ∀ x ∈ deltas, decimalText x = x) (sleeveId : String) :
    sleeveFee (revisionEvents H order.scopeId order n shares current deltas) order.scopeId n.sourceEventId sleeveId =
      selected (fun a => a.sleeveId.val = sleeveId) shares deltas := by
  rw [← sum_parts_of_sleeve (fun a delta => (⟨a.intentId, a.sleeveId, a.signedQuantity, decimalText delta⟩ : FeeAllocation))
    (fun a => if a.sleeveId.val = sleeveId then a.feeDelta else 0) sleeveId hexact fun _ _ => rfl]
  have hlead : (feeEvent H order.scopeId order n current (feeAllocations shares deltas)).sleeveFeeOf order.scopeId n.sourceEventId
      sleeveId = 0 := by
    simp [Event.sleeveFeeOf, Event.feeOf, feeEvent, Payload.amounts, Payload.leg]
  rw [sleeveFee, revisionEvents, List.map_cons, List.sum_cons, hlead, zero_add, List.map_map]
  refine congrArg List.sum (List.map_congr_left fun a _ => ?_)
  simp [Event.sleeveFeeOf, Event.feeOf, sleeveFeeEvent, Payload.amounts, Payload.source]

end groups

/-! ## The invariant -/

/-- The shares of a stored fill. -/
def Payload.weight (payload : Payload) : ℕ := (payload.storedFill.bind (·.shares)).elim 0 fillWeight

/-- The fee of a row has at most `k` decimals, and leaves room for its products with the shares it is split over. -/
def FeeFits (k : ℕ) (l : Ledger) (order : OrderRow) (n : Notice) : Prop :=
  OnGrid k n.fee ∧
    (∀ active ∈ (activeShares order.allocations order.side (filledQuantities l.log order.scopeId order.planId) n.quantity).toOption,
      n.fee * 10 ^ k * fillWeight active < 10 ^ 27) ∧
    ∀ event ∈ l.stored (fillId order.scopeId n.sourceEventId), n.fee * 10 ^ k * event.payload.weight < 10 ^ 27

instance (k : ℕ) (l : Ledger) (order : OrderRow) (n : Notice) : Decidable (FeeFits k l order n) := by
  unfold FeeFits; infer_instance

/-- Fees that fit, in every call. -/
def feesFit (k : ℕ) : Conditions where
  plan _ _ := True
  row := FeeFits k
  scope _ := True

/-- What the sleeves of a recorded fill carry of its fee: together the current fee, each its exact share up to a step for every
other allocation and every split; while no revision has lowered the fee, never less than nothing or more than all. -/
structure FeeCarried (log : List Event) (scopeId source : Text) (f : BrokerFill) : Prop where
  total : sleeveFees log scopeId source = currentFee log scopeId source f.fee
  near : ∀ sleeveId, |sleeveFee log scopeId source sleeveId -
    currentFee log scopeId source f.fee * sleeveWeight f.shares sleeveId / fillWeight f.shares| ≤
      (f.shares.length - 1 : ℕ) * (1 + (feeDeltas log scopeId source).length) / 10 ^ 8
  raised : (∀ delta ∈ feeDeltas log scopeId source, 0 ≤ delta) → ∀ sleeveId,
    0 ≤ sleeveFee log scopeId source sleeveId ∧ sleeveFee log scopeId source sleeveId ≤ currentFee log scopeId source f.fee

/-- The current fee of a recorded fill still fits. -/
structure FillFees (k : ℕ) (log : List Event) (scopeId source : Text) (f : BrokerFill) : Prop
    extends FeeCarried log scopeId source f where
  weight : 0 < fillWeight f.shares
  grid : OnGrid k (currentFee log scopeId source f.fee)
  nonneg : 0 ≤ currentFee log scopeId source f.fee
  small : currentFee log scopeId source f.fee * 10 ^ k * fillWeight f.shares < 10 ^ 27

/-- Every recorded fill. -/
def FeesSplit (k : ℕ) (l : Ledger) : Prop :=
  ∀ scopeId source, ∀ event ∈ l.stored (fillId scopeId source), event.scopeId = scopeId → ∀ f, event.payload = .brokerFill f →
    f.sourceEventId = source → FillFees k l.log scopeId source f

section invariant

variable {H : Hashes} {k : ℕ} {l l' : Ledger} {order : OrderRow} {n : Notice} {log log' : List Event} {scopeId source : Text}
  {f : BrokerFill}

/-- A group without a word about the execution. -/
theorem FillFees.silent (h : FillFees k log scopeId source f) (hsilent : Silent log' scopeId source) :
    FillFees k (log ++ log') scopeId source f := by
  have hcurrent : currentFee (log ++ log') scopeId source f.fee = currentFee log scopeId source f.fee := by
    rw [currentFee_append, hsilent.feeDeltas]
    rfl
  have hdeltas : feeDeltas (log ++ log') scopeId source = feeDeltas log scopeId source := by
    rw [feeDeltas_append, hsilent.feeDeltas, List.append_nil]
  have hsleeve : ∀ sleeveId, sleeveFee (log ++ log') scopeId source sleeveId = sleeveFee log scopeId source sleeveId := by
    intro sleeveId
    rw [sleeveFee_append, hsilent.sleeveFee, add_zero]
  refine ⟨⟨?_, fun sleeveId => ?_, fun hraised sleeveId => ?_⟩, h.weight, hcurrent ▸ h.grid, hcurrent ▸ h.nonneg, hcurrent ▸ h.small⟩
  · rw [hcurrent, sleeveFees_append, sleeveFees_eq_zero hsilent, add_zero, h.total]
  · rw [hcurrent, hdeltas, hsleeve]
    exact h.near sleeveId
  · rw [hdeltas] at hraised
    rw [hcurrent, hsleeve]
    exact h.raised hraised sleeveId

/-- A fee that fits is booked as it is. -/
theorem fits_exact {x : ℚ} {weight : ℕ} (hx : OnGrid k x) (hweight : 0 < weight) (hsmall : |x| * 10 ^ k * weight < 10 ^ 27) :
    decimalText x = x := by
  refine ctx_of_onGrid hx ?_
  have hone : (1 : ℚ) ≤ weight := by exact_mod_cast hweight
  have hle : |x| * 10 ^ k ≤ |x| * 10 ^ k * weight := le_mul_of_one_le_right (by positivity) hone
  exact (hle.trans_lt hsmall).trans (by norm_num)

/-- The parts of an amount are booked as they are. -/
theorem FeeSplit.exact {total : ℚ} {shares : List SleeveAllocation} {parts : List ℚ} (h : FeeSplit k total shares parts)
    (hweight : 0 < fillWeight shares) (hsmall : |total| * 10 ^ k * fillWeight shares < 10 ^ 27) : ∀ x ∈ parts, decimalText x = x := by
  intro x hx
  refine fits_exact (h.grid x hx) hweight (lt_of_le_of_lt ?_ hsmall)
  have hle := (h.sign x hx).2
  gcongr

theorem sleeveFees_revisionEvents {shares : List SleeveAllocation} {current : ℚ} {deltas : List ℚ} (hlen : shares.length = deltas.length)
    (hexact : ∀ x ∈ deltas, decimalText x = x) :
    sleeveFees (revisionEvents H order.scopeId order n shares current deltas) order.scopeId n.sourceEventId = deltas.sum := by
  have hdeltas := feeAllocations_deltas shares deltas hlen.symm hexact
  rw [← hdeltas]
  simp [sleeveFees, revisionEvents, Event.feeOf, feeEvent, sleeveFeeEvent, Payload.source, Payload.amounts, Payload.leg,
    Function.comp_def, hdeltas]

theorem feeDeltas_revisionEvents {shares : List SleeveAllocation} {current : ℚ} {deltas : List ℚ} :
    feeDeltas (revisionEvents H order.scopeId order n shares current deltas) order.scopeId n.sourceEventId =
      [decimalText (ctx 28 (n.fee - current))] := by
  have hlead : (feeEvent H order.scopeId order n current (feeAllocations shares deltas)).feeDeltaOf order.scopeId n.sourceEventId =
      some (decimalText (ctx 28 (n.fee - current))) := if_pos ⟨rfl, rfl⟩
  unfold feeDeltas revisionEvents
  rw [List.filterMap_cons_some hlead, List.filterMap_eq_nil_iff.mpr]
  intro event he
  obtain ⟨a, _, rfl⟩ := List.mem_map.mp he
  rfl

/-- **A new fill.** -/
theorem FillFees.fill {active : List SleeveAllocation} {fees : List ℚ} (hsilent : Silent log order.scopeId n.sourceEventId)
    (hfee : 0 ≤ n.fee) (hgrid : OnGrid k n.fee) (hweight : 0 < fillWeight active) (hsmall : n.fee * 10 ^ k * fillWeight active < 10 ^ 27)
    (hsplit : FeeSplit k n.fee active fees) (hbooked : f.fee = decimalText n.fee) (hshares : f.shares = active) :
    FillFees k (log ++ fillEvents order.scopeId order n active fees) order.scopeId n.sourceEventId f := by
  rw [← abs_of_nonneg hfee] at hsmall
  have hexact := hsplit.exact hweight hsmall
  rw [fits_exact hgrid hweight hsmall] at hbooked
  rw [abs_of_nonneg hfee] at hsmall
  have hnone : feeDeltas (log ++ fillEvents order.scopeId order n active fees) order.scopeId n.sourceEventId = [] := by
    rw [feeDeltas_append, hsilent.feeDeltas, List.nil_append]
    refine List.filterMap_eq_nil_iff.mpr fun event he => ?_
    rcases List.mem_cons.mp he with rfl | he
    · rfl
    · obtain ⟨a, _, rfl⟩ := List.mem_map.mp he
      rfl
  have hcurrent : currentFee (log ++ fillEvents order.scopeId order n active fees) order.scopeId n.sourceEventId f.fee = n.fee := by
    have hfold := hnone
    unfold feeDeltas at hfold
    rw [currentFee, hfold, hbooked]
    rfl
  have hsleeve : ∀ sleeveId, sleeveFee (log ++ fillEvents order.scopeId order n active fees) order.scopeId n.sourceEventId sleeveId =
      selected (fun a => a.sleeveId.val = sleeveId) active fees := by
    intro sleeveId
    rw [sleeveFee_append, hsilent.sleeveFee, zero_add, sleeveFee_fillEvents hexact]
  refine ⟨⟨?_, fun sleeveId => ?_, fun _ sleeveId => ?_⟩, hshares ▸ hweight, hcurrent ▸ hgrid, hcurrent ▸ hfee,
    hcurrent ▸ hshares ▸ hsmall⟩
  · rw [hcurrent, sleeveFees_append, sleeveFees_eq_zero hsilent, zero_add, sleeveFees_fillEvents,
      fillAllocations_fees n.price _ _ hsplit.length.symm hexact, hsplit.sum]
  · rw [hcurrent, hnone, hsleeve, hshares, List.length_nil, Nat.cast_zero, add_zero, mul_one]
    exact hsplit.near sleeveId
  · rw [hcurrent, hsleeve, ← hsplit.sum]
    exact selected_nonneg hsplit.length fun x hx => hsplit.nonneg hfee hx

/-- **A revision.** -/
theorem FillFees.revise {deltas : List ℚ} (h : FillFees k log order.scopeId n.sourceEventId f) (hfee : 0 ≤ n.fee)
    (hgrid : OnGrid k n.fee) (hsmall : n.fee * 10 ^ k * fillWeight f.shares < 10 ^ 27) {current : ℚ}
    (hcurrent : currentFee log order.scopeId n.sourceEventId f.fee = current) (hdelta : ctx 28 (n.fee - current) = n.fee - current)
    (hroom : |n.fee - current| * 10 ^ k * fillWeight f.shares < 10 ^ 27) (hsplit : FeeSplit k (n.fee - current) f.shares deltas) :
    FillFees k (log ++ revisionEvents H order.scopeId order n f.shares current deltas) order.scopeId n.sourceEventId f := by
  have hexact := hsplit.exact h.weight hroom
  have hgrown : feeDeltas (log ++ revisionEvents H order.scopeId order n f.shares current deltas) order.scopeId n.sourceEventId =
      feeDeltas log order.scopeId n.sourceEventId ++ [n.fee - current] := by
    rw [feeDeltas_append, feeDeltas_revisionEvents, hdelta, fits_exact (hgrid.sub (hcurrent ▸ h.grid)) h.weight hroom]
  have hnow : currentFee (log ++ revisionEvents H order.scopeId order n f.shares current deltas) order.scopeId n.sourceEventId f.fee =
      n.fee := by
    rw [currentFee_append, feeDeltas_revisionEvents, hdelta, fits_exact (hgrid.sub (hcurrent ▸ h.grid)) h.weight hroom, hcurrent]
    show ctx 28 (current + (n.fee - current)) = n.fee
    rw [add_sub_cancel]
    have hfits := fits_exact hgrid h.weight (by rwa [abs_of_nonneg hfee])
    exact hfits
  have hsleeve : ∀ sleeveId, sleeveFee (log ++ revisionEvents H order.scopeId order n f.shares current deltas) order.scopeId
      n.sourceEventId sleeveId = sleeveFee log order.scopeId n.sourceEventId sleeveId +
        selected (fun a => a.sleeveId.val = sleeveId) f.shares deltas := by
    intro sleeveId
    rw [sleeveFee_append, sleeveFee_revisionEvents hexact]
  refine ⟨⟨?_, fun sleeveId => ?_, fun hraised sleeveId => ?_⟩, h.weight, hnow ▸ hgrid, hnow ▸ hfee, hnow ▸ hsmall⟩
  · rw [hnow, sleeveFees_append, sleeveFees_revisionEvents hsplit.length hexact, h.total, hcurrent, hsplit.sum]
    ring
  · -- one more split, one more step for every other allocation
    have hold := h.near sleeveId
    have hnew := hsplit.near sleeveId
    rw [hcurrent] at hold
    rw [hnow, hsleeve, hgrown, List.length_append, List.length_singleton]
    have hsum := (abs_add_le _ _).trans (add_le_add hold hnew)
    refine le_trans (le_of_eq (congrArg abs ?_)) (hsum.trans_eq ?_)
    · ring
    · push_cast
      ring
  · rw [hgrown] at hraised
    have hdeltaNonneg : 0 ≤ n.fee - current := hraised _ (List.mem_append_right _ (List.mem_singleton_self _))
    obtain ⟨hlow, hhigh⟩ := h.raised (fun delta hmem => hraised delta (List.mem_append_left _ hmem)) sleeveId
    obtain ⟨hpart, hparts⟩ := selected_nonneg (p := fun a : SleeveAllocation => a.sleeveId.val = sleeveId) hsplit.length
      fun x hx => hsplit.nonneg hdeltaNonneg hx
    rw [hsplit.sum] at hparts
    rw [hcurrent] at hhigh
    rw [hnow, hsleeve]
    exact ⟨by linarith, by linarith⟩

/-! ### Every group -/

theorem stored_append_eq {events : List Event} {eventId : String} (hlog : l'.log = l.log ++ events) :
    l'.stored eventId = (l.stored eventId).or (events.find? (·.eventId = eventId)) := by
  unfold Ledger.stored
  rw [hlog, List.find?_append]

theorem silent_of_source {events : List Event} {scopeId' source' : Text} (h : ∀ event ∈ events, event.scopeId = scopeId' ∧
    event.payload.source = some source') (hother : ¬ (scopeId' = scopeId ∧ source' = source)) : Silent events scopeId source := by
  intro event he hscope hsource
  obtain ⟨hscope', hsource'⟩ := h event he
  exact hother ⟨hscope'.symm.trans hscope, Option.some.inj (hsource'.symm.trans hsource)⟩

theorem Hands.feesSplit (hk : 8 ≤ k) {rows : List OrderRow} {group : List Event} (h : Hands H (feesFit k) l rows group) {event : Event}
    (hstored : l.stored (fillId scopeId source) = some event) (hp : event.payload = .brokerFill f)
    (hfill : FillFees k l.log scopeId source f) : FillFees k (l.log ++ group) scopeId source f := by
  have hquiet : (∀ e ∈ group, e.payload.source = none) → FillFees k (l.log ++ group) scopeId source f := fun hnone =>
    hfill.silent fun e he _ hs => by rw [hnone e he] at hs; cases hs
  cases h with
  | accepted _ _ _ _ _ _ hcross =>
    refine hquiet fun e he => ?_
    rcases List.mem_cons.mp he with rfl | he
    · rfl
    · exact crossEvents_source hcross he
  | crossed _ _ hcross => exact hquiet fun e he => crossEvents_source hcross he
  | terminal => exact hquiet fun e he => by rw [List.mem_singleton.mp he]; rfl
  | reconciled => exact hquiet fun e he => by rw [List.mem_singleton.mp he]; rfl
  | @fill order n _ _ _ _ _ _ _ hnone _ _ _ =>
    refine hfill.silent (silent_of_source (fun e he => fillEvents_source he) ?_)
    rintro ⟨rfl, rfl⟩
    rw [hnone] at hstored
    cases hstored
  | @revised order n event' stored shares deltas horder hrow hfee hstored' hpayload hshares hquantity hzero hcurrent hdeltas =>
    by_cases hsame : order.scopeId = scopeId ∧ n.sourceEventId = source
    · obtain ⟨rfl, rfl⟩ := hsame
      obtain rfl := Option.some.inj (hstored.symm.trans hstored')
      rw [hp] at hpayload
      obtain rfl := Option.some.inj hpayload
      obtain rfl : f.shares = shares := Option.some.inj hshares
      obtain ⟨hgrid, -, hroom⟩ := hrow
      have hsmall : n.fee * 10 ^ k * fillWeight f.shares < 10 ^ 27 := by
        have hall := hroom event hstored
        rw [hp] at hall
        exact hall
      have hdiff : |n.fee - currentFee l.log order.scopeId n.sourceEventId f.fee| * 10 ^ k * fillWeight f.shares < 10 ^ 27 := by
        rcases le_total n.fee (currentFee l.log order.scopeId n.sourceEventId f.fee) with hle | hle
        · refine lt_of_le_of_lt ?_ hfill.small
          rw [abs_of_nonpos (by linarith)]
          gcongr
          linarith
        · refine lt_of_le_of_lt ?_ hsmall
          rw [abs_of_nonneg (by linarith)]
          gcongr
          linarith [hfill.nonneg]
      have hexact : ctx 28 (n.fee - currentFee l.log order.scopeId n.sourceEventId f.fee) =
          n.fee - currentFee l.log order.scopeId n.sourceEventId f.fee := fits_exact (hgrid.sub hfill.grid) hfill.weight hdiff
      have hsplit : allocateMoney (n.fee - currentFee l.log order.scopeId n.sourceEventId f.fee)
          (f.shares.map (·.signedQuantity.natAbs)) = .ok deltas := by
        rw [← hexact]
        exact hdeltas
      exact hfill.revise hfee hgrid hsmall rfl hexact hdiff (allocateMoney_split hk (hgrid.sub hfill.grid) hfill.weight hdiff hsplit)
    · exact hfill.silent (silent_of_source (fun e he => revisionEvents_source he) hsame)

theorem Commits.feesSplit (hk : 8 ≤ k) (hfees : FeesBooked l) (h : FeesSplit k l) (step : Commits H (feesFit k) l l') :
    FeesSplit k l' := by
  cases step with
  | scope _ hlog _ =>
    intro scopeId source event hstored
    have hsame : l'.stored (fillId scopeId source) = l.stored (fillId scopeId source) := by
      unfold Ledger.stored
      rw [hlog]
    rw [hlog]
    exact h scopeId source event (hsame ▸ hstored)
  | @group rows group _ hands happ =>
    intro scopeId source event hstored hscope f hp hsource
    rw [Option.mem_def, stored_append_eq happ.log] at hstored
    rw [happ.log]
    cases hold : l.stored (fillId scopeId source) with
    | some recorded =>
      rw [show ({ l with orders := l.orders ++ rows } : Ledger).stored (fillId scopeId source) = some recorded from hold,
        Option.some_or] at hstored
      obtain rfl := Option.some.inj hstored
      exact hands.feesSplit hk hold hp (h scopeId source recorded hold hscope f hp hsource)
    | none =>
      rw [show ({ l with orders := l.orders ++ rows } : Ledger).stored (fillId scopeId source) = none from hold, Option.none_or]
        at hstored
      have hmem := List.mem_of_find?_eq_some hstored
      have hsilent : Silent l.log scopeId source := fun e he hscope hs =>
        stored_eq_none.mp hold (hscope ▸ hfees.source e he source hs)
      cases hands with
      | accepted _ _ _ _ _ _ hcross =>
        rcases List.mem_cons.mp hmem with rfl | hmem
        · cases hp
        · have hnone := crossEvents_source hcross hmem
          rw [hp] at hnone
          cases hnone
      | crossed _ _ hcross =>
        have hnone := crossEvents_source hcross hmem
        rw [hp] at hnone
        cases hnone
      | terminal =>
        obtain rfl := List.mem_singleton.mp hmem
        cases hp
      | reconciled =>
        obtain rfl := List.mem_singleton.mp hmem
        cases hp
      | revised => exact absurd hp ((neutral_revisionEvents event hmem).2 f)
      | @fill order n active fees _ hrow _ hq hfee _ _ hactive hsplit =>
        rcases List.mem_cons.mp hmem with rfl | hmem
        · obtain rfl := Payload.brokerFill.inj hp
          obtain rfl : order.scopeId = scopeId := hscope
          obtain rfl : n.sourceEventId = source := hsource
          obtain ⟨hgrid, hroom, -⟩ := hrow
          have hsmall := hroom active (by rw [hactive]; rfl)
          have hweight : 0 < fillWeight active := activeShares_weights hq hactive
          have hfeeSplit := allocateMoney_split hk hgrid hweight (by rwa [abs_of_nonneg hfee]) hsplit
          exact FillFees.fill hsilent hfee hgrid hweight hsmall hfeeSplit rfl (fillAllocations_shares n.price _ _ hfeeSplit.length.symm)
        · obtain ⟨_, _, rfl⟩ := List.mem_map.mp hmem
          cases hp

end invariant

/-! ## The law -/

/-- The shares of a total: they sum to it, each has its sign and at most its magnitude. -/
def SplitsWhole (total : ℚ) (weights : List ℚ) : Prop :=
  ∃ shares, allocateShares total weights = .ok shares ∧ shares.length = weights.length ∧ shares.sum = total ∧
    ∀ share ∈ shares, 0 ≤ total * share ∧ |share| ≤ |total|

theorem ctxSum_of_zero {weights : List ℚ} (h : ∀ weight ∈ weights, weight = 0) : ctxSum 28 weights = 0 := by
  rw [List.eq_replicate_of_mem h]
  induction weights.length with
  | zero => rfl
  | succ n ih =>
    rw [ctxSum, List.replicate_succ, List.foldl_cons, add_zero, ctx_zero]
    exact ih

/-- **Fees are split whole, and no split takes a share away.**  One call shares a total out among weights; over a run of calls the
shares of a fill's fee add up to the current fee, sleeve by sleeve to its part of it. -/
theorem fees_are_split_whole {k : ℕ} (hk : 8 ≤ k) :
    (∀ j total weights, Splittable k j total weights → SplitsWhole total weights) ∧
    (∀ weights, allocateShares 0 weights = .ok (weights.map fun _ => 0)) ∧
    (∀ total weights, total ≠ 0 → (∀ weight ∈ weights, weight = 0) →
      allocateShares total weights = .error (.value "fee allocation requires a non-zero fill")) ∧
    ∀ H calls l, Runs.Run (callStep H) (fun l call => call.Meets H (feesFit k) l) Ledger.empty calls l →
      ∀ scopeId source, ∀ event ∈ l.stored (fillId scopeId source), event.scopeId = scopeId → ∀ f,
        event.payload = .brokerFill f → f.sourceEventId = source → FeeCarried l.log scopeId source f := by
  refine ⟨fun _ _ _ h => allocateShares_law h, fun weights => if_pos rfl, fun total weights htotal hzero => ?_, ?_⟩
  · rw [allocateShares, if_neg htotal, ctxSum_of_zero hzero]
    rfl
  · intro H calls l hrun scopeId source event hstored hscope f hp hsource
    have hempty : FeesSplit k Ledger.empty := fun _ _ _ hnone => by cases hnone
    have hsplit := (calls_invariant hempty (fun _ hfees step h => step.feesSplit hk hfees h) hrun).2.2
    exact (hsplit scopeId source event hstored hscope f hp hsource).toFeeCarried

/-! ## Samples -/

/-- Three sleeves with one share each. -/
def evenTargets : Result (List SleeveTarget) := do
  let a ← SleeveTarget.new "buy-a" "a" "005930" (.number 1)
  let b ← SleeveTarget.new "buy-b" "b" "005930" (.number 1)
  let c ← SleeveTarget.new "buy-c" "c" "005930" (.number 1)
  pure [a, b, c]

def sampleFeeReport (fee : ℚ) : List ExecutionEvent := [sampleReport "fill-1" 3 (.number fee) "FILLED"]

/-- An order for them, and two batches for the order. -/
def sampleFeeRun (first next : List ExecutionEvent) : Result (SymbolNetPlan × Ledger × Ledger × Ledger) := do
  let l ← sampleScope
  let targets ← evenTargets
  let plan ← samplePlan targets
  let accepted ← recordAcceptedOrder sampleHashes l plan "order-1" "" (.stamp 0)
  let filled ← applyExecutionEvents sampleHashes accepted.1 "scope" first
  let after ← applyExecutionEvents sampleHashes filled.1 "scope" next
  pure (plan, accepted.1, filled.1, after.1)

def Payload.fill : Payload → Option BrokerFill
  | .brokerFill f => some f
  | _ => none

theorem Payload.fill_eq_some {payload : Payload} {f : BrokerFill} (h : f ∈ payload.fill) : payload = .brokerFill f := by
  cases payload with
  | brokerFill g => exact congrArg _ (Option.some.inj h)
  | _ => cases h

/-- The fees of the batches fit; sleeve `c` carries `part` of `current` in the end. -/
structure SampleCarries (first next : List ExecutionEvent) (plan : SymbolNetPlan) (l₀ l₁ l : Ledger) (part current : ℚ) : Prop where
  scope : text "scope" "scope_id" = .ok plan.scopeId
  fill : BatchMeets sampleHashes (FeeFits 8) plan.scopeId l₀ first
  revision : BatchMeets sampleHashes (FeeFits 8) plan.scopeId l₁ next
  event : ∃ event ∈ l.log, event.scopeId = plan.scopeId ∧ ∃ f ∈ event.payload.fill,
    l.stored (fillId plan.scopeId f.sourceEventId) = some event ∧
    sleeveFee l.log plan.scopeId f.sourceEventId "c" = part ∧ currentFee l.log plan.scopeId f.sourceEventId f.fee = current

section sample

variable {first next : List ExecutionEvent} {plan : SymbolNetPlan} {l₀ l₁ l : Ledger}

theorem sampleCarries_iff {part current : ℚ} : (text "scope" "scope_id" = .ok plan.scopeId ∧
      (BatchMeets sampleHashes (FeeFits 8) plan.scopeId l₀ first ∧ BatchMeets sampleHashes (FeeFits 8) plan.scopeId l₁ next) ∧
      ∃ event ∈ l.log, event.scopeId = plan.scopeId ∧ ∃ f ∈ event.payload.fill,
        l.stored (fillId plan.scopeId f.sourceEventId) = some event ∧
        sleeveFee l.log plan.scopeId f.sourceEventId "c" = part ∧ currentFee l.log plan.scopeId f.sourceEventId f.fee = current) ↔
    SampleCarries first next plan l₀ l₁ l part current := by
  constructor
  · rintro ⟨hscope, ⟨hfill, hrevision⟩, hevent⟩
    exact ⟨hscope, hfill, hrevision, hevent⟩
  · intro h
    exact ⟨h.scope, ⟨h.fill, h.revision⟩, h.event⟩

instance (part current : ℚ) : Decidable (SampleCarries first next plan l₀ l₁ l part current) := decidable_of_iff _ sampleCarries_iff

theorem sampleFeeRun_run {part current : ℚ} (h : sampleFeeRun first next = .ok (plan, l₀, l₁, l))
    (hmeets : SampleCarries first next plan l₀ l₁ l part current) :
    Runs.Run (callStep sampleHashes) (fun l call => call.Meets sampleHashes (feesFit 8) l) Ledger.empty
      [.registerScope "scope" "portfolio" "hash" "account", .accept plan "order-1" "" (.stamp 0), .apply "scope" first,
        .apply "scope" next] l := by
  simp only [sampleFeeRun, bind_eq_ok, pure_eq_ok, Prod.mk.injEq] at h
  obtain ⟨l', hl', _, _, plan, _, accepted, haccept, filled, hfill, after, hafter, rfl, rfl, rfl, rfl⟩ := h
  have hbatch : ∀ {l : Ledger} {batch : List ExecutionEvent}, BatchMeets sampleHashes (FeeFits 8) plan.scopeId l batch →
      (Call.apply "scope" batch).Meets sampleHashes (feesFit 8) l := by
    intro l batch h scope hscope
    rw [← Except.ok.inj (hmeets.scope.symm.trans hscope)]
    exact h
  exact .cons trivial (callStep_eq_some.mpr hl') (.cons trivial (callStep_eq_some.mpr (bind_eq_ok.mpr ⟨accepted, haccept, rfl⟩))
    (.cons (hbatch hmeets.fill) (callStep_eq_some.mpr (bind_eq_ok.mpr ⟨filled, hfill, rfl⟩))
      (.cons (hbatch hmeets.revision) (callStep_eq_some.mpr (bind_eq_ok.mpr ⟨after, hafter, rfl⟩)) (.nil _))))

end sample

/-- One shared out among two, and a fee of one over three shares that is raised to two. -/
theorem sample_fees_split_whole : SplitsWhole 1 [1, 2] ∧ ∃ (l : Ledger) (scopeId : Text) (f : BrokerFill),
    FeeCarried l.log scopeId f.sourceEventId f ∧ sleeveFee l.log scopeId f.sourceEventId "c" = 66666668 / 10 ^ 8 ∧
      currentFee l.log scopeId f.sourceEventId f.fee = 2 := by
  obtain ⟨⟨plan, l₀, l₁, l⟩, hrun, hsample⟩ : ∃ s, sampleFeeRun (sampleFeeReport 1) (sampleFeeReport 2) = .ok s ∧
      SampleCarries (sampleFeeReport 1) (sampleFeeReport 2) s.1 s.2.1 s.2.2.1 s.2.2.2 (66666668 / 10 ^ 8) 2 := by
    decide +kernel
  obtain ⟨hwhole, -, -, hcarried⟩ := fees_are_split_whole (le_refl 8)
  obtain ⟨event, -, hscope, f, hf, hstored, hpart, hcurrent⟩ := hsample.event
  refine ⟨hwhole 0 1 [1, 2] ⟨le_rfl, ⟨10 ^ 8, by norm_num⟩, ?_, by norm_num, by norm_num⟩, l, plan.scopeId, f, ?_, hpart, hcurrent⟩
  · intro weight hmem
    rcases List.mem_pair.mp hmem with rfl | rfl
    · exact ⟨⟨1, by norm_num⟩, by norm_num⟩
    · exact ⟨⟨2, by norm_num⟩, by norm_num⟩
  · exact hcarried _ _ l (sampleFeeRun_run hrun hsample) plan.scopeId f.sourceEventId event hstored hscope f
      (Payload.fill_eq_some hf) rfl

/-- Weights of nothing raise; a total of 28 digits is shared out with an opposite sign; and a fee of three steps over three shares
that is lowered to one takes the last sleeve below zero. -/
theorem lowered_fee_is_negative :
    (allocateShares 1 [0, 0] = .error (.value "fee allocation requires a non-zero fill") ∧
      ∃ shares, allocateShares ((10 ^ 28 - 1) / 10 ^ 36) [3, 0] = .ok shares ∧
        ∃ share ∈ shares, (10 ^ 28 - 1) / 10 ^ 36 * share < 0) ∧
    ∃ calls l, Runs.Run (callStep sampleHashes) (fun l call => call.Meets sampleHashes (feesFit 8) l) Ledger.empty calls l ∧
      ∃ (scopeId : Text) (f : BrokerFill), (∃ event ∈ l.log, event.scopeId = scopeId ∧ event.payload = .brokerFill f) ∧
        0 < currentFee l.log scopeId f.sourceEventId f.fee ∧ sleeveFee l.log scopeId f.sourceEventId "c" < 0 := by
  obtain ⟨⟨plan, l₀, l₁, l⟩, hrun, hsample⟩ :
      ∃ s, sampleFeeRun (sampleFeeReport (3 / 10 ^ 8)) (sampleFeeReport (1 / 10 ^ 8)) = .ok s ∧
        SampleCarries (sampleFeeReport (3 / 10 ^ 8)) (sampleFeeReport (1 / 10 ^ 8)) s.1 s.2.1 s.2.2.1 s.2.2.2 (-1 / 10 ^ 8)
          (1 / 10 ^ 8) := by
    decide +kernel
  obtain ⟨event, hmem, hscope, f, hf, -, hpart, hcurrent⟩ := hsample.event
  refine ⟨by decide +kernel, _, l, sampleFeeRun_run hrun hsample, plan.scopeId, f, ⟨event, hmem, hscope, Payload.fill_eq_some hf⟩,
    ?_, ?_⟩
  · rw [hcurrent]
    norm_num
  · rw [hpart]
    norm_num

end LiveTrader.Portfolio
