/-
# `Portfolio.Conservation` — what the fills of one order do to its sleeves

The ledger stores, for every fill, the difference of two cumulative splits.
Telescoping these differences (`activeShares_quantity`), the shares an order has
given its sleeves are a function of the filled total alone, `shareAt`, and the
order's effect on a sleeve is its internal cross plus that share.

For an order from a built plan the shares lie within the external allocations
(`share_within`), add up to the signed fill (`share_sum`) and become the whole
allocations when the order is filled (`share_full`).
-/
import LiveTrader.Portfolio.LedgerSteps
import LiveTrader.Portfolio.PlanSound
import Mathlib.Algebra.BigOperators.Group.Finset.Piecewise

namespace LiveTrader.Portfolio

open Lib.Py Lib.Decimal

/-! ## The share of a sleeve -/

/-- What the first `filled` shares of an order give to a sleeve. -/
def shareAt (allocations : List SleeveAllocation) (side : Side) (filled : ℕ) (sleeveId : String) :
    ℤ :=
  match sharesAt allocations side filled with
  | .ok shares => sleeveQuantity (withQuantities allocations shares) sleeveId
  | .error _ => 0

theorem conserve_length {direction : ℤ} {allocations : List SleeveAllocation} {ideals : List ℚ} :
    ∀ {distance : ℕ} {actual shares : List ℤ},
    conserve direction allocations ideals distance actual = .ok shares →
    shares.length = actual.length
  | 0, actual, shares, h => by
      obtain rfl : actual = shares := by simpa [conserve] using h
      rfl
  | distance + 1, actual, shares, h => by
      rw [conserve] at h
      split at h
      · cases h
      · rw [conserve_length h, List.length_modify]

theorem sharesAt_length {allocations : List SleeveAllocation} {side : Side} {filled : ℕ}
    {shares : List ℤ} (h : sharesAt allocations side filled = .ok shares) :
    shares.length = allocations.length := by
  unfold sharesAt at h
  split_ifs at h
  · simp only [proportionalSignedQuantities, bind_eq_ok] at h
    obtain ⟨_, _, _, _, h⟩ := h
    simp [conserve_length h]
  · obtain rfl := Except.ok.inj h
    simp

@[simp] theorem sleeveQuantity_nil (sleeveId : String) : sleeveQuantity [] sleeveId = 0 := rfl

@[simp] theorem sleeveQuantity_cons (a : SleeveAllocation) (l : List SleeveAllocation)
    (sleeveId : String) : sleeveQuantity (a :: l) sleeveId =
      (if a.sleeveId.val = sleeveId then a.signedQuantity else 0) + sleeveQuantity l sleeveId := by
  simp [sleeveQuantity]

theorem sleeveQuantity_filter (sleeveId : String) : ∀ l : List SleeveAllocation,
    sleeveQuantity (l.filter fun a => a.signedQuantity ≠ 0) sleeveId = sleeveQuantity l sleeveId
  | [] => rfl
  | a :: l => by
      have ih := sleeveQuantity_filter sleeveId l
      by_cases h : a.signedQuantity = 0
      · simpa [h] using ih
      · simpa [h] using ih

theorem sleeveQuantity_sub (sleeveId : String) : ∀ (l : List SleeveAllocation) (xs ys : List ℤ),
    xs.length = l.length → ys.length = l.length →
    sleeveQuantity (withQuantities l (List.zipWith (· - ·) xs ys)) sleeveId =
      sleeveQuantity (withQuantities l xs) sleeveId - sleeveQuantity (withQuantities l ys) sleeveId
  | [], _, _, _, _ => by simp [withQuantities]
  | a :: l, x :: xs, y :: ys, hx, hy => by
      have ih := sleeveQuantity_sub sleeveId l xs ys (by simpa using hx)
        (by simpa using hy)
      simp only [withQuantities, List.zipWith_cons_cons, sleeveQuantity_cons] at ih ⊢
      rw [ih]
      split <;> ring

@[simp] theorem shareAt_zero (allocations : List SleeveAllocation) (side : Side) (sleeveId : String) :
    shareAt allocations side 0 sleeveId = 0 := by
  have hz : sharesAt allocations side 0 = .ok (allocations.map fun _ => 0) := by simp [sharesAt]
  simp only [shareAt, hz]
  induction allocations with
  | nil => rfl
  | cons a l ih =>
    have := ih (by simp [sharesAt])
    simpa [withQuantities] using this

/-- The booked difference telescopes. -/
theorem activeShares_quantity {allocations active : List SleeveAllocation} {side : Side}
    {previous quantity : ℕ} (hq : 0 < quantity)
    (h : activeShares allocations side previous quantity = .ok active) (sleeveId : String) :
    sleeveQuantity active sleeveId = shareAt allocations side (previous + quantity) sleeveId -
      shareAt allocations side previous sleeveId := by
  simp only [activeShares, bind_eq_ok, pure_eq_ok] at h
  obtain ⟨current, hcurrent, prior, hprior, rfl⟩ := h
  have hcurrent' : sharesAt allocations side (previous + quantity) = .ok current := by
    rw [sharesAt, if_pos (by omega), hcurrent]
  rw [sleeveQuantity_filter, sleeveQuantity_sub _ _ _ _ (sharesAt_length hcurrent')
    (sharesAt_length hprior), shareAt, shareAt, hcurrent', hprior]

theorem netQuantity_filter : ∀ l : List SleeveAllocation,
    netQuantity (l.filter fun a => a.signedQuantity ≠ 0) = netQuantity l
  | [] => rfl
  | a :: l => by
      have ih := netQuantity_filter l
      by_cases h : a.signedQuantity = 0
      · simpa [h, netQuantity] using ih
      · simpa [h, netQuantity] using ih

theorem netQuantity_withQuantities : ∀ (l : List SleeveAllocation) (xs : List ℤ),
    xs.length = l.length → netQuantity (withQuantities l xs) = xs.sum
  | [], xs, h => by simp [withQuantities, netQuantity, List.length_eq_zero_iff.mp h]
  | a :: l, x :: xs, h => by
      have ih := netQuantity_withQuantities l xs (by simpa using h)
      simpa [withQuantities, netQuantity] using ih

theorem sum_zipWith_sub : ∀ xs ys : List ℤ, xs.length = ys.length →
    (List.zipWith (· - ·) xs ys).sum = xs.sum - ys.sum
  | [], [], _ => rfl
  | x :: xs, y :: ys, h => by
      have ih := sum_zipWith_sub xs ys (by simpa using h)
      simp only [List.zipWith_cons_cons, List.sum_cons, ih]
      ring

theorem activeShares_net {allocations active : List SleeveAllocation} {side : Side}
    {previous quantity : ℕ} (hq : 0 < quantity)
    (h : activeShares allocations side previous quantity = .ok active) :
    netQuantity active = quantity * side.sign := by
  simp only [activeShares, bind_eq_ok, pure_eq_ok] at h
  obtain ⟨current, hcurrent, prior, hprior, rfl⟩ := h
  have hcurrent' : sharesAt allocations side (previous + quantity) = .ok current := by
    rw [sharesAt, if_pos (by omega), hcurrent]
  have h1 := sharesAt_length hcurrent'
  have h2 := sharesAt_length hprior
  rw [netQuantity_filter, netQuantity_withQuantities _ _ (by simp [h1, h2]),
    sum_zipWith_sub _ _ (h1.trans h2.symm), sharesAt_sum hcurrent', sharesAt_sum hprior]
  push_cast
  ring

theorem natAbs_netQuantity_le : ∀ l : List SleeveAllocation,
    (netQuantity l).natAbs ≤ (l.map (·.signedQuantity.natAbs)).sum
  | [] => le_rfl
  | a :: l => by
      have ih := natAbs_netQuantity_le l
      simp only [netQuantity, List.map_cons, List.sum_cons] at ih ⊢
      omega

theorem activeShares_weights {allocations active : List SleeveAllocation} {side : Side}
    {previous quantity : ℕ} (hq : 0 < quantity)
    (h : activeShares allocations side previous quantity = .ok active) :
    0 < (active.map (·.signedQuantity.natAbs)).sum := by
  have h1 := activeShares_net hq h
  have h2 := natAbs_netQuantity_le active
  rw [h1] at h2
  rcases side.sign_eq with hs | hs <;> rw [hs] at h2 <;> omega

/-- The stored split of a fill. -/
def BrokerFill.shares (f : BrokerFill) : List SleeveAllocation :=
  f.allocations.map fun a => ⟨a.intentId, a.sleeveId, a.signedQuantity⟩

theorem fillAllocations_shares (price : ℚ) : ∀ (active : List SleeveAllocation) (fees : List ℚ),
    fees.length = active.length →
    ((fillAllocations active price fees).map fun a : FillAllocation =>
      (⟨a.intentId, a.sleeveId, a.signedQuantity⟩ : SleeveAllocation)) = active
  | [], _, _ => by simp [fillAllocations]
  | a :: active, fee :: fees, h => by
      have ih := fillAllocations_shares price active fees (by simpa using h)
      simpa [fillAllocations] using ih

/-- **A fill moves every sleeve from one cumulative share to the next.** -/
theorem held_fill {order : OrderRow} {n : Notice} {active : List SleeveAllocation} {fees : List ℚ}
    {previous : ℕ} (hq : 0 < n.quantity)
    (hactive : activeShares order.allocations order.side previous n.quantity = .ok active)
    (hfees : allocateMoney n.fee (active.map (·.signedQuantity.natAbs)) = .ok fees)
    (scopeId : Text) (sleeveId symbol : String) :
    held (fillEvents order.scopeId order n active fees) scopeId sleeveId symbol =
      if order.scopeId = scopeId ∧ n.symbol.val = symbol then
        shareAt order.allocations order.side (previous + n.quantity) sleeveId -
          shareAt order.allocations order.side previous sleeveId
      else 0 := by
  rw [held_fillEvents (by simpa using allocateMoney_length hfees),
    activeShares_quantity hq hactive]

/-! ## Shares of a planned order -/

theorem sleeveQuantity_of_notMem {sleeveId : Text} : ∀ {l : List SleeveAllocation},
    sleeveId ∉ l.map (·.sleeveId) → sleeveQuantity l sleeveId.val = 0
  | [], _ => rfl
  | a :: l, h => by
      simp only [List.map_cons, List.mem_cons, not_or] at h
      rw [sleeveQuantity_cons, sleeveQuantity_of_notMem h.2,
        if_neg fun he => h.1 (Subtype.ext he.symm), zero_add]

theorem sleeveQuantity_of_mem : ∀ {l : List SleeveAllocation}, (l.map (·.sleeveId)).Nodup →
    ∀ {a : SleeveAllocation}, a ∈ l → sleeveQuantity l a.sleeveId.val = a.signedQuantity
  | b :: l, hnd, a, ha => by
      simp only [List.map_cons, List.nodup_cons] at hnd
      rcases List.mem_cons.mp ha with rfl | ha
      · rw [sleeveQuantity_cons, if_pos rfl, sleeveQuantity_of_notMem hnd.1, add_zero]
      · have hne : b.sleeveId.val ≠ a.sleeveId.val := fun h =>
          hnd.1 (Subtype.ext h ▸ List.mem_map_of_mem ha)
        rw [sleeveQuantity_cons, if_neg hne, zero_add, sleeveQuantity_of_mem hnd.2 ha]

theorem withQuantities_sleeves : ∀ (l : List SleeveAllocation) (xs : List ℤ),
    xs.length = l.length → (withQuantities l xs).map (·.sleeveId) = l.map (·.sleeveId)
  | [], _, _ => by simp [withQuantities]
  | a :: l, x :: xs, h => by
      have ih := withQuantities_sleeves l xs (by simpa using h)
      simpa [withQuantities] using ih

/-- Summing over distinct sleeves that cover a list gives its net. -/
theorem sum_sleeveQuantity {sleeves : List Text} (hnd : sleeves.Nodup) :
    ∀ {l : List SleeveAllocation}, (∀ a ∈ l, a.sleeveId ∈ sleeves) →
    (sleeves.map fun s => sleeveQuantity l s.val).sum = netQuantity l
  | [], _ => by simp [netQuantity]
  | a :: l, h => by
      have ih := sum_sleeveQuantity hnd (l := l) fun b hb => h b (List.mem_cons_of_mem _ hb)
      have hone : (sleeves.map fun s : Text =>
          if a.sleeveId.val = s.val then a.signedQuantity else 0).sum = a.signedQuantity := by
        rw [← List.sum_toFinset _ hnd, Finset.sum_congr rfl fun s _ =>
          if_congr (Subtype.val_inj (a := a.sleeveId) (b := s)) rfl rfl, Finset.sum_ite_eq,
          if_pos (List.mem_toFinset.mpr (h a List.mem_cons_self))]
      simp only [sleeveQuantity_cons, List.sum_map_add, hone, ih]
      simp [netQuantity]

/-- The part of a planned sleeve in either allocation list. -/
theorem sleeveQuantity_allocationsOf {deltas : List SleeveDelta} {part : SleeveDelta → ℤ}
    (hnd : (deltas.map (·.sleeveId)).Nodup) {d : SleeveDelta} (hd : d ∈ deltas) :
    sleeveQuantity (allocationsOf deltas part) d.sleeveId.val = part d := by
  have hnd' := hnd.sublist (allocationsOf_sleeves part deltas)
  by_cases hr : part d = 0
  · rw [hr, sleeveQuantity_of_notMem]
    intro hmem
    obtain ⟨a, ha, hs⟩ := List.mem_map.mp hmem
    obtain ⟨d', hd', hne, rfl⟩ := mem_allocationsOf.mp ha
    exact hne (List.inj_on_of_nodup_map hnd hd' hd hs ▸ hr)
  · have ha : (⟨d.intentId, d.sleeveId, part d⟩ : SleeveAllocation) ∈ allocationsOf deltas part :=
      mem_allocationsOf.mpr ⟨d, hd, hr, rfl⟩
    exact sleeveQuantity_of_mem hnd' ha

/-- The share of a sleeve is within the sleeve's allocation. -/
theorem within_sleeve : ∀ {l : List SleeveAllocation} {xs : List ℤ}, SharesWithin l xs →
    (l.map (·.sleeveId)).Nodup → ∀ sleeveId : Text,
    (0 ≤ sleeveQuantity (withQuantities l xs) sleeveId.val ∧
        sleeveQuantity (withQuantities l xs) sleeveId.val ≤ sleeveQuantity l sleeveId.val) ∨
      (sleeveQuantity l sleeveId.val ≤ sleeveQuantity (withQuantities l xs) sleeveId.val ∧
        sleeveQuantity (withQuantities l xs) sleeveId.val ≤ 0)
  | [], _, _, _, _ => by simp [withQuantities]
  | a :: l, x :: xs, .cons hx hxs, hnd, sleeveId => by
      simp only [List.map_cons, List.nodup_cons] at hnd
      have hcons : withQuantities (a :: l) (x :: xs) =
          { a with signedQuantity := x } :: withQuantities l xs := rfl
      rw [hcons, sleeveQuantity_cons, sleeveQuantity_cons]
      by_cases hs : a.sleeveId.val = sleeveId.val
      · -- the sleeve is this one and no other
        have hni : sleeveId ∉ l.map (·.sleeveId) := Subtype.ext hs ▸ hnd.1
        have hni' : sleeveId ∉ (withQuantities l xs).map (·.sleeveId) := by
          rwa [withQuantities_sleeves _ _ hxs.length_eq.symm]
        rw [if_pos hs, if_pos hs, sleeveQuantity_of_notMem hni, sleeveQuantity_of_notMem hni']
        unfold Within at hx
        simpa using hx
      · rw [if_neg hs, if_neg hs, zero_add, zero_add]
        exact within_sleeve hxs hnd.2 sleeveId

namespace PlanSound

variable {plan : PlanPayload} (h : PlanSound plan)
include h

theorem sleeve_external {d : SleeveDelta} (hd : d ∈ plan.deltas) :
    sleeveQuantity plan.allocations d.sleeveId.val = residual plan.deltas d := by
  rw [h.external, sleeveQuantity_allocationsOf h.sleeves hd]

theorem sleeve_internal {d : SleeveDelta} (hd : d ∈ plan.deltas) :
    sleeveQuantity plan.internalAllocations d.sleeveId.val =
      internalCross plan.deltas d.sleeveKey := by
  rw [h.internal, sleeveQuantity_allocationsOf h.sleeves hd]

/-- Cross and external allocation of a sleeve make its whole delta. -/
theorem sleeve_total {d : SleeveDelta} (hd : d ∈ plan.deltas) :
    (d.currentQuantity : ℤ) + (sleeveQuantity plan.internalAllocations d.sleeveId.val +
      sleeveQuantity plan.allocations d.sleeveId.val) = d.targetQuantity := by
  rw [h.sleeve_internal hd, h.sleeve_external hd, residual, h.signed d hd]
  ring

theorem external_natAbs : (netQuantity plan.allocations).natAbs = plan.quantity := by
  rw [h.externalNet, h.quantity]

section order

variable (hq : plan.quantity ≠ 0)
include hq

theorem oneSided : OneSided plan.side plan.allocations :=
  fun _ ha => h.allocation_sign ha hq

/-- The allocations add up to the signed order quantity. -/
theorem external_net : netQuantity plan.allocations = plan.quantity * plan.side.sign := by
  rw [h.externalNet, h.net_eq hq, mul_comm]

theorem external_ne_nil : plan.allocations ≠ [] := by
  intro hnil
  have := h.external_natAbs
  rw [hnil] at this
  exact hq (by simpa [netQuantity] using this.symm)

theorem countable (hsmall : plan.quantity < 10 ^ 28) : Countable plan.allocations := by
  intro a ha
  have hone := h.oneSided hq
  have h1 : a.signedQuantity * plan.side.sign ≤ netQuantity plan.allocations * plan.side.sign := by
    rw [netQuantity, ← List.sum_map_mul_right]
    exact List.single_le_sum (by simpa using fun a ha => (hone a ha).le) _ (List.mem_map_of_mem ha)
  have h2 := hone a ha
  rw [h.external_net hq] at h1
  rw [abs_lt]
  rcases plan.side.sign_eq with hs | hs <;> rw [hs] at h1 h2 <;> constructor <;> omega

theorem shares_ok (hsmall : plan.quantity < 10 ^ 12) {filled : ℕ} (hf : filled ≤ plan.quantity) :
    ∃ shares, sharesAt plan.allocations plan.side filled = .ok shares := by
  unfold sharesAt
  split_ifs
  · refine proportional_ok (h.oneSided hq) (h.external_ne_nil hq) ?_ ?_
    · rwa [h.external_natAbs]
    · rwa [h.external_natAbs]
  · exact ⟨_, rfl⟩

variable {filled : ℕ} {shares : List ℤ}
  (hshares : sharesAt plan.allocations plan.side filled = .ok shares)
include hshares

omit hq in
/-- The shares of all sleeves add up to the signed fill. -/
theorem share_sum : (plan.deltas.map fun d =>
    shareAt plan.allocations plan.side filled d.sleeveId.val).sum = filled * plan.side.sign := by
  have hlen := sharesAt_length hshares
  have hcover : ∀ a ∈ withQuantities plan.allocations shares,
      a.sleeveId ∈ plan.deltas.map (·.sleeveId) := by
    intro a ha
    have hmem : a.sleeveId ∈ (withQuantities plan.allocations shares).map (·.sleeveId) :=
      List.mem_map_of_mem ha
    rw [withQuantities_sleeves _ _ hlen, h.external] at hmem
    exact (allocationsOf_sleeves _ _).subset hmem
  have := sum_sleeveQuantity h.sleeves hcover
  rw [netQuantity_withQuantities _ _ hlen, sharesAt_sum hshares, List.map_map] at this
  simp only [shareAt, hshares]
  exact this

variable (hsmall : plan.quantity < 10 ^ 28)
include hsmall

/-- A share never exceeds the external allocation of its sleeve, nor opposes it. -/
theorem share_within (sleeveId : Text) :
    (0 ≤ shareAt plan.allocations plan.side filled sleeveId.val ∧
        shareAt plan.allocations plan.side filled sleeveId.val ≤
          sleeveQuantity plan.allocations sleeveId.val) ∨
      (sleeveQuantity plan.allocations sleeveId.val ≤
          shareAt plan.allocations plan.side filled sleeveId.val ∧
        shareAt plan.allocations plan.side filled sleeveId.val ≤ 0) := by
  have hw := sharesAt_within (h.countable hq hsmall) hshares
  simpa only [shareAt, hshares] using within_sleeve hw h.external_sleeves sleeveId

/-- A completely filled order gives every sleeve its whole allocation. -/
theorem share_full (hfull : filled = plan.quantity) (sleeveId : String) :
    shareAt plan.allocations plan.side filled sleeveId =
      sleeveQuantity plan.allocations sleeveId := by
  have hw := sharesAt_within (h.countable hq hsmall) hshares
  have hall := shares_full hw (h.oneSided hq) (by rw [sharesAt_sum hshares, h.external_net hq, hfull])
  have hid : ∀ l : List SleeveAllocation, withQuantities l (l.map (·.signedQuantity)) = l := by
    intro l
    induction l with
    | nil => rfl
    | cons a l ih => simpa [withQuantities] using ih
  simp only [shareAt, hshares, hall, hid]

end order

end PlanSound

end LiveTrader.Portfolio
