/-
# `Portfolio.Crossing` — crossing is exact and maximal

What the buyers cross is what the sellers give up, and the loop ends when one side is used up: the smaller side
is crossed in full.  `Crosses` says of two allocation lists what this means for every delta and for the sums.
-/
import LiveTrader.Portfolio.PlanSound

namespace LiveTrader.Portfolio

open Lib.Py Lib.Decimal

/-! ## Parts of a delta -/

/-- What a list allocates to a sleeve and intent. -/
def partOf (allocations : List SleeveAllocation) (key : SleeveKey) : ℤ :=
  (allocations.map fun a => if a.sleeveKey = key then a.signedQuantity else 0).sum

/-- Nothing, or of the sign of a quantity and no more than it. -/
def Toward (signed part : ℤ) : Prop := (0 ≤ part ∧ part ≤ signed) ∨ (signed ≤ part ∧ part ≤ 0)

/-- What is bought by some quantities. -/
def bought (quantities : List ℤ) : ℤ := (quantities.map fun q => max 0 q).sum

/-- What is sold by some quantities. -/
def sold (quantities : List ℤ) : ℤ := (quantities.map fun q => max 0 (-q)).sum

/-- The deltas are split exactly, and as much as can be crossed is crossed. -/
structure Crosses (deltas : List SleeveDelta) (internal external : List SleeveAllocation) : Prop where
  parts : ∀ d ∈ deltas, partOf internal d.sleeveKey + partOf external d.sleeveKey = d.signedQuantity
  internal_toward : ∀ d ∈ deltas, Toward d.signedQuantity (partOf internal d.sleeveKey)
  external_toward : ∀ d ∈ deltas, Toward d.signedQuantity (partOf external d.sleeveKey)
  internal_net : netQuantity internal = 0
  maximal : bought (internal.map (·.signedQuantity)) =
    min (bought (deltas.map (·.signedQuantity))) (sold (deltas.map (·.signedQuantity)))
  external_sign : ∀ a ∈ external, 0 < a.signedQuantity * netDelta deltas
  external_net : netQuantity external = netDelta deltas

theorem partOf_cons (a : SleeveAllocation) (allocations : List SleeveAllocation) (key : SleeveKey) :
    partOf (a :: allocations) key = (if a.sleeveKey = key then a.signedQuantity else 0) + partOf allocations key := rfl

theorem partOf_eq_zero {allocations : List SleeveAllocation} {key : SleeveKey} (h : key ∉ allocations.map SleeveAllocation.sleeveKey) :
    partOf allocations key = 0 := by
  refine List.sum_eq_zero fun x hx => ?_
  obtain ⟨a, ha, rfl⟩ := List.mem_map.mp hx
  exact if_neg fun (heq : a.sleeveKey = key) => h (heq ▸ List.mem_map_of_mem ha)

theorem partOf_allocationsOf {deltas : List SleeveDelta} (hnd : (deltas.map SleeveDelta.sleeveKey).Nodup) (part : SleeveDelta → ℤ)
    {d : SleeveDelta} (hd : d ∈ deltas) : partOf (allocationsOf deltas part) d.sleeveKey = part d := by
  induction deltas with
  | nil => cases hd
  | cons d' deltas ih =>
    rw [List.map_cons, List.nodup_cons] at hnd
    have hkeys := (allocationsOf_keys part deltas).subset
    have hcons : partOf (allocationsOf (d' :: deltas) part) d.sleeveKey =
        (if d'.sleeveKey = d.sleeveKey then part d' else 0) + partOf (allocationsOf deltas part) d.sleeveKey := by
      rw [allocationsOf, List.filterMap_cons, allocationOf]
      by_cases hzero : part d' = 0
      · rw [if_neg (not_not.mpr hzero), hzero, ite_self, zero_add]
        rfl
      · rw [if_pos hzero]
        exact partOf_cons _ _ _
    rw [hcons]
    rcases List.mem_cons.mp hd with rfl | hd
    · rw [if_pos rfl, partOf_eq_zero fun hmem => hnd.1 (hkeys hmem), add_zero]
    · have hne : d'.sleeveKey ≠ d.sleeveKey := fun heq => hnd.1 (heq ▸ List.mem_map_of_mem hd)
      rw [if_neg hne, zero_add, ih hnd.2 hd]

theorem sum_allocationsOf (g : ℤ → ℤ) (hg : g 0 = 0) (part : SleeveDelta → ℤ) (deltas : List SleeveDelta) :
    ((allocationsOf deltas part).map fun a => g a.signedQuantity).sum = (deltas.map fun d => g (part d)).sum := by
  induction deltas with
  | nil => rfl
  | cons d deltas ih =>
    rw [List.map_cons, List.sum_cons, ← ih, allocationsOf, List.filterMap_cons, allocationOf]
    by_cases hzero : part d = 0
    · rw [if_neg (not_not.mpr hzero), hzero, hg, zero_add]
      rfl
    · rw [if_pos hzero]
      rfl

/-! ## The two sides -/

section sides

variable {deltas : List SleeveDelta}

/-- A sum over the deltas is one over the buyers and one over the sellers. -/
theorem sum_sides (f : SleeveDelta → ℤ) (hf : ∀ d ∈ deltas, d.signedQuantity = 0 → f d = 0) :
    (deltas.map f).sum = ((deltas.filter fun d => 0 < d.signedQuantity).map f).sum +
      ((deltas.filter fun d => d.signedQuantity < 0).map f).sum := by
  induction deltas with
  | nil => rfl
  | cons d deltas ih =>
    have hrest := ih fun d hd => hf d (List.mem_cons_of_mem _ hd)
    rw [List.map_cons, List.sum_cons, hrest, List.filter_cons, List.filter_cons]
    rcases lt_trichotomy d.signedQuantity 0 with hneg | hzero | hpos
    · rw [if_neg (by rw [decide_eq_true_eq]; omega), if_pos (by rwa [decide_eq_true_eq]), List.map_cons, List.sum_cons]
      ring
    · rw [if_neg (by rw [decide_eq_true_eq]; omega), if_neg (by rw [decide_eq_true_eq]; omega), hf d List.mem_cons_self hzero, zero_add]
    · rw [if_pos (by rwa [decide_eq_true_eq]), if_neg (by rw [decide_eq_true_eq]; omega), List.map_cons, List.sum_cons]
      ring

theorem amounts_buyers : amounts (buyers deltas) = bought (deltas.map (·.signedQuantity)) := by
  rw [bought, List.map_map, sum_sides _ fun d _ hzero => by simp [hzero], amounts, buyers, List.map_map]
  have hsold : ((deltas.filter fun d => d.signedQuantity < 0).map ((fun q => max 0 q) ∘ (·.signedQuantity))).sum = 0 := by
    refine List.sum_eq_zero fun x hx => ?_
    obtain ⟨d, hd, rfl⟩ := List.mem_map.mp hx
    exact max_eq_left (of_decide_eq_true (List.mem_filter.mp hd).2).le
  rw [hsold, add_zero]
  refine congrArg List.sum (List.map_congr_left fun d hd => ?_)
  exact (max_eq_right (of_decide_eq_true (List.mem_filter.mp hd).2).le).symm

theorem amounts_sellers : amounts (sellers deltas) = sold (deltas.map (·.signedQuantity)) := by
  rw [sold, List.map_map, sum_sides _ fun d _ hzero => by simp [hzero], amounts, sellers, List.map_map]
  have hbought : ((deltas.filter fun d => 0 < d.signedQuantity).map ((fun q => max 0 (-q)) ∘ (·.signedQuantity))).sum = 0 := by
    refine List.sum_eq_zero fun x hx => ?_
    obtain ⟨d, hd, rfl⟩ := List.mem_map.mp hx
    have hpos : 0 < d.signedQuantity := of_decide_eq_true (List.mem_filter.mp hd).2
    exact max_eq_left (neg_nonpos.mpr hpos.le)
  rw [hbought, zero_add]
  refine congrArg List.sum (List.map_congr_left fun d hd => ?_)
  have hneg : d.signedQuantity < 0 := of_decide_eq_true (List.mem_filter.mp hd).2
  exact (max_eq_right (neg_nonneg.mpr hneg.le)).symm

/-- The keys of a list share out its amounts. -/
theorem sum_leftOf {keys : List SleeveKey} (hnd : keys.Nodup) {l : List (SleeveKey × ℤ)} (hl : ∀ e ∈ l, e.1 ∈ keys) :
    (keys.map (leftOf l)).sum = amounts l := by
  induction l with
  | nil =>
    rw [amounts_nil]
    refine List.sum_eq_zero fun x hx => ?_
    obtain ⟨k, -, rfl⟩ := List.mem_map.mp hx
    rfl
  | cons e l ih =>
    have hrest := ih fun e he => hl e (List.mem_cons_of_mem _ he)
    have hone : (keys.map fun k => if e.1 = k then e.2 else 0).sum = e.2 := by
      have hkey := hl e List.mem_cons_self
      clear hrest ih hl
      induction keys with
      | nil => cases hkey
      | cons k keys ih =>
        rw [List.nodup_cons] at hnd
        rw [List.map_cons, List.sum_cons]
        rcases List.mem_cons.mp hkey with heq | hkey
        · have hnone : (keys.map fun k => if e.1 = k then e.2 else 0).sum = 0 := by
            refine List.sum_eq_zero fun x hx => ?_
            obtain ⟨k', hk', rfl⟩ := List.mem_map.mp hx
            exact if_neg fun (h : e.1 = k') => hnd.1 (heq ▸ h ▸ hk')
          rw [if_pos heq, hnone, add_zero]
        · have hne : e.1 ≠ k := fun h => hnd.1 (h ▸ hkey)
          rw [if_neg hne, zero_add, ih hnd.2 hkey]
    rw [amounts_cons, ← hrest, ← hone, ← List.sum_map_add]
    rfl

/-- What the buyers and the sellers have crossed. -/
theorem crossed_sides (hnd : (deltas.map SleeveDelta.sleeveKey).Nodup) :
    ((deltas.filter fun d => 0 < d.signedQuantity).map fun d => internalCross deltas d.sleeveKey).sum =
        min (amounts (buyers deltas)) (amounts (sellers deltas)) ∧
      ((deltas.filter fun d => d.signedQuantity < 0).map fun d => internalCross deltas d.sleeveKey).sum =
        -min (amounts (buyers deltas)) (amounts (sellers deltas)) := by
  obtain ⟨rest, h⟩ := internalCross_spec hnd
  have hkeys : ∀ e ∈ rest, e.1 ∈ (sellers deltas).map Prod.fst := by
    intro e he
    by_contra hnot
    have hle := h.left_le e.1
    rw [leftOf_eq_zero hnot] at hle
    have hpos := h.left_pos e he
    have hmem := le_leftOf_of_mem h.left_pos he
    omega
  have hrest : 0 ≤ amounts rest := by
    refine List.sum_nonneg fun x hx => ?_
    obtain ⟨e, he, rfl⟩ := List.mem_map.mp hx
    exact (h.left_pos e he).le
  have hbuyers : ((deltas.filter fun d => 0 < d.signedQuantity).map fun d => internalCross deltas d.sleeveKey).sum =
      amounts (sellers deltas) - amounts rest := by
    rw [← h.total, buyers, List.map_map]
    refine congrArg List.sum (List.map_congr_left fun d _ => ?_)
    exact (sub_zero _).symm
  have hsellers : ((deltas.filter fun d => d.signedQuantity < 0).map fun d => internalCross deltas d.sleeveKey).sum =
      amounts rest - amounts (sellers deltas) := by
    have hsold : amounts (sellers deltas) = -((deltas.filter fun d => d.signedQuantity < 0).map fun d => d.signedQuantity).sum := by
      rw [amounts, sellers, List.map_map, List.sum_neg, List.map_map]
      rfl
    have hleft : amounts rest = ((deltas.filter fun d => d.signedQuantity < 0).map fun d => leftOf rest d.sleeveKey).sum := by
      have hnodup : ((sellers deltas).map Prod.fst).Nodup := keys_nodup _ _ hnd
      rw [← sum_leftOf hnodup hkeys, sellers, List.map_map, List.map_map]
      rfl
    rw [hsold, hleft, sub_neg_eq_add, ← List.sum_map_add]
    refine congrArg List.sum (List.map_congr_left fun d hd => ?_)
    obtain ⟨hmem, hneg⟩ := List.mem_filter.mp hd
    have hneg : d.signedQuantity < 0 := of_decide_eq_true hneg
    have hothers := h.others _ (sleeveKey_notMem_buyers hnd hmem hneg.le)
    rw [leftOf_sellers hnd hmem hneg.le] at hothers
    omega
  have hall : amounts (sellers deltas) - amounts rest = min (amounts (buyers deltas)) (amounts (sellers deltas)) := by
    have hbound : amounts (sellers deltas) - amounts rest ≤ amounts (buyers deltas) := by
      rw [← hbuyers, amounts, buyers, List.map_map]
      refine List.sum_le_sum fun d hd => ?_
      obtain ⟨hmem, hpos⟩ := List.mem_filter.mp hd
      have hpos : 0 < d.signedQuantity := of_decide_eq_true hpos
      have hbounds := internalCross_bounds hnd hmem
      show internalCross deltas d.sleeveKey ≤ d.signedQuantity
      omega
    rcases h.used_up with hfull | hempty
    · have hsum : amounts (buyers deltas) = amounts (sellers deltas) - amounts rest := by
        rw [← h.total, amounts]
        refine congrArg List.sum (List.map_congr_left fun e he => ?_)
        rw [hfull e he, zero_add, sub_zero]
      rw [← hsum, min_eq_left (by omega)]
    · rw [hempty, amounts_nil, sub_zero] at hbound ⊢
      rw [min_eq_right hbound]
  exact ⟨hbuyers.trans hall, by rw [hsellers, ← hall, neg_sub]⟩

/-- **The split is exact and maximal**, and raises nothing. -/
theorem splitInternalAndExternalAllocations_crosses (hnd : (deltas.map SleeveDelta.sleeveKey).Nodup) :
    splitInternalAndExternalAllocations deltas =
        .ok (allocationsOf deltas fun d => internalCross deltas d.sleeveKey, allocationsOf deltas (residual deltas)) ∧
      Crosses deltas (allocationsOf deltas fun d => internalCross deltas d.sleeveKey) (allocationsOf deltas (residual deltas)) := by
  obtain ⟨hbuyers, hsellers⟩ := crossed_sides hnd
  have hzero : ∀ d ∈ deltas, d.signedQuantity = 0 → internalCross deltas d.sleeveKey = 0 := by
    intro d hd hsigned
    have hbounds := internalCross_bounds hnd hd
    omega
  have hinternal : netQuantity (allocationsOf deltas fun d => internalCross deltas d.sleeveKey) = 0 := by
    rw [netQuantity_allocationsOf, sum_sides _ hzero, hbuyers, hsellers, add_neg_cancel]
  have hexternal : netQuantity (allocationsOf deltas (residual deltas)) = netDelta deltas := by
    rw [netQuantity_allocationsOf] at hinternal ⊢
    have hsum : (deltas.map fun d => residual deltas d + internalCross deltas d.sleeveKey).sum = netDelta deltas :=
      congrArg List.sum (List.map_congr_left fun d _ => sub_add_cancel _ _)
    rwa [List.sum_map_add, hinternal, add_zero] at hsum
  refine ⟨?_, ?_⟩
  · refine bind_eq_ok.mpr ⟨(), require_true hinternal, ?_⟩
    exact bind_eq_ok.mpr ⟨(), require_true hexternal, rfl⟩
  · refine ⟨fun d hd => ?_, fun d hd => ?_, fun d hd => ?_, hinternal, ?_, fun a ha => ?_, hexternal⟩
    · rw [partOf_allocationsOf hnd _ hd, partOf_allocationsOf hnd _ hd, residual, add_sub_cancel]
    · rw [partOf_allocationsOf hnd _ hd]
      exact internalCross_bounds hnd hd
    · rw [partOf_allocationsOf hnd _ hd]
      exact residual_bounds hnd hd
    · rw [bought, List.map_map, ← amounts_buyers, ← amounts_sellers, ← hbuyers]
      have hsum := sum_allocationsOf (fun q => max 0 q) rfl (fun d => internalCross deltas d.sleeveKey) deltas
      refine hsum.trans ?_
      rw [sum_sides _ fun d hd hsigned => by rw [hzero d hd hsigned]; rfl]
      have hnone : ((deltas.filter fun d => d.signedQuantity < 0).map fun d => max 0 (internalCross deltas d.sleeveKey)).sum = 0 := by
        refine List.sum_eq_zero fun x hx => ?_
        obtain ⟨d, hd, rfl⟩ := List.mem_map.mp hx
        obtain ⟨hmem, hneg⟩ := List.mem_filter.mp hd
        have hneg : d.signedQuantity < 0 := of_decide_eq_true hneg
        have hbounds := internalCross_bounds hnd hmem
        exact max_eq_left (by omega)
      rw [hnone, add_zero]
      refine congrArg List.sum (List.map_congr_left fun d hd => ?_)
      obtain ⟨hmem, hpos⟩ := List.mem_filter.mp hd
      have hpos : 0 < d.signedQuantity := of_decide_eq_true hpos
      have hbounds := internalCross_bounds hnd hmem
      exact max_eq_right (by omega)
    · obtain ⟨d, hd, hne, rfl⟩ := mem_allocationsOf.mp ha
      rw [← hexternal, netQuantity_allocationsOf]
      show 0 < residual deltas d * (deltas.map (residual deltas)).sum
      have hmem : residual deltas d ∈ deltas.map (residual deltas) := List.mem_map_of_mem hd
      rcases one_side_crossed hnd with hall | hall
      · have hall' : ∀ x ∈ deltas.map (residual deltas), 0 ≤ x := by simpa using hall
        have hle := List.single_le_sum hall' _ hmem
        have hpos := lt_of_le_of_ne (hall d hd) (Ne.symm hne)
        exact mul_pos hpos (hpos.trans_le hle)
      · have hall' : ∀ x ∈ (deltas.map (residual deltas)).map Neg.neg, 0 ≤ x := by simpa using hall
        have hle := List.single_le_sum hall' _ (List.mem_map_of_mem (f := Neg.neg) hmem)
        have hneg := lt_of_le_of_ne (hall d hd) hne
        rw [← List.sum_neg] at hle
        exact mul_pos_of_neg_of_neg hneg (by omega)

end sides

end LiveTrader.Portfolio
