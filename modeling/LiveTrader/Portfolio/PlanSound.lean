/-
# `Portfolio.PlanSound` — what a built plan guarantees

The crossing loop is analysed with one quantity, the amount a key still has in
the list of negatives (`leftOf`): a turn of the loop lowers it exactly as far as
it lowers the key's crossed quantity, and it ends with one side used up.  From
that follow the facts about a plan that the ledger relies on:

    every delta     crossed + residual = signed, both with the sign of signed
    one side is fully crossed, so all residuals have the sign of the net
    the crossed quantities cancel, the residuals add up to the net

`PlanSound` collects what `buildSymbolNetPlan` establishes, and the section
after it derives the signs and sums of the two allocation lists.
-/
import LiveTrader.Portfolio.Plan
import Mathlib.Data.List.Nodup
import Mathlib.Algebra.Order.BigOperators.Group.List

namespace LiveTrader.Portfolio

open Lib.Py Lib.Decimal

/-! ## The crossing loop -/

/-- What key `k` has in a list of amounts. -/
def leftOf (l : List (SleeveKey × ℤ)) (k : SleeveKey) : ℤ :=
  (l.map fun e => if e.1 = k then e.2 else 0).sum

def amounts (l : List (SleeveKey × ℤ)) : ℤ := (l.map (·.2)).sum

def Positive (l : List (SleeveKey × ℤ)) : Prop := ∀ e ∈ l, 0 < e.2

@[simp] theorem leftOf_nil (k : SleeveKey) : leftOf [] k = 0 := rfl

@[simp] theorem leftOf_cons (e : SleeveKey × ℤ) (l : List (SleeveKey × ℤ)) (k : SleeveKey) :
    leftOf (e :: l) k = (if e.1 = k then e.2 else 0) + leftOf l k := rfl

@[simp] theorem amounts_nil : amounts [] = 0 := rfl

@[simp] theorem amounts_cons (e : SleeveKey × ℤ) (l : List (SleeveKey × ℤ)) :
    amounts (e :: l) = e.2 + amounts l := by simp [amounts]

theorem leftOf_nonneg {k : SleeveKey} : ∀ {l : List (SleeveKey × ℤ)}, Positive l → 0 ≤ leftOf l k
  | [], _ => le_rfl
  | e :: l, h => by
      have h1 : 0 < e.2 := h e (by simp)
      have h2 := leftOf_nonneg (k := k) (l := l) fun e he => h e (by simp [he])
      rw [leftOf_cons]
      split <;> omega

theorem leftOf_eq_zero {k : SleeveKey} : ∀ {l : List (SleeveKey × ℤ)},
    k ∉ l.map Prod.fst → leftOf l k = 0
  | [], _ => rfl
  | e :: l, h => by
      simp only [List.map_cons, List.mem_cons, not_or] at h
      rw [leftOf_cons, if_neg (Ne.symm h.1), leftOf_eq_zero h.2, zero_add]

theorem leftOf_eq_of_mem : ∀ {l : List (SleeveKey × ℤ)}, (l.map Prod.fst).Nodup →
    ∀ {e : SleeveKey × ℤ}, e ∈ l → leftOf l e.1 = e.2
  | e' :: l, hnd, e, he => by
      simp only [List.map_cons, List.nodup_cons] at hnd
      rcases List.mem_cons.mp he with rfl | he
      · rw [leftOf_cons, if_pos rfl, leftOf_eq_zero hnd.1, add_zero]
      · have hne : e'.1 ≠ e.1 := fun h => hnd.1 (h ▸ List.mem_map_of_mem he)
        rw [leftOf_cons, if_neg hne, zero_add, leftOf_eq_of_mem hnd.2 he]

theorem le_leftOf_of_mem {e : SleeveKey × ℤ} : ∀ {l : List (SleeveKey × ℤ)}, Positive l → e ∈ l →
    e.2 ≤ leftOf l e.1
  | e' :: l, hl, he => by
      have hl' : Positive l := fun e he => hl e (by simp [he])
      have hnn := leftOf_nonneg (k := e.1) hl'
      rcases List.mem_cons.mp he with rfl | he
      · simp [hnn]
      · have h1 := le_leftOf_of_mem hl' he
        have h2 := hl e' (by simp)
        rw [leftOf_cons]; split <;> omega

/-- What one positive sleeve does to the negatives and the crossed quantities. -/
structure CrossedOne (positive : SleeveKey) (remaining : ℤ) (negatives : List (SleeveKey × ℤ))
    (internal : SleeveKey → ℤ) (out : List (SleeveKey × ℤ) × (SleeveKey → ℤ)) : Prop where
  left_pos : Positive out.1
  keys : ∀ k ∈ out.1.map Prod.fst, k ∈ negatives.map Prod.fst
  left_le : ∀ k, leftOf out.1 k ≤ leftOf negatives k
  others : ∀ k, k ≠ positive → out.2 k - leftOf out.1 k = internal k - leftOf negatives k
  taken : out.2 positive = internal positive + (amounts negatives - amounts out.1)
  taken_nonneg : amounts out.1 ≤ amounts negatives
  taken_le : amounts negatives - amounts out.1 ≤ remaining
  used_up : amounts negatives - amounts out.1 = remaining ∨ out.1 = []

theorem crossOne_spec (positive : SleeveKey) : ∀ (negatives : List (SleeveKey × ℤ)) (remaining : ℤ)
    (internal : SleeveKey → ℤ), 0 < remaining → Positive negatives →
    positive ∉ negatives.map Prod.fst →
    CrossedOne positive remaining negatives internal (crossOne positive remaining negatives internal)
  | [], remaining, internal, hr, _, _ => by
      refine ⟨?_, ?_, ?_, ?_, ?_, ?_, ?_, ?_⟩ <;> simp [crossOne, Positive, hr.le]
  | (negative, left) :: negatives, remaining, internal, hr, hpos, hni => by
      have hleft : 0 < left := hpos (negative, left) (by simp)
      have hpos' : Positive negatives := fun e he => hpos e (by simp [he])
      simp only [List.map_cons, List.mem_cons, not_or] at hni
      obtain ⟨hne, hni'⟩ := hni
      set c := min remaining left with hc
      have hb : ∀ k, bump (bump internal positive c) negative (-c) k =
          internal k + (if k = positive then c else 0) + (if k = negative then -c else 0) := by
        intro k
        unfold bump
        split_ifs <;> ring
      rw [crossOne]
      simp only [← hc]
      split_ifs with h1 h2
      · -- both used up
        refine ⟨hpos', fun k hk => by simp [hk], fun k => ?_, fun k hk => ?_, ?_, ?_, ?_, ?_⟩
        · rw [leftOf_cons]; split <;> simp [hleft.le]
        · simp only [hb, leftOf_cons, if_neg hk, eq_comm (a := negative)]
          split <;> omega
        · simp only [hb, if_neg hne, amounts_cons]; simp; omega
        · simp; omega
        · simp; omega
        · left; simp; omega
      · -- the positive sleeve is used up, the negative one is not
        refine ⟨?_, fun k hk => by simpa using hk, fun k => ?_, fun k hk => ?_, ?_, ?_, ?_, ?_⟩
        · intro e he
          rcases List.mem_cons.mp he with rfl | he
          · simp only; omega
          · exact hpos' e he
        · simp only [leftOf_cons]; split <;> omega
        · simp only [hb, leftOf_cons, if_neg hk, eq_comm (a := negative)]
          split <;> omega
        · simp only [hb, if_neg hne, amounts_cons]; simp
        · simp; omega
        · simp; omega
        · left; simp; omega
      · -- the negative sleeve is used up: the loop goes on with the rest
        have hcl : c = left := by omega
        have ih := crossOne_spec positive negatives (remaining - c)
          (bump (bump internal positive c) negative (-c)) (by omega) hpos' hni'
        refine ⟨ih.left_pos, fun k hk => by simp [ih.keys k hk], fun k => ?_, fun k hk => ?_,
          ?_, ?_, ?_, ?_⟩
        · have := ih.left_le k
          rw [leftOf_cons]; split <;> omega
        · have := ih.others k hk
          rw [this, hb, leftOf_cons, if_neg hk]
          simp only [eq_comm (a := negative)]
          split <;> omega
        · rw [ih.taken, hb, if_pos rfl, if_neg hne, amounts_cons]
          simp only; omega
        · have := ih.taken_nonneg
          rw [amounts_cons]; simp only; omega
        · have := ih.taken_le
          rw [amounts_cons]; simp only; omega
        · rw [amounts_cons]
          rcases ih.used_up with h | h
          · left; simp only; omega
          · right; exact h

/-- What the whole loop does: `rest` are the negatives left at the end. -/
structure CrossedAll (positives negatives : List (SleeveKey × ℤ)) (internal out : SleeveKey → ℤ)
    (rest : List (SleeveKey × ℤ)) : Prop where
  left_pos : Positive rest
  left_le : ∀ k, leftOf rest k ≤ leftOf negatives k
  others : ∀ k ∉ positives.map Prod.fst,
    out k - leftOf rest k = internal k - leftOf negatives k
  bounds : ∀ e ∈ positives, internal e.1 ≤ out e.1 ∧ out e.1 ≤ internal e.1 + e.2
  total : (positives.map fun e => out e.1 - internal e.1).sum = amounts negatives - amounts rest
  used_up : (∀ e ∈ positives, out e.1 = internal e.1 + e.2) ∨ rest = []

theorem crossAll_spec : ∀ (positives negatives : List (SleeveKey × ℤ)) (internal : SleeveKey → ℤ),
    Positive positives → Positive negatives → (positives.map Prod.fst).Nodup →
    (∀ k ∈ positives.map Prod.fst, k ∉ negatives.map Prod.fst) →
    ∃ rest, CrossedAll positives negatives internal (crossAll positives negatives internal) rest
  | [], negatives, internal, _, hneg, _, _ =>
      ⟨negatives, hneg, fun _ => le_rfl, fun _ _ => rfl, by simp, by simp, by simp⟩
  | (p, q) :: positives, negatives, internal, hpos, hneg, hnd, hdis => by
      simp only [List.map_cons, List.nodup_cons] at hnd
      have h1 := crossOne_spec p negatives q internal (hpos (p, q) (by simp)) hneg
        (hdis p (by simp))
      set next := crossOne p q negatives internal with hnext
      have hq : 0 < q := hpos (p, q) (by simp)
      obtain ⟨rest, h2⟩ := crossAll_spec positives next.1 next.2
        (fun e he => hpos e (by simp [he])) h1.left_pos hnd.2
        (fun k hk hk' => hdis k (by simp [hk]) (h1.keys k hk'))
      rw [crossAll, ← hnext]
      -- the sleeve just crossed is in no later list
      have hp0 : leftOf next.1 p = 0 := leftOf_eq_zero fun h => hdis p (by simp) (h1.keys p h)
      have hprest : leftOf rest p = 0 :=
        le_antisymm (hp0 ▸ h2.left_le p) (leftOf_nonneg h2.left_pos)
      have hp : crossAll positives next.1 next.2 p = next.2 p := by
        have := h2.others p hnd.1
        omega
      have hkeep : ∀ e ∈ positives, next.2 e.1 = internal e.1 := by
        intro e he
        have hep : e.1 ≠ p := fun h => hnd.1 (h ▸ List.mem_map_of_mem he)
        have hen : e.1 ∉ negatives.map Prod.fst :=
          hdis e.1 (by simp only [List.map_cons, List.mem_cons]; exact .inr (List.mem_map_of_mem he))
        have := h1.others e.1 hep
        rw [leftOf_eq_zero hen, leftOf_eq_zero fun h => hen (h1.keys _ h)] at this
        omega
      have htaken := h1.taken
      have hle := h1.taken_le
      have hnn := h1.taken_nonneg
      refine ⟨rest, h2.left_pos, fun k => (h2.left_le k).trans (h1.left_le k), fun k hk => ?_,
        fun e he => ?_, ?_, ?_⟩
      · simp only [List.map_cons, List.mem_cons, not_or] at hk
        rw [h2.others k hk.2, h1.others k hk.1]
      · rcases List.mem_cons.mp he with rfl | he
        · rw [hp, htaken]; simp only; omega
        · rw [← hkeep e he]; exact h2.bounds e he
      · have hsum : (positives.map fun e => crossAll positives next.1 next.2 e.1 - internal e.1) =
            positives.map fun e => crossAll positives next.1 next.2 e.1 - next.2 e.1 :=
          List.map_congr_left fun e he => by rw [hkeep e he]
        rw [List.map_cons, List.sum_cons, hsum, h2.total, hp, htaken]
        ring
      · rcases h1.used_up with hu | hu
        · rcases h2.used_up with hr | hr
          · left
            intro e he
            rcases List.mem_cons.mp he with rfl | he
            · rw [hp, htaken, hu]
            · rw [hr e he, hkeep e he]
          · exact .inr hr
        · right
          -- no negatives are left for the later sleeves
          rw [List.eq_nil_iff_forall_not_mem]
          intro e he
          have h0 := h2.left_le e.1
          rw [hu, leftOf_nil] at h0
          have := h2.left_pos e he
          have := le_leftOf_of_mem h2.left_pos he
          omega

/-! ## The split of a plan's deltas -/

/-- The part of a delta that goes to the broker. -/
def residual (deltas : List SleeveDelta) (d : SleeveDelta) : ℤ :=
  d.signedQuantity - internalCross deltas d.sleeveKey

section split

variable {deltas : List SleeveDelta}

/-- The two sides of the loop, as it receives them. -/
def buyers (deltas : List SleeveDelta) : List (SleeveKey × ℤ) :=
  (deltas.filter fun d => 0 < d.signedQuantity).map fun d => (d.sleeveKey, d.signedQuantity)

def sellers (deltas : List SleeveDelta) : List (SleeveKey × ℤ) :=
  (deltas.filter fun d => d.signedQuantity < 0).map fun d => (d.sleeveKey, -d.signedQuantity)

theorem mem_buyers {e : SleeveKey × ℤ} :
    e ∈ buyers deltas ↔ ∃ d ∈ deltas, 0 < d.signedQuantity ∧ e = (d.sleeveKey, d.signedQuantity) := by
  simp only [buyers, List.mem_map, List.mem_filter, decide_eq_true_eq]
  constructor
  · rintro ⟨d, ⟨hd, hpos⟩, rfl⟩; exact ⟨d, hd, hpos, rfl⟩
  · rintro ⟨d, hd, hpos, rfl⟩; exact ⟨d, ⟨hd, hpos⟩, rfl⟩

theorem mem_sellers {e : SleeveKey × ℤ} :
    e ∈ sellers deltas ↔
      ∃ d ∈ deltas, d.signedQuantity < 0 ∧ e = (d.sleeveKey, -d.signedQuantity) := by
  simp only [sellers, List.mem_map, List.mem_filter, decide_eq_true_eq]
  constructor
  · rintro ⟨d, ⟨hd, hneg⟩, rfl⟩; exact ⟨d, hd, hneg, rfl⟩
  · rintro ⟨d, hd, hneg, rfl⟩; exact ⟨d, ⟨hd, hneg⟩, rfl⟩

theorem keys_nodup (p : SleeveDelta → Bool) (f : SleeveDelta → ℤ)
    (hnd : (deltas.map SleeveDelta.sleeveKey).Nodup) :
    (((deltas.filter p).map fun d => (d.sleeveKey, f d)).map Prod.fst).Nodup := by
  rw [List.map_map]
  exact hnd.sublist (List.filter_sublist.map _)

theorem sleeveKey_notMem_buyers (hnd : (deltas.map SleeveDelta.sleeveKey).Nodup) {d : SleeveDelta}
    (hd : d ∈ deltas) (h : d.signedQuantity ≤ 0) : d.sleeveKey ∉ (buyers deltas).map Prod.fst := by
  intro hk
  obtain ⟨e, he, hee⟩ := List.mem_map.mp hk
  obtain ⟨d', hd', hpos, rfl⟩ := mem_buyers.mp he
  have := List.inj_on_of_nodup_map hnd hd' hd hee
  subst this
  omega

theorem leftOf_sellers (hnd : (deltas.map SleeveDelta.sleeveKey).Nodup) {d : SleeveDelta}
    (hd : d ∈ deltas) (h : d.signedQuantity ≤ 0) :
    leftOf (sellers deltas) d.sleeveKey = -d.signedQuantity := by
  rcases h.lt_or_eq with hneg | hzero
  · have hmem : (d.sleeveKey, -d.signedQuantity) ∈ sellers deltas :=
      mem_sellers.mpr ⟨d, hd, hneg, rfl⟩
    exact leftOf_eq_of_mem (keys_nodup _ _ hnd) hmem
  · rw [hzero, neg_zero]
    refine leftOf_eq_zero fun hk => ?_
    obtain ⟨e, he, hee⟩ := List.mem_map.mp hk
    obtain ⟨d', hd', hneg, rfl⟩ := mem_sellers.mp he
    have := List.inj_on_of_nodup_map hnd hd' hd hee
    subst this
    omega

/-- What the loop leaves behind, in terms of the deltas. -/
theorem internalCross_spec (hnd : (deltas.map SleeveDelta.sleeveKey).Nodup) :
    ∃ rest, CrossedAll (buyers deltas) (sellers deltas) (fun _ => 0) (internalCross deltas) rest := by
  refine crossAll_spec (buyers deltas) (sellers deltas) (fun _ => 0) ?_ ?_
    (keys_nodup _ _ hnd) ?_
  · intro e he
    obtain ⟨d, _, hpos, rfl⟩ := mem_buyers.mp he
    exact hpos
  · intro e he
    obtain ⟨d, _, hneg, rfl⟩ := mem_sellers.mp he
    simpa using hneg
  · intro k hk hk'
    -- one key on both sides would be one delta with two signs
    obtain ⟨e, he, rfl⟩ := List.mem_map.mp hk
    obtain ⟨e', he', hee⟩ := List.mem_map.mp hk'
    obtain ⟨d, hd, hpos, rfl⟩ := mem_buyers.mp he
    obtain ⟨d', hd', hneg, rfl⟩ := mem_sellers.mp he'
    have := List.inj_on_of_nodup_map hnd hd hd' hee.symm
    subst this
    omega

/-- Each delta is crossed towards its own side and no further than it goes. -/
theorem internalCross_bounds (hnd : (deltas.map SleeveDelta.sleeveKey).Nodup) {d : SleeveDelta}
    (hd : d ∈ deltas) :
    (0 ≤ internalCross deltas d.sleeveKey ∧ internalCross deltas d.sleeveKey ≤ d.signedQuantity) ∨
      (d.signedQuantity ≤ internalCross deltas d.sleeveKey ∧
        internalCross deltas d.sleeveKey ≤ 0) := by
  obtain ⟨rest, h⟩ := internalCross_spec hnd
  rcases lt_or_ge 0 d.signedQuantity with hpos | hnpos
  · left
    simpa using h.bounds _ (mem_buyers.mpr ⟨d, hd, hpos, rfl⟩)
  · right
    have ho := h.others _ (sleeveKey_notMem_buyers hnd hd hnpos)
    have hleft := leftOf_sellers hnd hd hnpos
    have hle := h.left_le d.sleeveKey
    have hnn := leftOf_nonneg (k := d.sleeveKey) h.left_pos
    omega

/-- The loop stops only when one side is used up. -/
theorem one_side_crossed (hnd : (deltas.map SleeveDelta.sleeveKey).Nodup) :
    (∀ d ∈ deltas, 0 ≤ residual deltas d) ∨ (∀ d ∈ deltas, residual deltas d ≤ 0) := by
  obtain ⟨rest, h⟩ := internalCross_spec hnd
  rcases h.used_up with hu | hu
  · right
    intro d hd
    have hb := internalCross_bounds hnd hd
    rcases lt_or_ge 0 d.signedQuantity with hpos | hnpos
    · have := hu _ (mem_buyers.mpr ⟨d, hd, hpos, rfl⟩)
      simp only [zero_add] at this
      rw [residual, this, sub_self]
    · unfold residual; omega
  · left
    intro d hd
    have hb := internalCross_bounds hnd hd
    rcases lt_or_ge d.signedQuantity 0 with hneg | hnneg
    · have ho := h.others _ (sleeveKey_notMem_buyers hnd hd hneg.le)
      have hleft := leftOf_sellers hnd hd hneg.le
      rw [hu, leftOf_nil] at ho
      unfold residual
      omega
    · unfold residual; omega

/-- Both parts of a delta point the way the delta does. -/
theorem residual_bounds (hnd : (deltas.map SleeveDelta.sleeveKey).Nodup) {d : SleeveDelta}
    (hd : d ∈ deltas) :
    (0 ≤ residual deltas d ∧ residual deltas d ≤ d.signedQuantity) ∨
      (d.signedQuantity ≤ residual deltas d ∧ residual deltas d ≤ 0) := by
  have := internalCross_bounds hnd hd
  unfold residual
  omega

end split

/-! ## Allocation lists -/

/-- The list that `allocationOf` writes for a part of every delta. -/
def allocationsOf (deltas : List SleeveDelta) (part : SleeveDelta → ℤ) : List SleeveAllocation :=
  deltas.filterMap fun d => allocationOf d (part d)

def SleeveAllocation.sleeveKey (a : SleeveAllocation) : SleeveKey := (a.sleeveId, a.intentId)

theorem mem_allocationsOf {deltas : List SleeveDelta} {part : SleeveDelta → ℤ}
    {a : SleeveAllocation} :
    a ∈ allocationsOf deltas part ↔
      ∃ d ∈ deltas, part d ≠ 0 ∧ a = ⟨d.intentId, d.sleeveId, part d⟩ := by
  simp only [allocationsOf, List.mem_filterMap, allocationOf, Option.ite_none_right_eq_some,
    Option.some.injEq, eq_comm (b := a)]

theorem netQuantity_allocationsOf (part : SleeveDelta → ℤ) : ∀ deltas : List SleeveDelta,
    netQuantity (allocationsOf deltas part) = (deltas.map part).sum
  | [] => rfl
  | d :: deltas => by
      have ih := netQuantity_allocationsOf part deltas
      by_cases h : part d = 0
      · simpa [allocationsOf, allocationOf, h] using ih
      · simpa [allocationsOf, allocationOf, h, netQuantity] using ih

theorem allocationsOf_keys (part : SleeveDelta → ℤ) : ∀ deltas : List SleeveDelta,
    ((allocationsOf deltas part).map SleeveAllocation.sleeveKey).Sublist
      (deltas.map SleeveDelta.sleeveKey)
  | [] => by simp [allocationsOf]
  | d :: deltas => by
      have ih := allocationsOf_keys part deltas
      by_cases h : part d = 0
      · simpa [allocationsOf, allocationOf, h] using ih.cons _
      · simpa [allocationsOf, allocationOf, h, SleeveAllocation.sleeveKey, SleeveDelta.sleeveKey]
          using ih.cons_cons d.sleeveKey

theorem allocationsOf_sleeves (part : SleeveDelta → ℤ) (deltas : List SleeveDelta) :
    ((allocationsOf deltas part).map (·.sleeveId)).Sublist (deltas.map (·.sleeveId)) := by
  have h := (allocationsOf_keys part deltas).map Prod.fst
  rwa [List.map_map, List.map_map] at h

/-! ## Built plans -/

/-- What `buildSymbolNetPlan` establishes. -/
structure PlanSound (plan : PlanPayload) : Prop where
  keys : (plan.deltas.map SleeveDelta.sleeveKey).Nodup
  sleeves : (plan.deltas.map (·.sleeveId)).Nodup
  signed : ∀ d ∈ plan.deltas, d.signedQuantity = d.targetQuantity - d.currentQuantity
  internal : plan.internalAllocations =
    allocationsOf plan.deltas fun d => internalCross plan.deltas d.sleeveKey
  external : plan.allocations = allocationsOf plan.deltas (residual plan.deltas)
  internalNet : netQuantity plan.internalAllocations = 0
  externalNet : netQuantity plan.allocations = netDelta plan.deltas
  side : plan.side = sideOf (netDelta plan.deltas)
  quantity : plan.quantity = (netDelta plan.deltas).natAbs
  price : plan.internalAllocations ≠ [] → 0 < plan.referencePrice

theorem sleeveDelta_eq_ok {currentPositions : String → String → Raw} {item : SleeveTarget}
    {d : SleeveDelta} (h : sleeveDelta currentPositions item = .ok d) :
    d.sleeveKey = (item.sleeveId, item.intentId) ∧
      d.signedQuantity = d.targetQuantity - d.currentQuantity := by
  simp only [sleeveDelta, bind_eq_ok, require_eq_ok, pure_eq_ok] at h
  obtain ⟨current, _, _, _, rfl⟩ := h
  exact ⟨rfl, rfl⟩

theorem sleeveDeltas_eq_ok {currentPositions : String → String → Raw} {items : List SleeveTarget}
    {deltas : List SleeveDelta} (h : items.mapM (sleeveDelta currentPositions) = .ok deltas) :
    deltas.map SleeveDelta.sleeveKey = items.map (fun item => (item.sleeveId, item.intentId)) ∧
      ∀ d ∈ deltas, d.signedQuantity = d.targetQuantity - d.currentQuantity := by
  replace h := mapM_eq_ok.mp h
  induction h with
  | nil => simp
  | cons hd _ ih =>
    obtain ⟨hk, hs⟩ := sleeveDelta_eq_ok hd
    refine ⟨by simp [hk, ih.1], fun d hd => ?_⟩
    rcases List.mem_cons.mp hd with rfl | hd
    · exact hs
    · exact ih.2 d hd

section build

variable {hash : PlanPayload → String} {scopeId portfolioId portfolioHash : String}
  {targets : List SleeveTarget} {currentPositions : String → String → Raw}
  {brokerQuantity referencePrice : Raw} {plan : SymbolNetPlan}

theorem buildSymbolNetPlan_sound
    (h : buildSymbolNetPlan hash scopeId portfolioId portfolioHash targets currentPositions
      brokerQuantity referencePrice = .ok plan) : PlanSound plan.toPlanPayload := by
  cases targets with
  | nil => simp [buildSymbolNetPlan] at h
  | cons first rest =>
    simp only [buildSymbolNetPlan, splitInternalAndExternalAllocations, bind_eq_ok, require_eq_ok,
      pure_eq_ok] at h
    obtain ⟨_, _, _, _, _, _, _, hsym, _, hsleeves, _, hintents, deltas, hdeltas, _, _, _, _, _,
      ⟨_, hin, _, hex, rfl⟩, price, _, _, hprice, rfl⟩ := h
    obtain ⟨hkeys, hsigned⟩ := sleeveDeltas_eq_ok hdeltas
    have hperm := List.perm_insertionSort targetLe (first :: rest)
    have hnd : (deltas.map (·.sleeveId)).Nodup := by
      have h1 : deltas.map (·.sleeveId) =
          ((first :: rest).insertionSort targetLe).map (·.sleeveId) := by
        have h2 := congrArg (List.map Prod.fst) hkeys
        rwa [List.map_map, List.map_map] at h2
      rw [h1, (hperm.map _).nodup_iff]
      -- all symbols are one symbol, so distinct identities are distinct sleeves
      refine List.Nodup.of_map (·, first.symbol) ?_
      rw [List.map_map]
      refine (List.map_congr_left fun item hitem => ?_) ▸ hsleeves
      simp [hsym item hitem]
    refine ⟨?_, hnd, hsigned, rfl, rfl, hin, hex, rfl, rfl, fun hne => ?_⟩
    · refine List.Nodup.of_map Prod.fst ?_
      rwa [List.map_map]
    · by_contra hle
      exact hprice ⟨hne, not_lt.mp hle⟩

end build

/-! ## Signs and sums of a sound plan -/

theorem sum_nonpos_of_forall : ∀ {l : List ℤ}, (∀ x ∈ l, x ≤ 0) → l.sum ≤ 0
  | [], _ => le_rfl
  | x :: l, h => by
      have h1 := h x (by simp)
      have h2 := sum_nonpos_of_forall (l := l) fun y hy => h y (by simp [hy])
      rw [List.sum_cons]
      omega

namespace PlanSound

variable {plan : PlanPayload} (h : PlanSound plan)
include h

theorem residual_sum : (plan.deltas.map (residual plan.deltas)).sum = netDelta plan.deltas := by
  rw [← netQuantity_allocationsOf, ← h.external, h.externalNet]

/-- No residual opposes the net. -/
theorem residual_sign {d : SleeveDelta} (hd : d ∈ plan.deltas) (hq : plan.quantity ≠ 0) :
    0 ≤ residual plan.deltas d * plan.side.sign := by
  have hsum := h.residual_sum
  have hq' := h.quantity
  have hside := h.side
  unfold sideOf at hside
  rcases one_side_crossed h.keys with hall | hall
  · have hnn : 0 ≤ (plan.deltas.map (residual plan.deltas)).sum :=
      List.sum_nonneg (by simpa using hall)
    rw [if_pos (by omega)] at hside
    simpa [hside, Side.sign] using hall d hd
  · have hnp : (plan.deltas.map (residual plan.deltas)).sum ≤ 0 :=
      sum_nonpos_of_forall (by simpa using hall)
    rw [if_neg (by omega), if_pos (by omega)] at hside
    have := hall d hd
    simp only [hside, Side.sign]
    omega

theorem net_eq (hq : plan.quantity ≠ 0) : netDelta plan.deltas = plan.side.sign * plan.quantity := by
  have hq' := h.quantity
  rw [h.side, h.quantity, sideOf]
  split_ifs
  · simp only [Side.sign]; omega
  · simp only [Side.sign]; omega
  · exact absurd hq' (by omega)

theorem allocation_sign {a : SleeveAllocation} (ha : a ∈ plan.allocations)
    (hq : plan.quantity ≠ 0) : 0 < a.signedQuantity * plan.side.sign := by
  rw [h.external] at ha
  obtain ⟨d, hd, hne, rfl⟩ := mem_allocationsOf.mp ha
  have := h.residual_sign hd hq
  rcases this.lt_or_eq with hlt | heq
  · exact hlt
  · exfalso
    rcases mul_eq_zero.mp heq.symm with h0 | h0
    · exact hne h0
    · unfold Side.sign at h0; split at h0 <;> omega

theorem external_keys : (plan.allocations.map SleeveAllocation.sleeveKey).Nodup := by
  rw [h.external]
  exact h.keys.sublist (allocationsOf_keys _ _)

theorem external_sleeves : (plan.allocations.map (·.sleeveId)).Nodup := by
  rw [h.external]
  exact h.sleeves.sublist (allocationsOf_sleeves _ _)

theorem internal_sleeves : (plan.internalAllocations.map (·.sleeveId)).Nodup := by
  rw [h.internal]
  exact h.sleeves.sublist (allocationsOf_sleeves _ _)

end PlanSound

end LiveTrader.Portfolio
