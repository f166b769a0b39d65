/-
# `Portfolio.Accepted` — what an accepted payload guarantees

The validator takes a payload for a plan: the deltas are consistent, the split is that of the deltas, and the seal is
right.  It tells deltas apart by sleeve *and* intent, where the builder allows one target for a sleeve: a payload
that names one sleeve under two intents is accepted and moves the sleeve twice (`doubled_sleeve_accepted`).
-/
import LiveTrader.Portfolio.RoundTrip
import LiveTrader.Portfolio.Conservation
import Mathlib.Algebra.BigOperators.Ring.Finset

namespace LiveTrader.Portfolio.Context

open Lib.Py Lib.Decimal

/-! ## Accepted payloads -/

/-- What `validateSymbolNetPlanMetadata` establishes of the plan that it returns. -/
structure Accepted (plan : PlanPayload) : Prop where
  keys : (plan.deltas.map SleeveDelta.sleeveKey).Nodup
  signed : ∀ d ∈ plan.deltas, d.signedQuantity = whole (d.targetQuantity - d.currentQuantity)
  split : splitInternalAndExternalAllocations plan.deltas = .ok (plan.internalAllocations, plan.allocations)
  side : plan.side = sideOf (total (plan.deltas.map (·.signedQuantity)))
  quantity : (plan.quantity : ℤ) = whole |total (plan.deltas.map (·.signedQuantity))|
  price : plan.internalAllocations ≠ [] → 0 < plan.referencePrice

section payload

variable (codec : Codec)

/-- The sleeve and the intent that an item of a list names. -/
def namesOf (item : Json) : String × String :=
  let raw := item.fields?.getD []
  (strip (codec.text (raw.at "sleeveId")), strip (codec.text (raw.at "intentId")))

/-- The sleeves and intents of the deltas of a payload. -/
def deltaNames (payload : Json) : List (String × String) :=
  (((payload.fields?.getD []).at "sleeveDeltas").items?.getD []).map (namesOf codec)

/-- No sleeve is named under two intents. -/
def OneIntent (payload : Json) : Prop :=
  ∀ p ∈ deltaNames codec payload, ∀ q ∈ deltaNames codec payload, p.1 = q.1 → p.2 = q.2

instance (payload : Json) : Decidable (OneIntent codec payload) := by unfold OneIntent; infer_instance

variable {codec}

theorem deltaItem_eq_ok {item : Json} {d : SleeveDelta} (h : deltaItem codec item = .ok d) :
    namesOf codec item = (d.sleeveId.val, d.intentId.val) ∧ d.signedQuantity = whole (d.targetQuantity - d.currentQuantity) := by
  cases item with
  | obj raw =>
    obtain ⟨current, -, h⟩ := bind_eq_ok.mp h
    obtain ⟨target, -, h⟩ := bind_eq_ok.mp h
    obtain ⟨signed, -, h⟩ := bind_eq_ok.mp h
    obtain ⟨_, hsigned, h⟩ := bind_eq_ok.mp h
    obtain ⟨intentId, hintent, h⟩ := bind_eq_ok.mp h
    obtain ⟨sleeveId, hsleeve, h⟩ := bind_eq_ok.mp h
    obtain rfl := Except.ok.inj h
    exact ⟨(Prod.ext (text_eq_ok hsleeve) (text_eq_ok hintent)).symm, (require_eq_ok.mp hsigned).symm⟩
  | null => cases h
  | bool => cases h
  | int => cases h
  | float => cases h
  | str => cases h
  | arr => cases h

theorem deltaItems_eq_ok {items : List Json} {deltas : List SleeveDelta} (h : items.mapM (deltaItem codec) = .ok deltas) :
    items.map (namesOf codec) = deltas.map fun d => (d.sleeveId.val, d.intentId.val) := by
  replace h := mapM_eq_ok.mp h
  induction h with
  | nil => rfl
  | cons hd _ ih => rw [List.map_cons, List.map_cons, ih, (deltaItem_eq_ok hd).1]

theorem deltasOf_eq_ok {payload : Fields} {deltas : List SleeveDelta} (h : deltasOf codec payload = .ok deltas) :
    deltaNames codec (.obj payload) = deltas.map (fun d => (d.sleeveId.val, d.intentId.val)) ∧
      (deltas.map SleeveDelta.sleeveKey).Nodup ∧
      ∀ d ∈ deltas, d.signedQuantity = whole (d.targetQuantity - d.currentQuantity) := by
  rw [deltasOf] at h
  split at h
  · next first rest hfield =>
    obtain ⟨_, hitems, h⟩ := bind_eq_ok.mp h
    obtain ⟨_, hkeys, h⟩ := bind_eq_ok.mp h
    obtain rfl := Except.ok.inj h
    have hnames : deltaNames codec (.obj payload) = (first :: rest).map (namesOf codec) := by
      show ((payload.at "sleeveDeltas").items?.getD []).map (namesOf codec) = _
      rw [hfield]
      rfl
    refine ⟨hnames.trans (deltaItems_eq_ok hitems), require_eq_ok.mp hkeys, fun d hd => ?_⟩
    obtain ⟨item, -, hitem⟩ := exists_of_mem_mapM hitems hd
    exact (deltaItem_eq_ok hitem).2
  · cases h

theorem validate_accepted {payload : Json} {plan : SymbolNetPlan} (h : validateSymbolNetPlanMetadata codec payload = .ok plan) :
    Accepted plan.toPlanPayload ∧ deltaNames codec payload = plan.deltas.map (fun d => (d.sleeveId.val, d.intentId.val)) := by
  cases payload with
  | obj payload =>
    obtain ⟨schemaVersion, -, h⟩ := bind_eq_ok.mp h
    obtain ⟨_, -, h⟩ := bind_eq_ok.mp h
    obtain ⟨scopeId, -, h⟩ := bind_eq_ok.mp h
    obtain ⟨portfolioId, -, h⟩ := bind_eq_ok.mp h
    obtain ⟨portfolioHash, -, h⟩ := bind_eq_ok.mp h
    obtain ⟨symbol, -, h⟩ := bind_eq_ok.mp h
    obtain ⟨side, -, h⟩ := bind_eq_ok.mp h
    obtain ⟨quantity, -, h⟩ := bind_eq_ok.mp h
    obtain ⟨price, -, h⟩ := bind_eq_ok.mp h
    obtain ⟨deltas, hdeltas, h⟩ := bind_eq_ok.mp h
    obtain ⟨internal, -, h⟩ := bind_eq_ok.mp h
    obtain ⟨external, -, h⟩ := bind_eq_ok.mp h
    obtain ⟨expected, hsplit, h⟩ := bind_eq_ok.mp h
    obtain ⟨_, hinternal, h⟩ := bind_eq_ok.mp h
    obtain ⟨_, hexternal, h⟩ := bind_eq_ok.mp h
    obtain ⟨_, hcross, h⟩ := bind_eq_ok.mp h
    obtain ⟨_, hnet, h⟩ := bind_eq_ok.mp h
    obtain ⟨planId, -, h⟩ := bind_eq_ok.mp h
    obtain ⟨_, -, h⟩ := bind_eq_ok.mp h
    obtain rfl := Except.ok.inj h
    rw [require_eq_ok] at hinternal hexternal hcross hnet
    subst hinternal hexternal
    obtain ⟨hnames, hkeys, hsigned⟩ := deltasOf_eq_ok hdeltas
    exact ⟨⟨hkeys, hsigned, hsplit, rfl, hnet.2, fun hne => not_le.mp fun hle => hcross ⟨hne, hle⟩⟩, hnames⟩
  | null => cases h
  | bool => cases h
  | int => cases h
  | float => cases h
  | str => cases h
  | arr => cases h

end payload

/-! ## Sleeves and intents -/

/-- What a sleeve holds when the whole plan is applied to the holdings that it was made for. -/
def heldAfter (plan : PlanPayload) (d : SleeveDelta) : ℤ :=
  d.currentQuantity + (sleeveQuantity plan.internalAllocations d.sleeveId.val + sleeveQuantity plan.allocations d.sleeveId.val)

/-- Every sleeve is in one delta, and the plan leaves it at its target. -/
structure Reestablishes (plan : PlanPayload) : Prop where
  sleeves : (plan.deltas.map (·.sleeveId)).Nodup
  target : ∀ d ∈ plan.deltas, heldAfter plan d = d.targetQuantity
  nonneg : ∀ d ∈ plan.deltas, 0 ≤ heldAfter plan d

/-- The holdings before and after come to at most 10^28, so that none of their sums is rounded. -/
def Unrounded (plan : PlanPayload) : Prop :=
  (plan.deltas.map fun d => d.currentQuantity + d.targetQuantity).sum ≤ 10 ^ 28

instance (plan : PlanPayload) : Decidable (Unrounded plan) := by unfold Unrounded; infer_instance

theorem Unrounded.le {plan : PlanPayload} (h : Unrounded plan) {d : SleeveDelta} (hd : d ∈ plan.deltas) :
    d.currentQuantity + d.targetQuantity ≤ 10 ^ 28 :=
  (List.single_le_sum (fun _ _ => Nat.zero_le _) _ (List.mem_map_of_mem hd)).trans h

theorem Accepted.signed_exact {plan : PlanPayload} (h : Accepted plan) (hsmall : Unrounded plan) {d : SleeveDelta} (hd : d ∈ plan.deltas) :
    d.signedQuantity = d.targetQuantity - d.currentQuantity := by
  have hle := hsmall.le hd
  rw [h.signed d hd, whole_eq]
  rw [abs_le]
  constructor
  · omega
  · omega

theorem Accepted.magnitude_le {plan : PlanPayload} (h : Accepted plan) (hsmall : Unrounded plan) :
    magnitude (plan.deltas.map (·.signedQuantity)) ≤ 10 ^ 28 := by
  have hsum : magnitude (plan.deltas.map (·.signedQuantity)) ≤
      ((plan.deltas.map fun d => ((d.currentQuantity + d.targetQuantity : ℕ) : ℤ)).sum) := by
    rw [magnitude, List.map_map]
    refine List.sum_le_sum fun d hd => ?_
    show |d.signedQuantity| ≤ _
    rw [h.signed_exact hsmall hd, abs_le]
    constructor
    · omega
    · omega
  refine hsum.trans ?_
  have hcast : (plan.deltas.map fun d => ((d.currentQuantity + d.targetQuantity : ℕ) : ℤ)).sum =
      ((plan.deltas.map fun d => d.currentQuantity + d.targetQuantity).sum : ℕ) := by
    rw [Nat.cast_list_sum, List.map_map]
    rfl
  rw [hcast]
  exact_mod_cast hsmall

/-- Distinct sleeves make an accepted plan a sound one. -/
theorem Accepted.planSound {plan : PlanPayload} (h : Accepted plan) (hsmall : Unrounded plan)
    (hsleeves : (plan.deltas.map (·.sleeveId)).Nodup) : PlanSound plan := by
  have hmagnitude := h.magnitude_le hsmall
  have hnet : |netDelta plan.deltas| ≤ 10 ^ 28 :=
    (Multiset.abs_sum_le_sum_abs (s := (plan.deltas.map (·.signedQuantity) : Multiset ℤ))).trans hmagnitude
  have hsplit := h.split
  obtain ⟨hexact, hcrosses⟩ := splitInternalAndExternalAllocations_crosses h.keys
  rw [splitInternalAndExternalAllocations_eq h.keys hmagnitude, hexact] at hsplit
  obtain ⟨hinternal, hexternal⟩ := Prod.mk.inj (Except.ok.inj hsplit)
  rw [hinternal, hexternal] at hcrosses
  have htotal := total_eq hmagnitude
  refine ⟨h.keys, hsleeves, fun d hd => h.signed_exact hsmall hd, hinternal.symm, hexternal.symm, hcrosses.internal_net,
    hcrosses.external_net, ?_, ?_, h.price⟩
  · rw [h.side, htotal]
    rfl
  · have hquantity := h.quantity
    rw [htotal] at hquantity
    have hwhole : whole |netDelta plan.deltas| = |netDelta plan.deltas| := whole_eq (by rwa [abs_abs])
    have hquantity : (plan.quantity : ℤ) = |netDelta plan.deltas| := hquantity.trans hwhole
    rw [← Int.natCast_natAbs] at hquantity
    exact Int.ofNat.inj hquantity

/-- **A payload re-establishes what the builder guarantees exactly where it names no sleeve under two intents**; the
holdings have to be within what the context keeps for the one direction. -/
theorem accepted_reestablishes {codec : Codec} {payload : Json} {plan : SymbolNetPlan}
    (h : validateSymbolNetPlanMetadata codec payload = .ok plan) :
    (Reestablishes plan.toPlanPayload → OneIntent codec payload) ∧
      (OneIntent codec payload ∧ Unrounded plan.toPlanPayload → Reestablishes plan.toPlanPayload) := by
  obtain ⟨haccepted, hnames⟩ := validate_accepted h
  refine ⟨fun hrestored p hp q hq hsleeve => ?_, fun hcondition => ?_⟩
  · rw [hnames] at hp hq
    obtain ⟨d, hd, rfl⟩ := List.mem_map.mp hp
    obtain ⟨e, he, rfl⟩ := List.mem_map.mp hq
    obtain rfl := List.inj_on_of_nodup_map hrestored.sleeves hd he (Subtype.ext hsleeve)
    rfl
  · obtain ⟨hone, hsmall⟩ := hcondition
    have hsleeves : (plan.deltas.map (·.sleeveId)).Nodup := by
      refine List.Nodup.map_on (fun d hd e he hsleeve => ?_) (List.Nodup.of_map _ haccepted.keys)
      have hintent := hone (d.sleeveId.val, d.intentId.val) (hnames ▸ List.mem_map_of_mem hd) (e.sleeveId.val, e.intentId.val)
        (hnames ▸ List.mem_map_of_mem he) (congrArg Subtype.val hsleeve)
      exact List.inj_on_of_nodup_map haccepted.keys hd he (Prod.ext hsleeve (Subtype.ext hintent))
    have hsound := haccepted.planSound hsmall hsleeves
    refine ⟨hsleeves, fun d hd => hsound.sleeve_total hd, fun d hd => ?_⟩
    rw [heldAfter, hsound.sleeve_total hd]
    exact Int.natCast_nonneg _

/-! ### Two payloads -/

def sampleDelta (intentId sleeveId currentQuantity targetQuantity signedQuantity : String) : Json :=
  .obj [("intentId", .str intentId), ("sleeveId", .str sleeveId), ("currentQuantity", .str currentQuantity),
    ("targetQuantity", .str targetQuantity), ("signedQuantity", .str signedQuantity)]

def sampleAllocation (intentId sleeveId signedQuantity : String) : Json :=
  .obj [("intentId", .str intentId), ("sleeveId", .str sleeveId), ("signedQuantity", .str signedQuantity)]

/-- A payload that sells some shares. -/
def samplePayload (quantity : String) (deltas allocations : List Json) (planId : String) : Json :=
  .obj [("schemaVersion", .str planSchema), ("scopeId", .str "scope"), ("planId", .str planId), ("portfolioId", .str "portfolio"),
    ("portfolioHash", .str "hash"), ("symbol", .str "005930"), ("side", .str "SELL"), ("quantity", .str quantity),
    ("referencePrice", .str "70000"), ("sleeveDeltas", .arr deltas), ("internalAllocations", .arr []),
    ("allocations", .arr allocations)]

/-- Two sleeves sell. -/
def twoSleeves : Json :=
  samplePayload "15" [sampleDelta "one" "a" "10" "0" "-10", sampleDelta "two" "b" "10" "5" "-5"]
    [sampleAllocation "one" "a" "-10", sampleAllocation "two" "b" "-5"]
    "95019ba082cd935861420df14697e56b69e0e4298417970d00c686c3c2fd2e25"

theorem twoSleeves_reestablished : ∃ plan : SymbolNetPlan, plan.quantity = 15 ∧ Reestablishes plan.toPlanPayload := by
  obtain ⟨plan, hplan, hquantity, hone, hsmall⟩ : ∃ plan, validateSymbolNetPlanMetadata
      (digestCodec "95019ba082cd935861420df14697e56b69e0e4298417970d00c686c3c2fd2e25") twoSleeves = .ok plan ∧ plan.quantity = 15 ∧
      OneIntent (digestCodec "95019ba082cd935861420df14697e56b69e0e4298417970d00c686c3c2fd2e25") twoSleeves ∧
      Unrounded plan.toPlanPayload := by
    decide +kernel
  exact ⟨plan, hquantity, (accepted_reestablishes hplan).2 ⟨hone, hsmall⟩⟩

/-- One sleeve sells its ten shares under two intents. -/
def doubledSleeve : Json :=
  samplePayload "20" [sampleDelta "one" "a" "10" "0" "-10", sampleDelta "two" "a" "10" "0" "-10"]
    [sampleAllocation "one" "a" "-10", sampleAllocation "two" "a" "-10"]
    "1870f57a82c8cc5ea95f9dfbe022f901b74e9d94cae3c42191ee5f98021cafa7"

/-- **The payload is accepted**, and leaves the sleeve with ten shares less than none. -/
theorem doubled_sleeve_accepted : ∃ plan, validateSymbolNetPlanMetadata
      (digestCodec "1870f57a82c8cc5ea95f9dfbe022f901b74e9d94cae3c42191ee5f98021cafa7") doubledSleeve = .ok plan ∧
    (∀ d ∈ plan.deltas, heldAfter plan.toPlanPayload d = -10) ∧ ¬ Reestablishes plan.toPlanPayload := by
  obtain ⟨plan, hplan, hheld, hdoubled⟩ : ∃ plan, validateSymbolNetPlanMetadata
      (digestCodec "1870f57a82c8cc5ea95f9dfbe022f901b74e9d94cae3c42191ee5f98021cafa7") doubledSleeve = .ok plan ∧
      (∀ d ∈ plan.deltas, heldAfter plan.toPlanPayload d = -10) ∧ ¬ (plan.deltas.map (·.sleeveId)).Nodup := by
    decide +kernel
  exact ⟨plan, hplan, hheld, fun h => hdoubled h.sleeves⟩

end LiveTrader.Portfolio.Context
