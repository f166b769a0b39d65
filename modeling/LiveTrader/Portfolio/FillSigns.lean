/-
# `Portfolio.FillSigns` — the sign of a sleeve's fill

A fill books, for each sleeve, the difference of its shares at two running totals.  An order is `Steady` if no sleeve
falls back between any two of its totals: exactly then all shares grow with the total, and every SLEEVE_FILL event of
the order has the sign of the order (`fills_never_reverse`).  An order over three sleeves need not be steady
(`reversed_fill`).
-/
import LiveTrader.Portfolio.Remainders
import LiveTrader.Portfolio.FillRuns

namespace LiveTrader.Portfolio

open Lib.Py Lib.Decimal

/-! ## Where a sleeve's fill comes from -/

/-- The signed quantity that a payload fills a sleeve of a plan with. -/
def Payload.sleeveFillOf (planId : String) : Payload → Option ℤ
  | .sleeveFill p _ _ a _ => if p = planId then some a.signedQuantity else none
  | _ => none

/-- A quantity that a fill of the order booked. -/
def BookedFor (order : OrderRow) (signed : ℤ) : Prop :=
  ∃ previous quantity active, 0 < quantity ∧ activeShares order.allocations order.side previous quantity = .ok active ∧
    ∃ s ∈ active, s.signedQuantity = signed

/-- Every SLEEVE_FILL event was booked for the order of its plan. -/
def Attributed (l : Ledger) : Prop :=
  ∀ event ∈ l.log, ∀ planId signed, event.payload.sleeveFillOf planId = some signed →
    ∃ order ∈ l.orders, order.planId = planId ∧ BookedFor order signed

section attributed

variable {H : Hashes} {l l' : Ledger}

theorem exists_of_mem_zipWith {α β γ : Type} {f : α → β → γ} {c : γ} : ∀ {l : List α} {l' : List β}, c ∈ List.zipWith f l l' →
    ∃ a ∈ l, ∃ b ∈ l', f a b = c := by
  intro l
  induction l with
  | nil =>
    intro l' h
    cases h
  | cons a l ih =>
    intro l' h
    cases l' with
    | nil => cases h
    | cons b l' =>
      rcases List.mem_cons.mp h with rfl | h
      · exact ⟨a, List.mem_cons_self, b, List.mem_cons_self, rfl⟩
      · obtain ⟨a', ha, b', hb, heq⟩ := ih h
        exact ⟨a', List.mem_cons_of_mem _ ha, b', List.mem_cons_of_mem _ hb, heq⟩

theorem Attributed.append (h : Attributed l) (new : List Event) (horders : l.orders ⊆ l'.orders) (hlog : l'.log = l.log ++ new)
    (hnew : ∀ event ∈ new, ∀ planId signed, event.payload.sleeveFillOf planId = some signed →
      ∃ order ∈ l.orders, order.planId = planId ∧ BookedFor order signed) : Attributed l' := by
  intro event he planId signed hfill
  rw [hlog] at he
  have hsome : ∃ order ∈ l.orders, order.planId = planId ∧ BookedFor order signed := by
    rcases List.mem_append.mp he with he | he
    · exact h event he planId signed hfill
    · exact hnew event he planId signed hfill
  obtain ⟨order, horder, hbooked⟩ := hsome
  exact ⟨order, horders horder, hbooked⟩

theorem sleeveFillOf_cross {plan : SymbolNetPlan} {now : ℤ} {cross : List Event} (h : internalCrossEvents plan now = .ok cross)
    {event : Event} (he : event ∈ cross) (planId : String) : event.payload.sleeveFillOf planId = none := by
  rcases (crossEvents_payload h he).2 with ⟨_, hp⟩ | ⟨_, _, _, hp⟩
  · rw [hp]
    rfl
  · rw [hp]
    rfl

theorem Applies.attributed {P : Notice → Prop} (step : Applies H P l l') (h : Attributed l) : Attributed l' := by
  cases step with
  | @fill order n active fees _ horder _ _ hquantity _ _ _ hactive _ happ =>
    refine h.append _ (happ.orders ▸ List.Subset.refl _) happ.log fun event he planId signed hfill => ?_
    rcases List.mem_cons.mp he with rfl | he
    · cases hfill
    · obtain ⟨a, ha, rfl⟩ := List.mem_map.mp he
      obtain ⟨hplan, hsigned⟩ := Option.ite_none_right_eq_some.mp hfill
      refine ⟨order, horder, hplan, _, _, active, hquantity, hactive, ?_⟩
      obtain ⟨s, hs, fee, -, rfl⟩ := exists_of_mem_zipWith ha
      exact ⟨s, hs, Option.some.inj hsigned⟩
  | status _ happ =>
    refine h.append _ (happ.orders ▸ List.Subset.refl _) happ.log fun event he planId signed hfill => ?_
    obtain rfl := List.mem_singleton.mp he
    cases hfill
  | revise _ _ happ =>
    refine h.append _ (happ.orders ▸ List.Subset.refl _) happ.log fun event he planId signed hfill => ?_
    rcases (revisionEvents_payload he).2 with ⟨a, hp, _⟩ | ⟨a, hp⟩
    · rw [hp] at hfill
      cases hfill
    · rw [hp] at hfill
      cases hfill
  | quiet hquiet happ =>
    refine h.append _ (happ.orders ▸ List.Subset.refl _) happ.log fun event he planId signed hfill => ?_
    obtain ⟨_, _, hp⟩ := hquiet event he
    rw [hp] at hfill
    cases hfill

theorem Books.attributed (step : Books H l l') (h : Attributed l) : Attributed l' := by
  cases step with
  | scope horders hlog _ =>
    refine h.append [] (horders ▸ List.Subset.refl _) ?_ fun event he => absurd he List.not_mem_nil
    rw [hlog, List.append_nil]
  | order _ _ _ _ _ hcross happ =>
    refine h.append _ ?_ happ.log fun event he planId signed hfill => ?_
    · rw [happ.orders]
      exact List.subset_append_left _ _
    · rcases List.mem_cons.mp he with rfl | he
      · cases hfill
      · rw [sleeveFillOf_cross hcross he] at hfill
        cases hfill
  | cross _ hcross happ =>
    refine h.append _ (happ.orders ▸ List.Subset.refl _) happ.log fun event he planId signed hfill => ?_
    rw [sleeveFillOf_cross hcross he] at hfill
    cases hfill
  | applies step => exact step.attributed h

theorem Reachable.attributed (h : Reachable H l) : Attributed l :=
  h.books_induction (fun _ he => absurd he List.not_mem_nil) fun _ step hl => step.attributed hl

end attributed

/-! ## Steady orders -/

/-- No sleeve falls back between two totals of the order. -/
def Steady (allocations : List SleeveAllocation) : Prop :=
  ∀ later ≤ (netQuantity allocations).natAbs, ∀ filled ≤ later, ¬ FallsBack allocations filled later

instance (allocations : List SleeveAllocation) : Decidable (Steady allocations) := by unfold Steady; infer_instance

section steady

variable {allocations : List SleeveAllocation} {side : Side}

theorem shares_forall₂_iff (hs : OneSided side allocations) (hkeys : (allocations.map fun a => (a.sleeveId, a.intentId)).Nodup)
    (hnet : (netQuantity allocations).natAbs < 10 ^ 12) {filled later : ℕ} (hle : filled ≤ later) {shares shares' : List ℤ}
    (h : sharesAt allocations side filled = .ok shares) (h' : sharesAt allocations side later = .ok shares') :
    List.Forall₂ (fun x y => |x| ≤ |y|) shares shares' ↔ ¬ FallsBack allocations filled later := by
  rw [sharesAt_eq hs hkeys hnet h, sharesAt_eq hs hkeys hnet h', List.forall₂_map_left_iff, List.forall₂_map_right_iff,
    List.forall₂_same]
  exact monotone_iff hs hle

theorem sharesAt_ok (hs : OneSided side allocations) (hne : allocations ≠ []) (hnet : (netQuantity allocations).natAbs < 10 ^ 12)
    {filled : ℕ} (hf : filled ≤ (netQuantity allocations).natAbs) : ∃ shares, sharesAt allocations side filled = .ok shares := by
  rw [sharesAt]
  split
  · exact proportional_ok hs hne hf hnet
  · exact ⟨_, rfl⟩

/-- Exactly the shares of a steady order grow with the total. -/
theorem monotone_iff_steady (hs : OneSided side allocations) (hkeys : (allocations.map fun a => (a.sleeveId, a.intentId)).Nodup)
    (hnet : (netQuantity allocations).natAbs < 10 ^ 12) :
    (∀ filled later shares shares', filled < later → later ≤ (netQuantity allocations).natAbs →
      sharesAt allocations side filled = .ok shares → sharesAt allocations side later = .ok shares' →
      List.Forall₂ (fun x y => |x| ≤ |y|) shares shares') ↔ Steady allocations := by
  constructor
  · intro h later hlater filled hle hfall
    have hne : allocations ≠ [] := by
      rintro rfl
      obtain ⟨a, ha, -⟩ := hfall
      cases ha
    obtain ⟨shares, hshares⟩ := sharesAt_ok hs hne hnet (hle.trans hlater)
    obtain ⟨shares', hshares'⟩ := sharesAt_ok hs hne hnet hlater
    rcases hle.lt_or_eq with hlt | rfl
    · exact (shares_forall₂_iff hs hkeys hnet hle hshares hshares').mp
        (h filled later shares shares' hlt hlater hshares hshares') hfall
    · obtain ⟨a, -, -, hup, hdown⟩ := hfall
      exact hdown hup
  · intro h filled later shares shares' hlt hlater hshares hshares'
    exact (shares_forall₂_iff hs hkeys hnet hlt.le hshares hshares').mpr (h later hlater filled hlt.le)

/-- What a fill of a steady order books has the sign of the order. -/
theorem activeShares_sign (hs : OneSided side allocations) (hkeys : (allocations.map fun a => (a.sleeveId, a.intentId)).Nodup)
    (hnet : (netQuantity allocations).natAbs < 10 ^ 12) (hsteady : Steady allocations) {previous quantity : ℕ}
    {active : List SleeveAllocation} (h : activeShares allocations side previous quantity = .ok active) :
    ∀ s ∈ active, 0 < s.signedQuantity * side.sign := by
  obtain ⟨current, hcurrent, h⟩ := bind_eq_ok.mp h
  obtain ⟨prior, hprior, h⟩ := bind_eq_ok.mp h
  obtain rfl := Except.ok.inj h
  have hlater : previous + quantity ≤ (netQuantity allocations).natAbs := by
    obtain ⟨_, -, hrest⟩ := bind_eq_ok.mp hcurrent
    obtain ⟨_, hle, -⟩ := bind_eq_ok.mp hrest
    exact require_eq_ok.mp hle
  have hgrow := (monotone_iff hs (Nat.le_add_right previous quantity)).mpr
    (hsteady (previous + quantity) hlater previous (Nat.le_add_right previous quantity))
  rw [proportional_eq hs hkeys hnet hcurrent, sharesAt_eq hs hkeys hnet hprior]
  have hzip : List.zipWith (· - ·) (allocations.map (shareOf allocations side (previous + quantity)))
      (allocations.map (shareOf allocations side previous)) =
      allocations.map fun a => shareOf allocations side (previous + quantity) a - shareOf allocations side previous a := by
    rw [List.zipWith_map]
    exact List.zipWith_self
  intro s hmem
  rw [hzip] at hmem
  obtain ⟨hmem, hzero⟩ := List.mem_filter.mp hmem
  rw [withQuantities, List.zipWith_map_right, List.zipWith_self] at hmem
  obtain ⟨a, ha, rfl⟩ := List.mem_map.mp hmem
  have hle := hgrow a ha
  rw [abs_shareOf (hs a ha), abs_shareOf (hs a ha)] at hle
  have hne : shareOf allocations side (previous + quantity) a - shareOf allocations side previous a ≠ 0 := of_decide_eq_true hzero
  show 0 < (shareOf allocations side (previous + quantity) a - shareOf allocations side previous a) * side.sign
  rcases side.sign_eq with h | h
  · rw [h] at hle ⊢
    omega
  · rw [h] at hle ⊢
    omega

end steady

/-- **Fills never reverse a sleeve exactly for steady orders**: their shares grow with the total, and every SLEEVE_FILL
event in a reachable ledger has the sign of its order. -/
theorem fills_never_reverse (H : Hashes) :
    (∀ (allocations : List SleeveAllocation) (side : Side), OneSided side allocations →
      (allocations.map fun a => (a.sleeveId, a.intentId)).Nodup → (netQuantity allocations).natAbs < 10 ^ 12 →
      ((∀ filled later shares shares', filled < later → later ≤ (netQuantity allocations).natAbs →
        sharesAt allocations side filled = .ok shares → sharesAt allocations side later = .ok shares' →
        List.Forall₂ (fun x y => |x| ≤ |y|) shares shares') ↔ Steady allocations)) ∧
    ∀ l : Ledger, Reachable H l → ∀ order ∈ l.orders, OneSided order.side order.allocations →
      (order.allocations.map fun a => (a.sleeveId, a.intentId)).Nodup → (netQuantity order.allocations).natAbs < 10 ^ 12 →
      Steady order.allocations → ∀ event ∈ l.log, ∀ signed, event.payload.sleeveFillOf order.planId = some signed →
      0 < signed * order.side.sign := by
  refine ⟨fun allocations side => monotone_iff_steady, fun l hreach order horder hs hkeys hnet hsteady event he signed hfill => ?_⟩
  obtain ⟨row, hrow, hplan, previous, quantity, active, -, hactive, s, hmem, rfl⟩ :=
    hreach.attributed event he order.planId signed hfill
  obtain rfl := List.inj_on_of_nodup_map hreach.sound.planIds hrow horder hplan
  exact activeShares_sign hs hkeys hnet hsteady hactive s hmem

/-! ### Two orders -/

instance (side : Side) (allocations : List SleeveAllocation) : Decidable (OneSided side allocations) := by
  unfold OneSided; infer_instance

/-- A ledger with one accepted order. -/
def acceptedOrder (targets : Result (List SleeveTarget)) : Result (SymbolNetPlan × Ledger) := do
  let l ← sampleScope
  let targets ← targets
  let plan ← samplePlan targets
  let l' ← recordAcceptedOrder sampleHashes l plan "order-1" "" (.stamp 0)
  pure (plan, l'.1)

theorem reachable_acceptedOrder {targets : Result (List SleeveTarget)} {s : SymbolNetPlan × Ledger} (h : acceptedOrder targets = .ok s) :
    Reachable sampleHashes s.2 := by
  obtain ⟨l, hl, h⟩ := bind_eq_ok.mp h
  obtain ⟨targets, -, h⟩ := bind_eq_ok.mp h
  obtain ⟨plan, -, h⟩ := bind_eq_ok.mp h
  obtain ⟨⟨l', created⟩, haccept, h⟩ := bind_eq_ok.mp h
  obtain rfl := Except.ok.inj h
  exact (Relation.ReflTransGen.single (.registerScope hl)).tail (.accept haccept)

/-- Two shares for one sleeve and one for another. -/
theorem sampleOrder_never_reverses : ∃ l, Reachable sampleHashes l ∧ ∃ order ∈ l.orders, Steady order.allocations ∧
    ∃ event ∈ l.log, ∃ signed, event.payload.sleeveFillOf order.planId = some signed ∧ 0 < signed * order.side.sign := by
  obtain ⟨s, hs, l, hl, order, horder, ⟨hside, hkeys, hnet, hsteady⟩, event, he, hfill⟩ :
      ∃ s, acceptedOrder sampleTargets = .ok s ∧
      ∃ l : Ledger × ExecutionSyncReport, applyExecutionEvents sampleHashes s.2 "scope" [sampleReport "fill-2" 2 .absent "PARTIAL"] =
        .ok l ∧ ∃ order ∈ l.1.orders, (OneSided order.side order.allocations ∧
      (order.allocations.map fun a => (a.sleeveId, a.intentId)).Nodup ∧ (netQuantity order.allocations).natAbs < 10 ^ 12 ∧
      Steady order.allocations) ∧ ∃ event ∈ l.1.log, event.payload.sleeveFillOf order.planId = some 1 := by
    decide +kernel
  have hreach : Reachable sampleHashes l.1 := (reachable_acceptedOrder hs).tail (.apply hl)
  exact ⟨l.1, hreach, order, horder, hsteady, event, he, 1, hfill,
    (fills_never_reverse sampleHashes).2 l.1 hreach order horder hside hkeys hnet hsteady event he 1 hfill⟩

/-- Fourteen shares for three sleeves. -/
def threeTargets : Result (List SleeveTarget) := do
  let a ← SleeveTarget.new "buy-a" "a" "005930" (.number 6)
  let b ← SleeveTarget.new "buy-b" "b" "005930" (.number 6)
  let c ← SleeveTarget.new "buy-c" "c" "005930" (.number 2)
  pure [a, b, c]

/-- **A purchase that books a sleeve's sale**: of ten shares the third sleeve has two, of eleven it has one. -/
theorem reversed_fill : ∃ s, acceptedOrder threeTargets = .ok s ∧
    ∃ l : Ledger × ExecutionSyncReport, applyExecutionEvents sampleHashes s.2 "scope"
      [sampleReport "fill-1" 10 .absent "PARTIAL", sampleReport "fill-2" 1 .absent "PARTIAL"] = .ok l ∧
    (s.1.side = .buy ∧ OneSided s.1.side s.1.allocations ∧ s.1.quantity = 14) ∧
    (sharesAt s.1.allocations s.1.side 10 = .ok [4, 4, 2] ∧ sharesAt s.1.allocations s.1.side 11 = .ok [5, 5, 1]) ∧
    ∃ event ∈ l.1.log, event.payload.sleeveFillOf s.1.planId = some (-1) := by
  decide +kernel

end LiveTrader.Portfolio
