/-
# `Portfolio.Context` — netting in the decimal context

`Decimal` keeps 28 digits of a sum, also of whole shares: `Portfolio.Plan` says what the planning half computes
as long as nothing is rounded, and this module what it computes.  The two agree where the quantities come to at
most 10^28 (`splitInternalAndExternalAllocations_eq`), and then crossing is exact and maximal; a single quantity
of 29 digits is rounded (`rounded_split`).
-/
import LiveTrader.Portfolio.Crossing

namespace LiveTrader.Portfolio

open Lib.Py Lib.Decimal

namespace Context

/-! ## The crossing, rounded -/

/-- What the context keeps of a whole number. -/
def whole (n : ℤ) : ℤ := ⌊ctx 28 n⌋

/-- `sum(…, _ZERO)`. -/
def total (quantities : List ℤ) : ℤ := quantities.foldl (fun sum quantity => whole (sum + quantity)) 0

/-- `internal[key] += x`. -/
def bump (internal : SleeveKey → ℤ) (key : SleeveKey) (x : ℤ) : SleeveKey → ℤ :=
  fun k => if k = key then whole (internal k + x) else internal k

/-- The turns of the crossing loop that keep one positive sleeve. -/
def crossOne (positive : SleeveKey) : ℤ → List (SleeveKey × ℤ) → (SleeveKey → ℤ) → List (SleeveKey × ℤ) × (SleeveKey → ℤ)
  | _, [], internal => ([], internal)
  | remaining, (negative, left) :: negatives, internal =>
      let crossed := min remaining left
      let internal := bump (bump internal positive crossed) negative (-crossed)
      if whole (remaining - crossed) = 0 then
        if whole (left - crossed) = 0 then (negatives, internal)
        else ((negative, whole (left - crossed)) :: negatives, internal)
      else crossOne positive (whole (remaining - crossed)) negatives internal

/-- The crossing loop. -/
def crossAll : List (SleeveKey × ℤ) → List (SleeveKey × ℤ) → (SleeveKey → ℤ) → SleeveKey → ℤ
  | [], _, internal => internal
  | (positive, remaining) :: positives, negatives, internal =>
      let next := crossOne positive remaining negatives internal
      crossAll positives next.1 next.2

/-- The crossed quantity of every sleeve. -/
def internalCross (deltas : List SleeveDelta) : SleeveKey → ℤ :=
  crossAll
    ((deltas.filter fun d => 0 < d.signedQuantity).map fun d => (d.sleeveKey, d.signedQuantity))
    ((deltas.filter fun d => d.signedQuantity < 0).map fun d => (d.sleeveKey, whole (-d.signedQuantity)))
    fun _ => 0

/-- `_split_internal_and_external_allocations`. -/
def splitInternalAndExternalAllocations (deltas : List SleeveDelta) :
    Result (List SleeveAllocation × List SleeveAllocation) := do
  let internal := internalCross deltas
  let internalAllocations := deltas.filterMap fun d => allocationOf d (internal d.sleeveKey)
  let externalAllocations := deltas.filterMap fun d => allocationOf d (whole (d.signedQuantity - internal d.sleeveKey))
  require (total (internalAllocations.map (·.signedQuantity)) = 0)
    (.runtime "internal sleeve cross does not conserve quantity")
  require (total (externalAllocations.map (·.signedQuantity)) = total (deltas.map (·.signedQuantity)))
    (.runtime "external sleeve allocation does not match net quantity")
  pure (internalAllocations, externalAllocations)

/-! ## Building a plan -/

/-- One delta of the plan. -/
def sleeveDelta (currentPositions : String → String → Raw) (item : SleeveTarget) : Result SleeveDelta := do
  let current ← quantity (currentPositions item.sleeveId.val item.symbol.val)
    ("current position " ++ item.sleeveId.val ++ "/" ++ item.symbol.val) true
  let signed := whole (item.targetQuantity - current)
  require (¬ (whole (current + signed) < 0))
    (.value ("target would short sleeve " ++ item.sleeveId.val ++ "/" ++ item.symbol.val))
  pure { intentId := item.intentId, sleeveId := item.sleeveId, currentQuantity := current,
         targetQuantity := item.targetQuantity, signedQuantity := signed }

/-- The contents of the plan of some deltas. -/
def planOf (scopeId portfolioId : Text) (portfolioHash : String) (symbol : Symbol) (referencePrice : ℚ) (deltas : List SleeveDelta)
    (allocations : List SleeveAllocation × List SleeveAllocation) : PlanPayload :=
  { schemaVersion := planSchema, scopeId, portfolioId, portfolioHash, symbol, side := sideOf (total (deltas.map (·.signedQuantity))),
    quantity := (whole |total (deltas.map (·.signedQuantity))|).natAbs, referencePrice, deltas,
    internalAllocations := allocations.1, allocations := allocations.2 }

/-- `build_symbol_net_plan`; `hash` is taken of what the payload says in texts. -/
def buildSymbolNetPlan (hash : PlanPayload → String) (scopeId portfolioId portfolioHash : String)
    (targets : List SleeveTarget) (currentPositions : String → String → Raw)
    (brokerQuantity referencePrice : Raw) : Result SymbolNetPlan := do
  let scopeId ← text scopeId "scope_id"
  let portfolioId ← text portfolioId "portfolio_id"
  let portfolioHash ← text portfolioHash "portfolio_hash"
  match targets with
  | [] => .error (.value "at least one sleeve target is required")
  | first :: _ => do
      require (∀ item ∈ targets, item.symbol = first.symbol)
        (.value "a symbol plan cannot mix symbols")
      require (targets.map fun item => (item.sleeveId, item.symbol)).Nodup
        (.value "only one target per sleeve and symbol is allowed")
      require (targets.map (·.intentId)).Nodup (.value "intent_id must be unique")
      let deltas ← (targets.insertionSort targetLe).mapM (sleeveDelta currentPositions)
      let net := total (deltas.map (·.signedQuantity))
      let available ← quantity brokerQuantity ("broker holding " ++ first.symbol.val) true
      require (¬ (net < 0 ∧ (available : ℤ) < whole (-net)))
        (.value ("broker holding is insufficient for " ++ first.symbol.val ++ ": need "
          ++ toString (whole (-net)) ++ ", have " ++ toString available))
      let allocations ← splitInternalAndExternalAllocations deltas
      let sealedReferencePrice ← decimal referencePrice "reference_price" (some 0)
      require (¬ (allocations.1 ≠ [] ∧ sealedReferencePrice ≤ 0))
        (.value "an internal sleeve cross requires a positive reference price")
      let payload := planOf scopeId portfolioId (lower portfolioHash.val) first.symbol sealedReferencePrice deltas allocations
      pure { payload with planId := hash payload }

/-! ## Exactness -/

theorem whole_eq {n : ℤ} (h : |n| ≤ 10 ^ 28) : whole n = n := by
  have hfits : Fits 28 (n : ℚ) := by
    rcases h.lt_or_eq with hlt | heq
    · exact ⟨n, 0, by rw [zpow_zero, mul_one], hlt⟩
    · rcases (abs_eq (by norm_num)).mp heq with rfl | rfl
      · exact ⟨1, 28, by norm_num, by norm_num⟩
      · exact ⟨-1, 28, by norm_num, by norm_num⟩
  rw [whole, ctx_of_fits hfits, Int.floor_intCast]

/-- The magnitude of some quantities. -/
def magnitude (quantities : List ℤ) : ℤ := (quantities.map (|·|)).sum

theorem magnitude_nonneg (quantities : List ℤ) : 0 ≤ magnitude quantities := by
  refine List.sum_nonneg fun x hx => ?_
  obtain ⟨q, -, rfl⟩ := List.mem_map.mp hx
  exact abs_nonneg q

theorem foldl_total {quantities : List ℤ} : ∀ {sum : ℤ}, |sum| + magnitude quantities ≤ 10 ^ 28 →
    quantities.foldl (fun sum quantity => whole (sum + quantity)) sum = sum + quantities.sum := by
  induction quantities with
  | nil =>
    intro sum _
    rw [List.foldl_nil, List.sum_nil, add_zero]
  | cons q quantities ih =>
    intro sum h
    rw [magnitude, List.map_cons, List.sum_cons] at h
    have hrest : 0 ≤ magnitude quantities := magnitude_nonneg quantities
    have hsum := abs_add_le sum q
    have hwhole : whole (sum + q) = sum + q := whole_eq (by rw [magnitude] at hrest; omega)
    rw [List.foldl_cons, hwhole, ih (by rw [magnitude]; omega), List.sum_cons, add_assoc]

theorem total_eq {quantities : List ℤ} (h : magnitude quantities ≤ 10 ^ 28) : total quantities = quantities.sum := by
  rw [total, foldl_total (by rwa [abs_zero, zero_add]), zero_add]

/-! ## The loop, exact -/

/-- The crossed quantities are within a bound, and so are the negatives. -/
structure InRange (bound : ℤ) (negatives : List (SleeveKey × ℤ)) (internal : SleeveKey → ℤ) : Prop where
  crossed : ∀ k, |internal k| ≤ bound
  left : ∀ e ∈ negatives, 0 ≤ e.2 ∧ e.2 ≤ 10 ^ 28

theorem bump_eq {internal : SleeveKey → ℤ} {key : SleeveKey} {x bound : ℤ} (h : |internal key| ≤ bound)
    (hx : |x| + bound ≤ 10 ^ 28) : bump internal key x = Portfolio.bump internal key x := by
  funext k
  rw [bump, Portfolio.bump]
  split
  · next hk =>
    subst hk
    have hsum := abs_add_le (internal k) x
    exact whole_eq (by omega)
  · rfl

/-- Two distinct keys are bumped once each. -/
theorem abs_bump_bump_le {internal : SleeveKey → ℤ} {positive negative : SleeveKey} (hne : positive ≠ negative) {x bound : ℤ}
    (h : ∀ k, |internal k| ≤ bound) (k : SleeveKey) :
    |Portfolio.bump (Portfolio.bump internal positive x) negative (-x) k| ≤ bound + |x| := by
  have hk := h k
  have hadd := abs_add_le (internal k) x
  have hsub := abs_add_le (internal k) (-x)
  rw [abs_neg] at hsub
  have hx := abs_nonneg x
  rw [Portfolio.bump, Portfolio.bump]
  by_cases hpos : k = positive
  · subst hpos
    rw [if_neg hne, if_pos rfl]
    omega
  · rw [if_neg hpos]
    split
    · omega
    · omega

theorem crossOne_eq (positive : SleeveKey) : ∀ (negatives : List (SleeveKey × ℤ)) (remaining bound : ℤ) (internal : SleeveKey → ℤ),
    0 ≤ remaining → bound + remaining ≤ 10 ^ 28 → positive ∉ negatives.map Prod.fst → InRange bound negatives internal →
    crossOne positive remaining negatives internal = Portfolio.crossOne positive remaining negatives internal ∧
      InRange (bound + remaining) (Portfolio.crossOne positive remaining negatives internal).1
        (Portfolio.crossOne positive remaining negatives internal).2 := by
  intro negatives
  induction negatives with
  | nil =>
    intro remaining bound internal hr _ _ h
    refine ⟨rfl, fun k => ?_, fun e he => absurd he List.not_mem_nil⟩
    have hk := h.crossed k
    show |internal k| ≤ bound + remaining
    omega
  | cons e negatives ih =>
    obtain ⟨negative, left⟩ := e
    intro remaining bound internal hr hbound hni h
    rw [List.map_cons, List.mem_cons, not_or] at hni
    obtain ⟨hleft, hleft'⟩ := h.left (negative, left) List.mem_cons_self
    have hrest : ∀ e ∈ negatives, 0 ≤ e.2 ∧ e.2 ≤ 10 ^ 28 := fun e he => h.left e (List.mem_cons_of_mem _ he)
    have hb : 0 ≤ bound := (abs_nonneg _).trans (h.crossed negative)
    rw [crossOne, Portfolio.crossOne]
    dsimp only at hleft hleft' ⊢
    generalize hc : min remaining left = c
    have hc0 : 0 ≤ c := hc ▸ le_min hr hleft
    have hcr : c ≤ remaining := hc ▸ min_le_left _ _
    have hcl : c ≤ left := hc ▸ min_le_right _ _
    have habs : |c| = c := abs_of_nonneg hc0
    have hfirst : bump internal positive c = Portfolio.bump internal positive c := bump_eq (h.crossed positive) (by omega)
    have hlast : bump (Portfolio.bump internal positive c) negative (-c) =
        Portfolio.bump (Portfolio.bump internal positive c) negative (-c) := by
      refine bump_eq (x := -c) ?_ (show |(-c)| + bound ≤ 10 ^ 28 by rw [abs_neg]; omega)
      rw [Portfolio.bump, if_neg fun heq => hni.1 heq.symm]
      exact h.crossed negative
    have hr' : whole (remaining - c) = remaining - c := whole_eq (by rw [abs_of_nonneg (by omega)]; omega)
    have hl' : whole (left - c) = left - c := whole_eq (by rw [abs_of_nonneg (by omega)]; omega)
    rw [hfirst, hlast, hr', hl']
    have hrange : ∀ k, |Portfolio.bump (Portfolio.bump internal positive c) negative (-c) k| ≤ bound + c := fun k => by
      have hbumped := abs_bump_bump_le (x := c) hni.1 h.crossed k
      rwa [habs] at hbumped
    split
    · next hused =>
      refine ⟨by split <;> rfl, ?_⟩
      split
      · exact ⟨fun k => (hrange k).trans (by omega), hrest⟩
      · refine ⟨fun k => (hrange k).trans (by omega), fun e he => ?_⟩
        rcases List.mem_cons.mp he with rfl | he
        · exact ⟨by dsimp only; omega, by dsimp only; omega⟩
        · exact hrest e he
    · obtain ⟨heq, hrange'⟩ := ih (remaining - c) (bound + c) _ (by omega) (by omega) hni.2 ⟨hrange, hrest⟩
      refine ⟨heq, fun k => ?_, hrange'.left⟩
      have hk := hrange'.crossed k
      omega

theorem crossAll_eq (positives : List (SleeveKey × ℤ)) : ∀ (negatives : List (SleeveKey × ℤ)) (bound : ℤ) (internal : SleeveKey → ℤ),
    Positive positives → bound + amounts positives ≤ 10 ^ 28 → Positive negatives →
    (∀ k ∈ positives.map Prod.fst, k ∉ negatives.map Prod.fst) → InRange bound negatives internal →
    crossAll positives negatives internal = Portfolio.crossAll positives negatives internal := by
  induction positives with
  | nil => exact fun _ _ _ _ _ _ _ _ => rfl
  | cons e positives ih =>
    obtain ⟨positive, remaining⟩ := e
    intro negatives bound internal hpos hbound hneg hdis h
    have hr : 0 < remaining := hpos (positive, remaining) List.mem_cons_self
    have hpos' : Positive positives := fun e he => hpos e (List.mem_cons_of_mem _ he)
    have hrest : 0 ≤ amounts positives := by
      refine List.sum_nonneg fun x hx => ?_
      obtain ⟨e, he, rfl⟩ := List.mem_map.mp hx
      exact (hpos' e he).le
    rw [amounts_cons] at hbound
    dsimp only at hbound
    have hni : positive ∉ negatives.map Prod.fst := hdis positive List.mem_cons_self
    obtain ⟨heq, hrange⟩ := crossOne_eq positive negatives remaining bound internal hr.le (by omega) hni h
    have hspec := crossOne_spec positive negatives remaining internal hr hneg hni
    rw [crossAll, Portfolio.crossAll, heq]
    refine ih _ (bound + remaining) _ hpos' (by omega) hspec.left_pos (fun k hk hk' => ?_) hrange
    exact hdis k (List.mem_cons_of_mem _ hk) (hspec.keys k hk')

/-! ## The split, exact -/

section split

variable {deltas : List SleeveDelta}

theorem abs_le_magnitude {quantities : List ℤ} {q : ℤ} (h : q ∈ quantities) : |q| ≤ magnitude quantities := by
  have hnonneg : ∀ x ∈ quantities.map (|·|), 0 ≤ x := by
    intro x hx
    obtain ⟨q, -, rfl⟩ := List.mem_map.mp hx
    exact abs_nonneg q
  exact List.single_le_sum hnonneg _ (List.mem_map_of_mem h)

theorem abs_signed_le {d : SleeveDelta} (hd : d ∈ deltas) : |d.signedQuantity| ≤ magnitude (deltas.map (·.signedQuantity)) :=
  abs_le_magnitude (List.mem_map_of_mem hd)

theorem amounts_buyers_le : amounts (buyers deltas) ≤ magnitude (deltas.map (·.signedQuantity)) := by
  rw [amounts_buyers, bought, magnitude]
  refine List.sum_le_sum fun q _ => ?_
  exact max_le (abs_nonneg q) (le_abs_self q)

/-- Nothing is rounded in the loop. -/
theorem internalCross_eq (hnd : (deltas.map SleeveDelta.sleeveKey).Nodup) (h : magnitude (deltas.map (·.signedQuantity)) ≤ 10 ^ 28) :
    internalCross deltas = Portfolio.internalCross deltas := by
  have hsellers : ((deltas.filter fun d => d.signedQuantity < 0).map fun d => (d.sleeveKey, whole (-d.signedQuantity))) = sellers deltas := by
    refine List.map_congr_left fun d hd => ?_
    have hle := abs_signed_le (List.mem_filter.mp hd).1
    rw [whole_eq (by rw [abs_neg]; omega)]
  have hbuyers : Positive (buyers deltas) := fun e he => by
    obtain ⟨d, -, hpos, rfl⟩ := mem_buyers.mp he
    exact hpos
  have hnegatives : ∀ e ∈ sellers deltas, 0 < e.2 ∧ e.2 ≤ 10 ^ 28 := fun e he => by
    obtain ⟨d, hd, hneg, rfl⟩ := mem_sellers.mp he
    have hle := (neg_le_abs d.signedQuantity).trans (abs_signed_le hd)
    exact ⟨neg_pos.mpr hneg, hle.trans h⟩
  rw [internalCross, hsellers]
  refine crossAll_eq _ _ 0 _ hbuyers ?_ (fun e he => (hnegatives e he).1) (fun k hk hk' => ?_)
    ⟨fun k => by rw [abs_zero], fun e he => ⟨(hnegatives e he).1.le, (hnegatives e he).2⟩⟩
  · rw [zero_add]
    exact amounts_buyers_le.trans h
  · obtain ⟨e, he, rfl⟩ := List.mem_map.mp hk'
    obtain ⟨d, hd, hneg, rfl⟩ := mem_sellers.mp he
    exact sleeveKey_notMem_buyers hnd hd hneg.le hk

theorem total_allocationsOf (h : magnitude (deltas.map (·.signedQuantity)) ≤ 10 ^ 28) {part : SleeveDelta → ℤ}
    (hpart : ∀ d ∈ deltas, |part d| ≤ |d.signedQuantity|) :
    total ((allocationsOf deltas part).map (·.signedQuantity)) = netQuantity (allocationsOf deltas part) := by
  refine total_eq (le_trans ?_ h)
  rw [magnitude, List.map_map]
  refine (sum_allocationsOf (fun q => |q|) abs_zero part deltas).trans_le ?_
  rw [magnitude, List.map_map]
  exact List.sum_le_sum hpart

theorem abs_le_of_toward {signed part : ℤ} (h : Toward signed part) : |part| ≤ |signed| := by
  rcases h with ⟨hlow, hhigh⟩ | ⟨hlow, hhigh⟩
  · rw [abs_of_nonneg hlow, abs_of_nonneg (hlow.trans hhigh)]
    exact hhigh
  · rw [abs_of_nonpos hhigh, abs_of_nonpos (hlow.trans hhigh)]
    exact neg_le_neg hlow

/-- **The split is that of the exact numbers**, where the quantities come to at most 10^28. -/
theorem splitInternalAndExternalAllocations_eq (hnd : (deltas.map SleeveDelta.sleeveKey).Nodup)
    (h : magnitude (deltas.map (·.signedQuantity)) ≤ 10 ^ 28) :
    splitInternalAndExternalAllocations deltas = Portfolio.splitInternalAndExternalAllocations deltas := by
  have hinternal : ∀ d ∈ deltas, |Portfolio.internalCross deltas d.sleeveKey| ≤ |d.signedQuantity| := fun d hd =>
    abs_le_of_toward (internalCross_bounds hnd hd)
  have hresidual : ∀ d ∈ deltas, |residual deltas d| ≤ |d.signedQuantity| := fun d hd =>
    abs_le_of_toward (residual_bounds hnd hd)
  have hexternal : (deltas.filterMap fun d => allocationOf d (whole (d.signedQuantity - Portfolio.internalCross deltas d.sleeveKey))) =
      allocationsOf deltas (residual deltas) := by
    refine List.filterMap_congr fun d hd => ?_
    have hwhole := whole_eq ((hresidual d hd).trans ((abs_signed_le hd).trans h))
    rw [residual] at hwhole
    rw [hwhole, residual]
  rw [splitInternalAndExternalAllocations, Portfolio.splitInternalAndExternalAllocations, internalCross_eq hnd h, hexternal]
  have hsum := total_allocationsOf h hinternal
  rw [allocationsOf] at hsum
  rw [hsum, total_allocationsOf h hresidual, total_eq h]
  rfl

end split

/-! ## Built plans -/

/-- What `buildSymbolNetPlan` establishes. -/
structure Built (plan : PlanPayload) : Prop where
  schema : plan.schemaVersion = planSchema
  hash : ∃ portfolioHash : Text, plan.portfolioHash = lower portfolioHash.val
  deltas : plan.deltas ≠ []
  keys : (plan.deltas.map SleeveDelta.sleeveKey).Nodup
  sleeves : (plan.deltas.map (·.sleeveId)).Nodup
  signed : ∀ d ∈ plan.deltas, d.signedQuantity = whole (d.targetQuantity - d.currentQuantity)
  split : splitInternalAndExternalAllocations plan.deltas = .ok (plan.internalAllocations, plan.allocations)
  side : plan.side = sideOf (total (plan.deltas.map (·.signedQuantity)))
  quantity : plan.quantity = (whole |total (plan.deltas.map (·.signedQuantity))|).natAbs
  price : 0 ≤ plan.referencePrice
  crossPrice : plan.internalAllocations ≠ [] → 0 < plan.referencePrice

theorem sleeveDelta_eq_ok {currentPositions : String → String → Raw} {item : SleeveTarget} {d : SleeveDelta}
    (h : sleeveDelta currentPositions item = .ok d) :
    d.sleeveKey = (item.sleeveId, item.intentId) ∧ d.signedQuantity = whole (d.targetQuantity - d.currentQuantity) := by
  obtain ⟨current, -, h⟩ := bind_eq_ok.mp h
  obtain ⟨_, -, h⟩ := bind_eq_ok.mp h
  obtain rfl := Except.ok.inj h
  exact ⟨rfl, rfl⟩

theorem sleeveDeltas_eq_ok {currentPositions : String → String → Raw} {items : List SleeveTarget} {deltas : List SleeveDelta}
    (h : items.mapM (sleeveDelta currentPositions) = .ok deltas) :
    deltas.map SleeveDelta.sleeveKey = items.map (fun item => (item.sleeveId, item.intentId)) ∧
      ∀ d ∈ deltas, d.signedQuantity = whole (d.targetQuantity - d.currentQuantity) := by
  replace h := mapM_eq_ok.mp h
  induction h with
  | nil => exact ⟨rfl, fun d hd => absurd hd List.not_mem_nil⟩
  | cons hd _ ih =>
    obtain ⟨hkey, hsigned⟩ := sleeveDelta_eq_ok hd
    refine ⟨by rw [List.map_cons, List.map_cons, hkey, ih.1], fun d hmem => ?_⟩
    rcases List.mem_cons.mp hmem with rfl | hmem
    · exact hsigned
    · exact ih.2 d hmem

theorem decimal_nonneg {value : Raw} {field : String} {q : ℚ} (h : decimal value field (some 0) = .ok q) : 0 ≤ q := by
  cases value with
  | number x =>
    obtain ⟨_, hmin, h⟩ := bind_eq_ok.mp h
    obtain rfl := Except.ok.inj h
    exact require_eq_ok.mp hmin 0 rfl
  | absent => cases h
  | junk => cases h

theorem buildSymbolNetPlan_built {hash : PlanPayload → String} {scopeId portfolioId portfolioHash : String} {targets : List SleeveTarget}
    {currentPositions : String → String → Raw} {brokerQuantity referencePrice : Raw} {plan : SymbolNetPlan}
    (h : buildSymbolNetPlan hash scopeId portfolioId portfolioHash targets currentPositions brokerQuantity referencePrice = .ok plan) :
    Built plan.toPlanPayload ∧ plan.planId = hash plan.toPlanPayload := by
  obtain ⟨scopeId', -, h⟩ := bind_eq_ok.mp h
  obtain ⟨portfolioId', -, h⟩ := bind_eq_ok.mp h
  obtain ⟨portfolioHash', -, h⟩ := bind_eq_ok.mp h
  cases targets with
  | nil => cases h
  | cons first rest =>
    obtain ⟨_, hsymbols, h⟩ := bind_eq_ok.mp h
    obtain ⟨_, hsleeves, h⟩ := bind_eq_ok.mp h
    obtain ⟨_, -, h⟩ := bind_eq_ok.mp h
    obtain ⟨deltas, hdeltas, h⟩ := bind_eq_ok.mp h
    obtain ⟨available, -, h⟩ := bind_eq_ok.mp h
    obtain ⟨_, -, h⟩ := bind_eq_ok.mp h
    obtain ⟨⟨internal, external⟩, hsplit, h⟩ := bind_eq_ok.mp h
    obtain ⟨price, hprice, h⟩ := bind_eq_ok.mp h
    obtain ⟨_, hcross, h⟩ := bind_eq_ok.mp h
    obtain rfl := Except.ok.inj h
    rw [require_eq_ok] at hsymbols hsleeves hcross
    obtain ⟨hkeys, hsigned⟩ := sleeveDeltas_eq_ok hdeltas
    have hperm := List.perm_insertionSort targetLe (first :: rest)
    have hnd : (deltas.map (·.sleeveId)).Nodup := by
      have hids : deltas.map (·.sleeveId) = ((first :: rest).insertionSort targetLe).map (·.sleeveId) := by
        have hfst := congrArg (List.map Prod.fst) hkeys
        rwa [List.map_map, List.map_map] at hfst
      rw [hids, (hperm.map _).nodup_iff]
      -- all symbols are one symbol, so distinct identities are distinct sleeves
      refine List.Nodup.of_map (·, first.symbol) ?_
      rw [List.map_map]
      refine (List.map_congr_left fun item hitem => ?_) ▸ hsleeves
      show (item.sleeveId, item.symbol) = (item.sleeveId, first.symbol)
      rw [hsymbols item hitem]
    refine ⟨⟨rfl, ⟨portfolioHash', rfl⟩, ?_, ?_, hnd, hsigned, hsplit, rfl, rfl, decimal_nonneg hprice, fun hne => ?_⟩, rfl⟩
    · rintro (rfl : deltas = [])
      have hlength := congrArg List.length hkeys
      rw [List.length_map, List.length_map, hperm.length_eq] at hlength
      cases hlength
    · refine List.Nodup.of_map Prod.fst ?_
      rwa [List.map_map]
    · by_contra hle
      exact hcross ⟨hne, not_lt.mp hle⟩

/-! ## Exact and maximal -/

/-- No two of the allocations oppose each other, and they come to the order. -/
structure OneWay (plan : PlanPayload) : Prop where
  quantity : (plan.quantity : ℤ) = magnitude (plan.allocations.map (·.signedQuantity))
  sameSign : ∀ a ∈ plan.allocations, ∀ b ∈ plan.allocations, 0 < a.signedQuantity * b.signedQuantity

theorem Built.oneWay {plan : PlanPayload} (h : Built plan) (hsmall : magnitude (plan.deltas.map (·.signedQuantity)) ≤ 10 ^ 28) :
    OneWay plan := by
  obtain ⟨hsplit, hcrosses⟩ := splitInternalAndExternalAllocations_crosses h.keys
  have hbuilt := h.split
  rw [splitInternalAndExternalAllocations_eq h.keys hsmall, hsplit] at hbuilt
  obtain ⟨-, hexternal⟩ := Prod.mk.inj (Except.ok.inj hbuilt)
  rw [hexternal] at hcrosses
  have hsum : |netDelta plan.deltas| ≤ magnitude (plan.deltas.map (·.signedQuantity)) := by
    rw [netDelta, magnitude]
    exact Multiset.abs_sum_le_sum_abs (s := (plan.deltas.map (·.signedQuantity) : Multiset ℤ))
  have hquantity : (plan.quantity : ℤ) = |netDelta plan.deltas| := by
    rw [h.quantity, total_eq hsmall]
    show ((whole |netDelta plan.deltas|).natAbs : ℤ) = _
    rw [whole_eq (by rw [abs_abs]; exact hsum.trans hsmall), Int.natCast_natAbs, abs_abs]
  refine ⟨?_, fun a ha b hb => ?_⟩
  · rw [hquantity, ← hcrosses.external_net, netQuantity, magnitude, List.map_map]
    have hsigns := hcrosses.external_sign
    rw [← hcrosses.external_net, netQuantity] at hsigns
    rcases lt_trichotomy (plan.allocations.map (·.signedQuantity)).sum 0 with hneg | hzero | hpos
    · rw [abs_of_neg hneg, List.sum_neg, List.map_map]
      refine congrArg List.sum (List.map_congr_left fun a ha => ?_)
      exact (abs_of_neg (neg_of_mul_pos_left (hsigns a ha) hneg.le)).symm
    · have hnone : plan.allocations = [] := by
        refine List.eq_nil_iff_forall_not_mem.mpr fun a ha => ?_
        have hpos := hsigns a ha
        rw [hzero, mul_zero] at hpos
        exact lt_irrefl 0 hpos
      rw [hnone]
      rfl
    · rw [abs_of_pos hpos]
      refine congrArg List.sum (List.map_congr_left fun a ha => ?_)
      exact (abs_of_pos (pos_of_mul_pos_left (hsigns a ha) hpos.le)).symm
  · have hboth := mul_pos (hcrosses.external_sign a ha) (hcrosses.external_sign b hb)
    have hsq : a.signedQuantity * netDelta plan.deltas * (b.signedQuantity * netDelta plan.deltas) =
        a.signedQuantity * b.signedQuantity * netDelta plan.deltas ^ 2 := by ring
    rw [hsq] at hboth
    exact pos_of_mul_pos_left hboth (sq_nonneg _)

/-- **Internal crossing is exact and maximal** where the quantities come to at most 10^28: every split succeeds,
and every built plan sends one way what its order says. -/
theorem crossing_exact_maximal :
    (∀ deltas : List SleeveDelta, (deltas.map SleeveDelta.sleeveKey).Nodup →
      magnitude (deltas.map (·.signedQuantity)) ≤ 10 ^ 28 →
      ∃ internal external, splitInternalAndExternalAllocations deltas = .ok (internal, external) ∧
        Crosses deltas internal external) ∧
    ∀ (hash : PlanPayload → String) (scopeId portfolioId portfolioHash : String) (targets : List SleeveTarget)
      (currentPositions : String → String → Raw) (brokerQuantity referencePrice : Raw) (plan : SymbolNetPlan),
      buildSymbolNetPlan hash scopeId portfolioId portfolioHash targets currentPositions brokerQuantity referencePrice = .ok plan →
      magnitude (plan.deltas.map (·.signedQuantity)) ≤ 10 ^ 28 → OneWay plan.toPlanPayload := by
  refine ⟨fun deltas hnd hsmall => ?_, fun hash scopeId portfolioId portfolioHash targets currentPositions brokerQuantity
    referencePrice plan hplan hsmall => ?_⟩
  · obtain ⟨hsplit, hcrosses⟩ := splitInternalAndExternalAllocations_crosses hnd
    exact ⟨_, _, (splitInternalAndExternalAllocations_eq hnd hsmall).trans hsplit, hcrosses⟩
  · exact (buildSymbolNetPlan_built hplan).1.oneWay hsmall

/-- Three sleeves of one symbol: two hold shares, one wants more. -/
def crossingTargets : Result (List SleeveTarget) := do
  let a ← SleeveTarget.new "sell-a" "a" "005930" (.number 0)
  let b ← SleeveTarget.new "buy-b" "b" "005930" (.number 5)
  let c ← SleeveTarget.new "sell-c" "c" "005930" (.number 1)
  pure [a, b, c]

def crossingPositions (sleeveId _ : String) : Raw := if sleeveId = "b" then .number 0 else .number 2

/-- Five are bought, three of them from the other sleeves. -/
theorem crossing_exact_maximal_sample :
    ∃ plan internal external, plan.quantity = 2 ∧ OneWay plan ∧
      splitInternalAndExternalAllocations plan.deltas = .ok (internal, external) ∧ Crosses plan.deltas internal external := by
  obtain ⟨targets, -, plan, hplan, hquantity, hkeys, hsmall⟩ : ∃ targets, crossingTargets = .ok targets ∧
      ∃ plan, buildSymbolNetPlan (fun _ => "plan") "scope" "portfolio" "hash" targets crossingPositions (.number 4)
        (.number 70000) = .ok plan ∧ plan.quantity = 2 ∧ (plan.deltas.map SleeveDelta.sleeveKey).Nodup ∧
        magnitude (plan.deltas.map (·.signedQuantity)) ≤ 10 ^ 28 := by
    decide +kernel
  obtain ⟨internal, external, hsplit, hcrosses⟩ := crossing_exact_maximal.1 plan.deltas hkeys hsmall
  exact ⟨plan.toPlanPayload, internal, external, hquantity,
    crossing_exact_maximal.2 _ _ _ _ targets _ _ _ plan hplan hsmall, hsplit, hcrosses⟩

/-- One sleeve that buys 10^28 + 1 shares. -/
def wideTarget : Result (List SleeveTarget) := do
  let a ← SleeveTarget.new "buy-a" "a" "005930" (.number 0)
  pure [a]

def wideDelta (item : SleeveTarget) : SleeveDelta :=
  { intentId := item.intentId, sleeveId := item.sleeveId, currentQuantity := 0, targetQuantity := 10 ^ 28 + 1,
    signedQuantity := 10 ^ 28 + 1 }

/-- Its external part is 10^28. -/
theorem rounded_split : ∃ targets, wideTarget = .ok targets ∧ ∃ internal external,
    splitInternalAndExternalAllocations (targets.map wideDelta) = .ok (internal, external) ∧
      ((targets.map wideDelta).map SleeveDelta.sleeveKey).Nodup ∧ ¬ Crosses (targets.map wideDelta) internal external := by
  obtain ⟨targets, htargets, split, hsplit, hkeys, d, hd, hparts⟩ : ∃ targets, wideTarget = .ok targets ∧
      ∃ split, splitInternalAndExternalAllocations (targets.map wideDelta) = .ok split ∧
      ((targets.map wideDelta).map SleeveDelta.sleeveKey).Nodup ∧ ∃ d ∈ targets.map wideDelta,
        ¬ partOf split.1 d.sleeveKey + partOf split.2 d.sleeveKey = d.signedQuantity := by
    decide +kernel
  exact ⟨targets, htargets, split.1, split.2, hsplit, hkeys, fun h => hparts (h.parts d hd)⟩

end Context

end LiveTrader.Portfolio
