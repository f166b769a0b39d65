/-
# `Portfolio.Plan` — one broker order for a symbol, netted over its sleeves

The planning half of `portfolio_execution.py`.  A sleeve target is absolute;
`buildSymbolNetPlan` turns the targets of one symbol into signed deltas, crosses
opposing deltas against each other (`splitInternalAndExternalAllocations`) and
sends only the signed sum to the broker.

Whole-share quantities are integers: `_quantity` refuses everything else, and
`Decimal` adds and subtracts whole numbers exactly below 10^28.  Money and
prices are rationals, and a stored amount is the value of the text that
`_decimal_text` writes, which keeps 28 significant digits (`decimalText`).

`_hash` — SHA-256 of canonical JSON — is the parameter `hash`, a function of the
contents it seals.

`proportionalSignedQuantities` is the largest-remainder split of a cumulative
fill: every sleeve gets the whole part of its proportional share, and a loop
hands out what is missing one share at a time, to the largest remainder first.
The ratio, the ideal shares and the remainders are 28-digit decimals in the
source and are rounded here as there (`ctx 28`): a third of nine shares is
2.999… before truncation, and the loop repairs that.

`allocateMoney` splits a fee in the proportion of the shares, truncates to
eight decimals and gives the rest to the last sleeve.
-/
import LiveTrader.Lib.Decimal
import LiveTrader.Lib.Python
import Mathlib.Data.List.Sort

namespace LiveTrader.Portfolio

open Lib.Py Lib.Decimal

/-! ## Validated inputs -/

/-- A numeric argument as the caller hands it over: missing (`None` or an empty
text), a finite decimal, or anything `_decimal` refuses. -/
inductive Raw where
  | absent
  | number (q : ℚ)
  | junk
  deriving DecidableEq

/-- `value or 0`. -/
def Raw.orZero : Raw → Raw
  | .absent => .number 0
  | r => r

/-- `_decimal`; every `minimum` in the file is zero. -/
def decimal (value : Raw) (field : String) (minimum : Option ℚ) : Result ℚ :=
  match value with
  | .number q => do
      require (∀ m ∈ minimum, m ≤ q) (.value (field ++ " must be >= 0"))
      pure q
  | _ => .error (.value (field ++ " must be a finite decimal"))

/-- `_quantity`. -/
def quantity (value : Raw) (field : String) (allowZero : Bool) : Result ℕ := do
  let result ← decimal value field (some 0)
  require (result.den = 1) (.value (field ++ " must be a whole-share KIS quantity"))
  require (allowZero = true ∨ result ≠ 0) (.value (field ++ " must be greater than zero"))
  pure result.num.toNat

/-- `_text`. -/
def text (value field : String) : Result Text :=
  if h : IsText (strip value) then .ok ⟨strip value, h⟩
  else if strip value = "" then .error (.value (field ++ " is required"))
  else .error (.value (field ++ " contains a control character"))

theorem text_eq_ok {value field : String} {t : Text} (h : text value field = .ok t) :
    t.val = strip value := by
  unfold text at h
  split_ifs at h
  rw [← Except.ok.inj h]

/-- A KIS domestic symbol: six digits. -/
def IsSymbol (s : String) : Prop := s.toList.length = 6 ∧ ∀ c ∈ s.toList, c.isDigit = true

instance (s : String) : Decidable (IsSymbol s) :=
  @instDecidableAnd _ _ inferInstance (decideMembers _ _)

abbrev Symbol := { s : String // IsSymbol s }

/-- `text.startswith(prefix)` and the rest, on character lists. -/
def dropLeading (cs lead : List Char) : List Char :=
  if cs.take lead.length = lead then cs.drop lead.length else cs

/-- `canonical_kis_symbol`. -/
def canonicalKisSymbol (value : String) : Result Symbol := do
  let raw ← text value "symbol"
  let cs := dropLeading (upper raw.val).toList "KRX:".toList
  let tail := cs.drop (cs.length - 3)
  let cs := if tail = ".KS".toList ∨ tail = ".KQ".toList then cs.take (cs.length - 3) else cs
  if h : IsSymbol (String.ofList cs) then .ok ⟨String.ofList cs, h⟩
  else .error (.value ("unsupported KIS domestic symbol: " ++ value))

/-- The number that `_decimal_text(value)` denotes: `normalize` keeps 28 digits. -/
def decimalText (value : ℚ) : ℚ := ctx 28 value

/-- `SleeveTarget`: an absolute holding for one sleeve. -/
structure SleeveTarget where
  intentId : Text
  sleeveId : Text
  symbol : Symbol
  targetQuantity : ℕ
  deriving DecidableEq

/-- `SleeveTarget.__post_init__`. -/
def SleeveTarget.new (intentId sleeveId symbol : String) (targetQuantity : Raw) :
    Result SleeveTarget := do
  let intentId ← text intentId "intent_id"
  let sleeveId ← text sleeveId "sleeve_id"
  let symbol ← canonicalKisSymbol symbol
  let targetQuantity ← quantity targetQuantity "target_quantity" true
  pure { intentId, sleeveId, symbol, targetQuantity }

/-! ## Plans -/

structure SleeveDelta where
  intentId : Text
  sleeveId : Text
  currentQuantity : ℕ
  targetQuantity : ℕ
  signedQuantity : ℤ
  deriving DecidableEq

structure SleeveAllocation where
  intentId : Text
  sleeveId : Text
  signedQuantity : ℤ
  deriving DecidableEq

inductive Side where
  | buy
  | sell
  | none
  deriving DecidableEq

/-- `_ONE if side == "BUY" else -_ONE`. -/
def Side.sign : Side → ℤ
  | .buy => 1
  | _ => -1

def Side.text : Side → String
  | .buy => "BUY"
  | .sell => "SELL"
  | .none => "NONE"

/-- What the plan id seals: the plan without the id. -/
structure PlanPayload where
  schemaVersion : String
  scopeId : Text
  portfolioId : Text
  portfolioHash : String
  symbol : Symbol
  side : Side
  quantity : ℕ
  referencePrice : ℚ
  deltas : List SleeveDelta
  internalAllocations : List SleeveAllocation
  allocations : List SleeveAllocation
  deriving DecidableEq

structure SymbolNetPlan extends PlanPayload where
  planId : String
  deriving DecidableEq

/-- `SymbolNetPlan.metadata`: the reference price as its text denotes it. -/
def SymbolNetPlan.metadata (plan : SymbolNetPlan) : SymbolNetPlan :=
  { plan with referencePrice := decimalText plan.referencePrice }

/-- `SymbolNetPlan.internal_only`. -/
def SymbolNetPlan.internalOnly (plan : SymbolNetPlan) : Prop :=
  plan.quantity = 0 ∧ plan.internalAllocations ≠ []

instance (plan : SymbolNetPlan) : Decidable plan.internalOnly := by
  unfold SymbolNetPlan.internalOnly; infer_instance

def planSchema : String := "live-portfolio-net-plan-v2"

/-! ## Crossing opposing sleeves -/

/-- `(sleeve_id, intent_id)`. -/
abbrev SleeveKey := Text × Text

def SleeveDelta.sleeveKey (d : SleeveDelta) : SleeveKey := (d.sleeveId, d.intentId)

/-- `internal[key] += x`. -/
def bump (internal : SleeveKey → ℤ) (key : SleeveKey) (x : ℤ) : SleeveKey → ℤ :=
  fun k => if k = key then internal k + x else internal k

/-- The turns of the crossing loop that keep one positive sleeve: it takes from
the remaining negatives until it, or they, are used up.  Returns the negatives
that are left. -/
def crossOne (positive : SleeveKey) : ℤ → List (SleeveKey × ℤ) → (SleeveKey → ℤ) →
    List (SleeveKey × ℤ) × (SleeveKey → ℤ)
  | _, [], internal => ([], internal)
  | remaining, (negative, left) :: negatives, internal =>
      let crossed := min remaining left
      let internal := bump (bump internal positive crossed) negative (-crossed)
      if remaining - crossed = 0 then
        if left - crossed = 0 then (negatives, internal)
        else ((negative, left - crossed) :: negatives, internal)
      else crossOne positive (remaining - crossed) negatives internal

/-- The crossing loop: `positive_index` is the outer recursion. -/
def crossAll : List (SleeveKey × ℤ) → List (SleeveKey × ℤ) → (SleeveKey → ℤ) → SleeveKey → ℤ
  | [], _, internal => internal
  | (positive, remaining) :: positives, negatives, internal =>
      let next := crossOne positive remaining negatives internal
      crossAll positives next.1 next.2

/-- The crossed quantity of every sleeve. -/
def internalCross (deltas : List SleeveDelta) : SleeveKey → ℤ :=
  crossAll
    ((deltas.filter fun d => 0 < d.signedQuantity).map fun d => (d.sleeveKey, d.signedQuantity))
    ((deltas.filter fun d => d.signedQuantity < 0).map fun d => (d.sleeveKey, -d.signedQuantity))
    fun _ => 0

/-- The entry of one sleeve in an allocation list; a zero entry is left out. -/
def allocationOf (d : SleeveDelta) (signed : ℤ) : Option SleeveAllocation :=
  if signed ≠ 0 then some ⟨d.intentId, d.sleeveId, signed⟩ else none

def netQuantity (allocations : List SleeveAllocation) : ℤ :=
  (allocations.map (·.signedQuantity)).sum

def netDelta (deltas : List SleeveDelta) : ℤ := (deltas.map (·.signedQuantity)).sum

/-- `_split_internal_and_external_allocations`. -/
def splitInternalAndExternalAllocations (deltas : List SleeveDelta) :
    Result (List SleeveAllocation × List SleeveAllocation) := do
  let internal := internalCross deltas
  let internalAllocations := deltas.filterMap fun d => allocationOf d (internal d.sleeveKey)
  let externalAllocations := deltas.filterMap fun d =>
    allocationOf d (d.signedQuantity - internal d.sleeveKey)
  require (netQuantity internalAllocations = 0)
    (.runtime "internal sleeve cross does not conserve quantity")
  require (netQuantity externalAllocations = netDelta deltas)
    (.runtime "external sleeve allocation does not match net quantity")
  pure (internalAllocations, externalAllocations)

/-! ## Building a plan -/

/-- The sort key `(sleeve_id, intent_id)`. -/
def targetLe (a b : SleeveTarget) : Prop :=
  a.sleeveId.val < b.sleeveId.val ∨ a.sleeveId.val = b.sleeveId.val ∧ a.intentId.val ≤ b.intentId.val

instance : DecidableRel targetLe := fun a b => by unfold targetLe; infer_instance

def sideOf (net : ℤ) : Side := if 0 < net then .buy else if net < 0 then .sell else .none

/-- One delta of the plan: current holding read, target reached. -/
def sleeveDelta (currentPositions : String → String → Raw) (item : SleeveTarget) :
    Result SleeveDelta := do
  let current ← quantity (currentPositions item.sleeveId.val item.symbol.val)
    ("current position " ++ item.sleeveId.val ++ "/" ++ item.symbol.val) true
  let signed : ℤ := item.targetQuantity - current
  require (¬ (current + signed < 0))
    (.value ("target would short sleeve " ++ item.sleeveId.val ++ "/" ++ item.symbol.val))
  pure { intentId := item.intentId, sleeveId := item.sleeveId, currentQuantity := current,
         targetQuantity := item.targetQuantity, signedQuantity := signed }

/-- `build_symbol_net_plan`.  `currentPositions` answers 0 where the mapping has
no key. -/
def buildSymbolNetPlan (hash : PlanPayload → String) (scopeId portfolioId portfolioHash : String)
    (targets : List SleeveTarget) (currentPositions : String → String → Raw)
    (brokerQuantity referencePrice : Raw) : Result SymbolNetPlan := do
  let scopeId ← text scopeId "scope_id"
  let portfolioId ← text portfolioId "portfolio_id"
  let portfolioHash ← text portfolioHash "portfolio_hash"
  match targets with
  | [] => .error (.value "at least one sleeve target is required")
  | first :: _ => do
      require (∀ item ∈ targets, item.symbol = first.symbol)
        (.value "a symbol plan cannot mix symbols")
      require (targets.map fun item => (item.sleeveId, item.symbol)).Nodup
        (.value "only one target per sleeve and symbol is allowed")
      require (targets.map (·.intentId)).Nodup (.value "intent_id must be unique")
      let deltas ← (targets.insertionSort targetLe).mapM (sleeveDelta currentPositions)
      let net := netDelta deltas
      let available ← quantity brokerQuantity ("broker holding " ++ first.symbol.val) true
      require (¬ (net < 0 ∧ (available : ℤ) < -net))
        (.value ("broker holding is insufficient for " ++ first.symbol.val ++ ": need "
          ++ toString (-net) ++ ", have " ++ toString available))
      let (internalAllocations, allocations) ← splitInternalAndExternalAllocations deltas
      let sealedReferencePrice ← decimal referencePrice "reference_price" (some 0)
      require (¬ (internalAllocations ≠ [] ∧ sealedReferencePrice ≤ 0))
        (.value "an internal sleeve cross requires a positive reference price")
      let payload : PlanPayload :=
        { schemaVersion := planSchema, scopeId, portfolioId,
          portfolioHash := lower portfolioHash.val, symbol := first.symbol, side := sideOf net,
          quantity := net.natAbs, referencePrice := sealedReferencePrice, deltas,
          internalAllocations, allocations }
      pure { payload with
        planId := hash { payload with referencePrice := decimalText sealedReferencePrice } }

/-! ## Shares of a fill -/

/-- One candidate of the repair loop: its score and its place in the list. -/
structure Candidate where
  score : ℚ
  sleeveId : Text
  intentId : Text
  index : ℕ
  deriving DecidableEq

/-- The sort key `(-score, sleeve_id, intent_id)`. -/
def candidateLe (a b : Candidate) : Prop :=
  b.score < a.score ∨ a.score = b.score ∧
    (a.sleeveId.val < b.sleeveId.val ∨
      a.sleeveId.val = b.sleeveId.val ∧ a.intentId.val ≤ b.intentId.val)

instance : DecidableRel candidateLe := fun a b => by unfold candidateLe; infer_instance

/-- The entry of one sleeve in the candidate list, if it can still move in
`direction`. -/
def candidate (direction : ℤ) (allocation : SleeveAllocation) (ideal : ℚ) (allocated : ℤ)
    (index : ℕ) : Option Candidate :=
  if 0 < direction ∧ 0 < allocation.signedQuantity ∧ allocated < allocation.signedQuantity then
    some ⟨ctx 28 (ideal - allocated), allocation.sleeveId, allocation.intentId, index⟩
  else if direction < 0 ∧ allocation.signedQuantity < 0 ∧ allocation.signedQuantity < allocated then
    some ⟨ctx 28 (allocated - ideal), allocation.sleeveId, allocation.intentId, index⟩
  else none

/-- `candidates`, in list order. -/
def candidates (direction : ℤ) :
    List SleeveAllocation → List ℚ → List ℤ → ℕ → List Candidate
  | allocation :: allocations, ideal :: ideals, allocated :: actual, index =>
      (candidate direction allocation ideal allocated index).toList ++
        candidates direction allocations ideals actual (index + 1)
  | _, _, _, _ => []

/-- The repair loop; the counter is the distance `|difference|` still to go. -/
def conserve (direction : ℤ) (allocations : List SleeveAllocation) (ideals : List ℚ) :
    ℕ → List ℤ → Result (List ℤ)
  | 0, actual => .ok actual
  | distance + 1, actual =>
      match (candidates direction allocations ideals actual 0).insertionSort candidateLe with
      | [] => .error (.runtime "unable to conserve sleeve fill quantity")
      | best :: _ =>
          conserve direction allocations ideals distance (actual.modify best.index (· + direction))

/-- `abs(value).to_integral_value(ROUND_DOWN)` with the sign of `value`. -/
def wholePart (value : ℚ) : ℤ := truncZ |value| * (if 0 ≤ value then 1 else -1)

/-- The ideal share of one sleeve. -/
def idealShare (ratio : ℚ) (allocation : SleeveAllocation) : ℚ :=
  ctx 28 (allocation.signedQuantity * ratio)

/-- `_proportional_signed_quantities`. -/
def proportionalSignedQuantities (allocations : List SleeveAllocation) (cumulativeFilled : ℕ)
    (side : Side) : Result (List ℤ) := do
  let net := netQuantity allocations
  require (0 < net * side.sign) (.value "allocation net does not match broker side")
  require (cumulativeFilled ≤ net.natAbs) (.value "cumulative fill exceeds accepted order")
  let ratio := ctx 28 ((cumulativeFilled : ℚ) / |net|)
  let ideals := allocations.map (idealShare ratio)
  let actual := ideals.map wholePart
  let difference := cumulativeFilled * side.sign - actual.sum
  conserve (if 0 < difference then 1 else -1) allocations ideals difference.natAbs actual

/-- The shares after `filled` shares of the order: none before the first fill. -/
def sharesAt (allocations : List SleeveAllocation) (side : Side) (filled : ℕ) : Result (List ℤ) :=
  if 0 < filled then proportionalSignedQuantities allocations filled side
  else .ok (allocations.map fun _ => 0)

/-! ## Shares of a fee -/

/-- `result[-1] += x`, rounded. -/
def addToLast (x : ℚ) : List ℚ → List ℚ
  | [] => []
  | [y] => [ctx 28 (y + x)]
  | y :: ys => y :: addToLast x ys

/-- `_allocate_money`; the weights are whole shares. -/
def allocateMoney (total : ℚ) (weights : List ℕ) : Result (List ℚ) :=
  if total = 0 then .ok (weights.map fun _ => 0)
  else do
    let denominator := weights.sum
    require (0 < denominator) (.value "fee allocation requires a non-zero fill")
    let result ← weights.mapM fun weight : ℕ =>
      orRaise .invalidOperation (quantizeDown 28 8 (ctx 28 (ctx 28 (total * weight) / denominator)))
    pure (addToLast (ctx 28 (total - ctxSum 28 result)) result)

end LiveTrader.Portfolio
