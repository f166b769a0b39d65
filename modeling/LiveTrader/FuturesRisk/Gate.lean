/-
# `FuturesRisk.Gate` — what the gate lets through

`accepted_iff` reads the checks off the list of blockers.  From them: the cash is there, the loss at the stop is within the limit, and
for an isolated position the margin that is left at the stop still covers what liquidation would take (`margin_left`).  Less notional,
more balance or more equity blocks nothing that was let through (`Accepted.mono`).

A number written under the first name of a field is what the gate reads of that field, and all other fields read as before.  So a
payload that is let through is let through with less notional, more balance and more equity (`accepted_resized`).

`gate_sound` collects what holds of an order that is not blocked.  `blocked_iff` says which missing or unreadable inputs block every
order: all of them, but for the absence of a leverage, a maintenance margin rate, a fee rate or a funding rate, for which the gate
takes a default.
-/
import LiveTrader.FuturesRisk.Risk
import Mathlib.Tactic.FieldSimp
import Mathlib.Tactic.GCongr
import Mathlib.Tactic.Linarith
import Mathlib.Tactic.Positivity
import Mathlib.Tactic.Ring

namespace LiveTrader.FuturesRisk

open Lib Lib.Py

/-! ## The checks -/

section accepted

variable (env : Env) (payload policy : Payload)

/-- The checks on what the inputs and the policy are. -/
structure WithinLimits (i : FuturesRiskInputs) (p : FuturesPolicy) : Prop where
  entry : 0 < i.entryPrice
  notional : 0 < i.notionalUsdt
  equity : 0 < i.accountEquityUsdt
  available : 0 < i.availableUsdt
  cash : i.requiredCash ≤ i.availableUsdt + tolerance
  margin : p.allowedMarginType ∈ ["ANY", i.marginType.text]
  leverage : i.leverage ≤ p.maxLeverage + tolerance
  exposure : i.notionalPctOfEquity ≤ p.maxNotionalPct + tolerance
  stop : 0 < i.stopPrice
  protective : i.stopIsProtective = true
  precedes : i.stopPrecedesLiquidation ≠ some false
  risk : i.riskPctOfEquity ≤ p.perTradeRiskPct + tolerance

/-- The checks on how the payload and the policy are given. -/
structure WellGiven : Prop where
  fields : fieldBlockers env payload policy = []
  inherited : inheritedBlockers policy = []
  shape : shapeBlockers env payload = []
  leverages : leverageBlockers env payload policy = []

/-- An order that is let through. -/
structure Accepted : Prop where
  given : WellGiven env payload policy
  limits : WithinLimits (normalizeFuturesRiskInputs env payload) (readPolicy env policy)

variable {env payload policy}

theorem stopBlockers_eq_nil {i : FuturesRiskInputs} :
    stopBlockers i = [] ↔ 0 < i.stopPrice ∧ i.stopIsProtective = true ∧ i.stopPrecedesLiquidation ≠ some false := by
  rw [stopBlockers]
  by_cases hstop : i.stopPrice ≤ 0
  · rw [if_pos hstop]
    exact iff_of_false (List.cons_ne_nil _ _) fun h => absurd h.1 (not_lt.mpr hstop)
  · rw [if_neg hstop]
    by_cases hprotective : i.stopIsProtective = false
    · rw [if_pos hprotective]
      exact iff_of_false (List.cons_ne_nil _ _) fun h => absurd (hprotective.symm.trans h.2.1) (by decide)
    · rw [if_neg hprotective, blocker_eq_nil]
      exact ⟨fun h => ⟨not_le.mp hstop, Bool.eq_true_of_not_eq_false hprotective, h⟩, fun h => h.2.2⟩

/-- **The checks.**  An order is let through exactly if it passes them all. -/
theorem accepted_iff : (simulateFuturesOrderRisk env payload policy).status ≠ .blocked ↔ Accepted env payload policy := by
  have hstatus : (simulateFuturesOrderRisk env payload policy).status ≠ .blocked ↔ blockers env payload policy = [] := by
    rw [simulateFuturesOrderRisk]
    dsimp only
    by_cases hnone : blockers env payload policy = []
    · rw [if_neg (not_not_intro hnone)]
      refine iff_of_true ?_ hnone
      split
      · simp only [ne_eq, reduceCtorEq, not_false_eq_true]
      · simp only [ne_eq, reduceCtorEq, not_false_eq_true]
    · rw [if_pos hnone]
      exact iff_of_false (not_not_intro rfl) hnone
  rw [hstatus, blockers]
  simp only [List.append_eq_nil_iff, amountBlockers, limitBlockers, riskBlockers, blocker_eq_nil, stopBlockers_eq_nil, not_le, not_lt,
    not_not, not_and]
  constructor
  · rintro ⟨⟨⟨⟨⟨⟨⟨hfields, hinherited⟩, hshape⟩, ⟨⟨hentry, hnotional⟩, hequity⟩, havailable⟩, hleverages⟩, ⟨⟨hcash, hmargin⟩,
      hleverage⟩, hexposure⟩, hstop, hprotective, hprecedes⟩, hrisk⟩
    exact ⟨⟨hfields, hinherited, hshape, hleverages⟩, ⟨hentry, hnotional, hequity, havailable, hcash, hmargin, hleverage, hexposure,
      hstop, hprotective, hprecedes, hrisk hprotective⟩⟩
  · rintro ⟨⟨hfields, hinherited, hshape, hleverages⟩, ⟨hentry, hnotional, hequity, havailable, hcash, hmargin, hleverage, hexposure,
      hstop, hprotective, hprecedes, hrisk⟩⟩
    exact ⟨⟨⟨⟨⟨⟨⟨hfields, hinherited⟩, hshape⟩, ⟨⟨hentry, hnotional⟩, hequity⟩, havailable⟩, hleverages⟩, ⟨⟨hcash, hmargin⟩,
      hleverage⟩, hexposure⟩, hstop, hprotective, hprecedes⟩, fun _ => hrisk⟩

end accepted

/-! ## The margin that is left -/

namespace FuturesRiskInputs

variable {i : FuturesRiskInputs}

theorem stopIsProtective_iff : i.stopIsProtective = true ↔ 0 < i.stopPrice ∧ 0 < i.quantity ∧ i.stopProtects = true := by
  simp only [stopIsProtective, Bool.and_eq_true, decide_eq_true_eq, and_assoc]

/-- The budget is the move to liquidation on the whole notional. -/
theorem move_mul_notional (hnotional : 0 < i.notionalUsdt) : i.liquidationMoveFraction * i.notionalUsdt = i.lossBudgetToLiquidation := by
  rw [liquidationMoveFraction, if_pos hnotional, div_mul_cancel₀ _ hnotional.ne']

/-- The stop is nearer to the entry than the liquidation price is. -/
theorem distance_lt (hisolated : i.marginType = .isolated) (hentry : 0 < i.entryPrice) (hprotective : i.stopIsProtective = true)
    (hprecedes : i.stopPrecedesLiquidation ≠ some false) : |i.entryPrice - i.stopPrice| < i.entryPrice * i.liquidationMoveFraction := by
  obtain ⟨-, -, hside⟩ := stopIsProtective_iff.mp hprotective
  rw [stopPrecedesLiquidation, if_pos hprotective, liquidationPrice, if_neg] at hprecedes
  · rw [stopProtects] at hside
    cases hdirection : i.direction with
    | long =>
      simp only [hdirection, Option.map_some, ne_eq, Option.some.injEq, decide_eq_false_iff_not, not_not, max_lt_iff,
        decide_eq_true_eq] at hprecedes hside
      rw [abs_of_pos (by linarith)]
      linarith [hprecedes.2]
    | short =>
      simp only [hdirection, Option.map_some, ne_eq, Option.some.injEq, decide_eq_false_iff_not, not_not, decide_eq_true_eq]
        at hprecedes hside
      rw [abs_of_neg (by linarith)]
      linarith
  · rw [not_or, not_not]
    exact ⟨hisolated, not_le.mpr hentry⟩

/-- **The margin left at the stop** still covers the maintenance margin and the exit fee. -/
theorem margin_left (hisolated : i.marginType = .isolated) (hentry : 0 < i.entryPrice) (hnotional : 0 < i.notionalUsdt)
    (hprotective : i.stopIsProtective = true) (hprecedes : i.stopPrecedesLiquidation ≠ some false) :
    i.maintenanceMargin + i.exitFee < i.initialMargin - i.adverseStopLoss := by
  have hdistance := distance_lt hisolated hentry hprotective hprecedes
  have hquantity : 0 < i.quantity := (stopIsProtective_iff.mp hprotective).2.1
  -- the loss is less than the budget
  have hloss : i.adverseStopLoss < i.lossBudgetToLiquidation := by
    calc i.adverseStopLoss = |i.entryPrice - i.stopPrice| * i.quantity := by rw [adverseStopLoss, if_pos hprotective]
      _ < i.entryPrice * i.liquidationMoveFraction * i.quantity := mul_lt_mul_of_pos_right hdistance hquantity
      _ = i.liquidationMoveFraction * i.notionalUsdt := by
        rw [quantity, if_pos hentry]
        field_simp
      _ = i.lossBudgetToLiquidation := move_mul_notional hnotional
  have hnonneg : 0 ≤ i.adverseStopLoss := by
    rw [adverseStopLoss, if_pos hprotective]
    positivity
  -- so the budget is positive, and no clamp
  rcases max_cases 0 (i.initialMargin - i.maintenanceMargin - i.exitFee) with ⟨hmax, -⟩ | ⟨hmax, -⟩
  · rw [lossBudgetToLiquidation, hmax] at hloss
    exact absurd hloss (not_lt.mpr hnonneg)
  · rw [lossBudgetToLiquidation, hmax] at hloss
    linarith

/-- The loss at the stop, as a part of the equity. -/
theorem loss_le (hequity : 0 < i.accountEquityUsdt) {limit : ℚ} (hlimit : 0 ≤ limit) (hrisk : i.riskPctOfEquity ≤ limit) :
    i.estimatedLossAtStop ≤ limit / 100 * i.accountEquityUsdt := by
  by_cases hloss : 0 < i.estimatedLossAtStop
  · rw [riskPctOfEquity, if_pos ⟨hequity, hloss⟩, div_mul_eq_mul_div, div_le_iff₀ hequity] at hrisk
    linarith
  · have hbound : 0 ≤ limit / 100 * i.accountEquityUsdt := by positivity
    exact (not_lt.mp hloss).trans hbound

/-! ## A smaller order -/

/-- The same order with another notional, another balance and another equity. -/
def resized (i : FuturesRiskInputs) (notional available equity : ℚ) : FuturesRiskInputs :=
  { i with notionalUsdt := notional, availableUsdt := available, accountEquityUsdt := equity }

section resized

variable {notional available equity : ℚ}

/-- What liquidation leaves of the price does not depend on the size. -/
theorem move_eq (hnotional : 0 < i.notionalUsdt) (hleverage : 0 < i.leverage) :
    i.liquidationMoveFraction = max 0 (1 / i.leverage - i.maintenanceMarginRate - i.takerFeeRate) := by
  have hbudget : i.lossBudgetToLiquidation = max 0 (1 / i.leverage - i.maintenanceMarginRate - i.takerFeeRate) * i.notionalUsdt := by
    rw [lossBudgetToLiquidation, initialMargin, if_pos hleverage, maintenanceMargin, exitFee, entryFee, max_mul_of_nonneg _ _ hnotional.le,
      zero_mul]
    congr 1
    ring
  rw [liquidationMoveFraction, if_pos hnotional, hbudget, mul_div_cancel_right₀ _ hnotional.ne']

theorem liquidationPrice_resized (hleverage : 0 < i.leverage) (hnotional : 0 < i.notionalUsdt) (hpositive : 0 < notional) :
    (i.resized notional available equity).liquidationPrice = i.liquidationPrice := by
  have hmove : (i.resized notional available equity).liquidationMoveFraction = i.liquidationMoveFraction := by
    rw [move_eq (i := i.resized notional available equity) hpositive hleverage, move_eq hnotional hleverage]
    rfl
  rw [liquidationPrice, liquidationPrice, hmove]
  rfl

theorem quantity_pos (hentry : 0 < i.entryPrice) : 0 < i.quantity ↔ 0 < i.notionalUsdt := by
  rw [quantity, if_pos hentry]
  exact div_pos_iff_of_pos_right hentry

theorem stopIsProtective_resized (hentry : 0 < i.entryPrice) (hprotective : i.stopIsProtective = true) (hpositive : 0 < notional) :
    (i.resized notional available equity).stopIsProtective = true := by
  obtain ⟨hstop, -, hside⟩ := stopIsProtective_iff.mp hprotective
  exact stopIsProtective_iff.mpr ⟨hstop, (quantity_pos (i := i.resized notional available equity) hentry).mpr hpositive, hside⟩

theorem quantity_resized_le (hentry : 0 < i.entryPrice) (hle : notional ≤ i.notionalUsdt) :
    (i.resized notional available equity).quantity ≤ i.quantity := by
  rw [quantity, quantity, if_pos hentry, if_pos (show 0 < (i.resized notional available equity).entryPrice from hentry)]
  exact div_le_div_of_nonneg_right hle hentry.le

theorem requiredCash_resized_le (hleverage : 0 < i.leverage) (hfee : 0 ≤ i.takerFeeRate) (hle : notional ≤ i.notionalUsdt) :
    (i.resized notional available equity).requiredCash ≤ i.requiredCash := by
  rw [requiredCash, requiredCash, initialMargin, initialMargin, if_pos hleverage,
    if_pos (show 0 < (i.resized notional available equity).leverage from hleverage), entryFee, entryFee]
  have hmargin : notional / i.leverage ≤ i.notionalUsdt / i.leverage := div_le_div_of_nonneg_right hle hleverage.le
  have hfees : notional * i.takerFeeRate ≤ i.notionalUsdt * i.takerFeeRate := mul_le_mul_of_nonneg_right hle hfee
  exact add_le_add hmargin hfees

theorem estimatedFundingCost_eq (hnotional : 0 ≤ i.notionalUsdt) :
    i.estimatedFundingCost = i.notionalUsdt * max 0 (-(i.fundingRate * i.fundingIntervals * (if i.direction = .long then -1 else 1))) := by
  rw [estimatedFundingCost, signedFundingCashflow, mul_max_of_nonneg _ _ hnotional, mul_zero]
  congr 1
  ring

theorem estimatedLossAtStop_resized_le (hentry : 0 < i.entryPrice) (hfee : 0 ≤ i.takerFeeRate) (hprotective : i.stopIsProtective = true)
    (hpositive : 0 < notional) (hle : notional ≤ i.notionalUsdt) :
    (i.resized notional available equity).estimatedLossAtStop ≤ i.estimatedLossAtStop := by
  have hprotective' : (i.resized notional available equity).stopIsProtective = true :=
    stopIsProtective_resized hentry hprotective hpositive
  have hadverse : (i.resized notional available equity).adverseStopLoss ≤ i.adverseStopLoss := by
    rw [adverseStopLoss, adverseStopLoss, if_pos hprotective, if_pos hprotective']
    exact mul_le_mul_of_nonneg_left (quantity_resized_le hentry hle) (abs_nonneg _)
  have hround : (i.resized notional available equity).roundTripFee ≤ i.roundTripFee := by
    have hfees : notional * i.takerFeeRate ≤ i.notionalUsdt * i.takerFeeRate := mul_le_mul_of_nonneg_right hle hfee
    exact add_le_add hfees hfees
  have hfunding : (i.resized notional available equity).estimatedFundingCost ≤ i.estimatedFundingCost := by
    rw [estimatedFundingCost_eq hpositive.le, estimatedFundingCost_eq (hpositive.trans_le hle).le]
    exact mul_le_mul_of_nonneg_right hle (le_max_left 0 _)
  rw [estimatedLossAtStop, estimatedLossAtStop, if_pos hprotective, if_pos hprotective']
  exact add_le_add (add_le_add hadverse hround) hfunding

/-- A loss that is no greater, on an equity that is no less. -/
theorem riskPctOfEquity_resized_le (hequity : 0 < i.accountEquityUsdt) (hmore : i.accountEquityUsdt ≤ equity)
    (hloss : (i.resized notional available equity).estimatedLossAtStop ≤ i.estimatedLossAtStop) {limit : ℚ} (hlimit : 0 ≤ limit)
    (hrisk : i.riskPctOfEquity ≤ limit) : (i.resized notional available equity).riskPctOfEquity ≤ limit := by
  rw [riskPctOfEquity]
  split
  · next hpos =>
    have hloss' := hpos.2.trans_le hloss
    rw [riskPctOfEquity, if_pos ⟨hequity, hloss'⟩] at hrisk
    refine le_trans ?_ hrisk
    have hdiv : (i.resized notional available equity).estimatedLossAtStop / equity ≤ i.estimatedLossAtStop / i.accountEquityUsdt :=
      div_le_div₀ hloss'.le hloss hequity hmore
    exact mul_le_mul_of_nonneg_right hdiv (by norm_num)
  · exact hlimit

theorem notionalPctOfEquity_resized_le (hequity : 0 < i.accountEquityUsdt) (hmore : i.accountEquityUsdt ≤ equity)
    (hpositive : 0 < notional) (hle : notional ≤ i.notionalUsdt) :
    (i.resized notional available equity).notionalPctOfEquity ≤ i.notionalPctOfEquity := by
  rw [notionalPctOfEquity, notionalPctOfEquity, if_pos hequity,
    if_pos (show 0 < (i.resized notional available equity).accountEquityUsdt from hequity.trans_le hmore)]
  have hdiv : notional / equity ≤ i.notionalUsdt / i.accountEquityUsdt := div_le_div₀ (hpositive.trans_le hle).le hle hequity hmore
  exact mul_le_mul_of_nonneg_right hdiv (by norm_num)

end resized

end FuturesRiskInputs

open FuturesRiskInputs in
/-- **A smaller order**, with no less balance and equity, stays within the limits. -/
theorem WithinLimits.resized {i : FuturesRiskInputs} {p : FuturesPolicy} (h : WithinLimits i p) (hleverage : 0 < i.leverage)
    (hfee : 0 ≤ i.takerFeeRate) (hrisk : 0 ≤ p.perTradeRiskPct + tolerance) {notional available equity : ℚ} (hpositive : 0 < notional)
    (hle : notional ≤ i.notionalUsdt) (havailable : i.availableUsdt ≤ available) (hequity : i.accountEquityUsdt ≤ equity) :
    WithinLimits (i.resized notional available equity) p where
  entry := h.entry
  notional := hpositive
  equity := h.equity.trans_le hequity
  available := h.available.trans_le havailable
  cash := calc (i.resized notional available equity).requiredCash ≤ i.requiredCash := requiredCash_resized_le hleverage hfee hle
    _ ≤ i.availableUsdt + tolerance := h.cash
    _ ≤ available + tolerance := add_le_add_left havailable _
  margin := h.margin
  leverage := h.leverage
  exposure := (notionalPctOfEquity_resized_le h.equity hequity hpositive hle).trans h.exposure
  stop := h.stop
  protective := stopIsProtective_resized h.entry h.protective hpositive
  precedes := by
    have hprecedes := h.precedes
    rw [stopPrecedesLiquidation, if_pos h.protective] at hprecedes
    rw [stopPrecedesLiquidation, if_pos (stopIsProtective_resized h.entry h.protective hpositive),
      liquidationPrice_resized hleverage h.notional hpositive]
    exact hprecedes
  risk := riskPctOfEquity_resized_le h.equity hequity
    (estimatedLossAtStop_resized_le h.entry hfee h.protective hpositive hle) hrisk h.risk

/-! ## The same payload with another size -/

variable {env : Env} {payload policy : Payload}

/-! ## Writing a number -/

/-- The payload with a number under a name. -/
def setNumber (payload : Payload) (name : String) (q : ℚ) : Payload := payload.set name (.float (.finite q))

theorem given_setNumber {name key : String} {q : ℚ} :
    given (setNumber payload key q) name = if name = key then some (.float (.finite q)) else given payload name := by
  rw [given, setNumber, Dict.lookup_set]
  split
  · rfl
  · rfl

theorem findSome?_given_setNumber {key : String} {q : ℚ} : ∀ {aliases : List String}, key ∉ aliases →
    aliases.findSome? (given (setNumber payload key q)) = aliases.findSome? (given payload)
  | [], _ => rfl
  | name :: aliases, hkey => by
    have hname : name ≠ key := fun h => hkey (h ▸ List.mem_cons_self)
    rw [List.findSome?_cons, List.findSome?_cons, given_setNumber, if_neg hname,
      findSome?_given_setNumber fun h => hkey (List.mem_cons_of_mem _ h)]

theorem firstPresent_setNumber_of_not_mem {key : String} {q : ℚ} {aliases : List String} (hkey : key ∉ aliases) :
    firstPresent (setNumber payload key q) aliases = firstPresent payload aliases := by
  rw [firstPresent, firstPresent, findSome?_given_setNumber hkey]

theorem firstPresent_setNumber {key : String} {q : ℚ} {aliases : List String} :
    firstPresent (setNumber payload key q) (key :: aliases) = .float (.finite q) := by
  rw [firstPresent, List.findSome?_cons, given_setNumber, if_pos rfl]
  rfl

theorem get_setNumber {key name : String} {q : ℚ} (hname : key ≠ name) (default : Value) :
    (setNumber payload key q).get name default = payload.get name default := by
  rw [setNumber, Dict.get_set, if_neg hname]

/-- The payload with another notional, balance and equity. -/
def resizedPayload (payload : Payload) (notional available equity : ℚ) : Payload :=
  setNumber (setNumber (setNumber payload "notional_usdt" notional) "available_usdt" available) "account_equity_usdt" equity

theorem number_float (q default : ℚ) : number env (.float (.finite q)) default = q := rfl

/-- What is read of the payload with another size. -/
theorem normalize_resizedPayload {notional available equity : ℚ} :
    normalizeFuturesRiskInputs env (resizedPayload payload notional available equity) =
      (normalizeFuturesRiskInputs env payload).resized (max 0 notional) (max 0 available) (max 0 equity) := by
  simp (disch := decide) only [FuturesRiskInputs.resized, resizedPayload, normalizeFuturesRiskInputs, read, rawDirection, rawMarginType,
    symbolOf, accountEquityUsdt, availableUsdt, entryPrice, notionalUsdt, maintenanceMarginRate, takerFeeRate, fundingRate,
    fundingIntervals, stopPrice, firstPresent_setNumber, firstPresent_setNumber_of_not_mem, get_setNumber, number_float]
  rfl

/-! ## What is checked of how it is given -/

theorem fieldsWhere_eq_nil_iff {bad : Value → Bool} {fields : List Field} :
    fieldsWhere payload bad fields = [] ↔ ∀ field ∈ fields, ∀ name ∈ field.aliases, ∀ value ∈ given payload name, bad value = false := by
  rw [fieldsWhere, List.map_eq_nil_iff, List.filter_eq_nil_iff]
  refine forall_congr' fun field => imp_congr_right fun _ => ?_
  rw [List.any_eq_true, not_exists]
  refine forall_congr' fun name => ?_
  rw [not_and]
  refine imp_congr_right fun _ => ?_
  cases given payload name with
  | none => simp
  | some value => simp

theorem fieldsWhere_setNumber {bad : Value → Bool} {fields : List Field} {key : String} {q : ℚ} (hgood : bad (.float (.finite q)) = false)
    (h : fieldsWhere payload bad fields = []) : fieldsWhere (setNumber payload key q) bad fields = [] := by
  rw [fieldsWhere_eq_nil_iff] at h ⊢
  intro field hfield name hname value hvalue
  rw [given_setNumber] at hvalue
  split at hvalue
  · obtain rfl := Option.some.inj hvalue
    exact hgood
  · exact h field hfield name hname value hvalue

/-- A number under one of the names of an amount leaves the rest of the payload well given. -/
theorem WellGiven.setNumber (h : WellGiven env payload policy) {key : String} {q : ℚ} (hdirection : key ∉ ["direction"])
    (hmargin : key ∉ ["margin_type", "marginType"]) (hsymbol : key ≠ "symbol") (hleverage : key ∉ leverage.aliases) :
    WellGiven env (setNumber payload key q) policy where
  fields := by
    have hfields := h.fields
    simp only [fieldBlockers, List.append_eq_nil_iff, List.map_eq_nil_iff, nonFiniteFields, nonNumericFields] at hfields ⊢
    obtain ⟨⟨⟨hinfinite, hpolicy⟩, hinvalid⟩, hpolicy'⟩ := hfields
    exact ⟨⟨⟨fieldsWhere_setNumber rfl hinfinite, hpolicy⟩, fieldsWhere_setNumber rfl hinvalid⟩, hpolicy'⟩
  inherited := h.inherited
  shape := by
    have hshape := h.shape
    rw [shapeBlockers, rawDirection, rawMarginType, symbolOf] at hshape ⊢
    rwa [firstPresent_setNumber_of_not_mem hdirection, firstPresent_setNumber_of_not_mem hmargin, get_setNumber hsymbol]
  leverages := by
    have hleverages := h.leverages
    rw [leverageBlockers] at hleverages ⊢
    rwa [firstPresent_setNumber_of_not_mem hleverage]

/-! ## The gate -/

theorem normalize_bounds : 0 < (normalizeFuturesRiskInputs env payload).leverage ∧ 0 ≤ (normalizeFuturesRiskInputs env payload).takerFeeRate := by
  refine ⟨lt_of_lt_of_le zero_lt_one (le_max_left _ _), ?_⟩
  exact le_min (le_max_right _ _) (by norm_num)

theorem perTradeRiskPct_nonneg : 0 ≤ (readPolicy env policy).perTradeRiskPct := le_min (le_max_right _ _) (by norm_num)

/-- **Acceptance is closed downwards.** -/
theorem accepted_resized (h : Accepted env payload policy) {notional available equity : ℚ} (hpositive : 0 < notional)
    (hle : notional ≤ (normalizeFuturesRiskInputs env payload).notionalUsdt)
    (havailable : (normalizeFuturesRiskInputs env payload).availableUsdt ≤ available)
    (hequity : (normalizeFuturesRiskInputs env payload).accountEquityUsdt ≤ equity) :
    Accepted env (resizedPayload payload notional available equity) policy := by
  obtain ⟨hgiven, hlimits⟩ := h
  have htolerance : 0 ≤ (readPolicy env policy).perTradeRiskPct + tolerance := by
    have hnonneg : 0 ≤ (readPolicy env policy).perTradeRiskPct := perTradeRiskPct_nonneg
    rw [tolerance]
    linarith
  constructor
  · refine WellGiven.setNumber (WellGiven.setNumber (hgiven.setNumber ?_ ?_ ?_ ?_) ?_ ?_ ?_ ?_) ?_ ?_ ?_ ?_
    all_goals decide
  · have hread : normalizeFuturesRiskInputs env (resizedPayload payload notional available equity) =
        (normalizeFuturesRiskInputs env payload).resized notional available equity := by
      rw [normalize_resizedPayload, max_eq_right hpositive.le, max_eq_right (hlimits.available.le.trans havailable),
        max_eq_right (hlimits.equity.le.trans hequity)]
    rw [hread]
    exact hlimits.resized normalize_bounds.1 normalize_bounds.2 htolerance hpositive hle havailable hequity

end LiveTrader.FuturesRisk

namespace LiveTrader.FuturesRisk

open Lib Lib.Py

/-! ## What is let through -/

section sound

variable {env : Env} {payload policy : Payload}

/-- **An order that is not blocked.**  For an isolated position its cash is there, its loss at the stop is within the limit and the
margin left at the stop covers the maintenance margin and the exit fee; and the order is let through with less notional, more balance
and more equity. -/
theorem gate_sound (h : (simulateFuturesOrderRisk env payload policy).status ≠ .blocked) :
    ((simulateFuturesOrderRisk env payload policy).inputs.marginType = .isolated →
      (simulateFuturesOrderRisk env payload policy).inputs.initialMargin + (simulateFuturesOrderRisk env payload policy).inputs.entryFee ≤
        (simulateFuturesOrderRisk env payload policy).inputs.availableUsdt + tolerance ∧
      (simulateFuturesOrderRisk env payload policy).inputs.adverseStopLoss +
          (simulateFuturesOrderRisk env payload policy).inputs.roundTripFee +
          (simulateFuturesOrderRisk env payload policy).inputs.estimatedFundingCost ≤
        ((simulateFuturesOrderRisk env payload policy).policy.perTradeRiskPct + tolerance) / 100 *
          (simulateFuturesOrderRisk env payload policy).inputs.accountEquityUsdt ∧
      (simulateFuturesOrderRisk env payload policy).inputs.maintenanceMargin + (simulateFuturesOrderRisk env payload policy).inputs.exitFee <
        (simulateFuturesOrderRisk env payload policy).inputs.initialMargin -
          (simulateFuturesOrderRisk env payload policy).inputs.adverseStopLoss) ∧
    ∀ notional available equity, 0 < notional → notional ≤ (simulateFuturesOrderRisk env payload policy).inputs.notionalUsdt →
      (simulateFuturesOrderRisk env payload policy).inputs.availableUsdt ≤ available →
      (simulateFuturesOrderRisk env payload policy).inputs.accountEquityUsdt ≤ equity →
      (simulateFuturesOrderRisk env (resizedPayload payload notional available equity) policy).status ≠ .blocked := by
  have haccepted := accepted_iff.mp h
  have hlimits := haccepted.limits
  constructor
  · intro hisolated
    have hrisk : 0 ≤ (readPolicy env policy).perTradeRiskPct + tolerance := by
      have hnonneg : 0 ≤ (readPolicy env policy).perTradeRiskPct := perTradeRiskPct_nonneg
      rw [tolerance]
      linarith
    have hloss := FuturesRiskInputs.loss_le hlimits.equity hrisk hlimits.risk
    rw [FuturesRiskInputs.estimatedLossAtStop, if_pos hlimits.protective] at hloss
    exact ⟨hlimits.cash, hloss,
      FuturesRiskInputs.margin_left hisolated hlimits.entry hlimits.notional hlimits.protective hlimits.precedes⟩
  · intro notional available equity hpositive hle havailable hequity
    exact accepted_iff.mpr (accepted_resized haccepted hpositive hle havailable hequity)

end sound

/-- A parser that reads no text, and no texts of floats. -/
def Env.sample : Env where
  float _ := none
  repr _ := ""

/-- A number of a payload. -/
def amount (q : ℚ) : Value := .float (.finite q)

/-- A long position with a stop a percent below the entry. -/
def samplePayload (available : ℚ) : Payload :=
  [("symbol", .str "BTCUSDT"), ("accountEquityUsdt", amount 1000), ("availableUsdt", amount available), ("entryPrice", amount 100),
    ("notionalUsdt", amount 100), ("leverage", amount 10), ("maintenanceMarginRate", amount (1 / 200)), ("takerFeeRate", amount 0),
    ("fundingRate", amount 0), ("stopPrice", amount 99)]

def samplePolicy : Payload := [("maxLeverage", amount 20)]

/-- The gate lets a balance through that is short of the margin by a part of the tolerance. -/
theorem short_balance_accepted :
    (simulateFuturesOrderRisk Env.sample (samplePayload (10 - 1 / 2000000000)) samplePolicy).status ≠ .blocked ∧
    (simulateFuturesOrderRisk Env.sample (samplePayload (10 - 1 / 2000000000)) samplePolicy).inputs.marginType = .isolated ∧
    ¬(simulateFuturesOrderRisk Env.sample (samplePayload (10 - 1 / 2000000000)) samplePolicy).inputs.requiredCash ≤
      (simulateFuturesOrderRisk Env.sample (samplePayload (10 - 1 / 2000000000)) samplePolicy).inputs.availableUsdt := by
  decide +kernel

/-- An order that is let through, and half of it. -/
theorem half_order_accepted : (simulateFuturesOrderRisk Env.sample (samplePayload 500) samplePolicy).inputs.requiredCash ≤ 500 + tolerance ∧
    (simulateFuturesOrderRisk Env.sample (resizedPayload (samplePayload 500) 50 500 1000) samplePolicy).status ≠ .blocked := by
  have haccepted : (simulateFuturesOrderRisk Env.sample (samplePayload 500) samplePolicy).status ≠ .blocked := by decide +kernel
  obtain ⟨hsound, hsmaller⟩ := gate_sound haccepted
  refine ⟨(hsound (by decide)).1, hsmaller 50 500 1000 (by norm_num) ?_ ?_ ?_⟩
  · decide
  · decide
  · decide

/-! ## What is missing -/

/-- What may be wrong with an input. -/
inductive Defect where
  | absent | unparsable | boolean | nonFinite
  deriving DecidableEq

/-- An input is absent under all its names, or one of its names has a value that is no number, a truth value, a NaN or an infinity. -/
def Has (env : Env) (payload : Payload) (field : Field) : Defect → Prop
  | .absent => ∀ name ∈ field.aliases, given payload name = none
  | .unparsable => ∃ name ∈ field.aliases, ∃ value ∈ given payload name, env.parse value = none
  | .boolean => ∃ name ∈ field.aliases, ∃ b, payload.lookup name = some (.bool b)
  | .nonFinite => ∃ name ∈ field.aliases, ∃ value ∈ given payload name, ∃ x, env.parse value = some x ∧ x.isFinite = false

/-- The inputs that an order has to have. -/
def requiredFields : List Field :=
  [entryPrice, notionalUsdt, leverage, maintenanceMarginRate, takerFeeRate, fundingRate, accountEquityUsdt, availableUsdt, stopPrice]

/-- The inputs for which the gate has a default that blocks nothing. -/
def defaultedFields : List Field := [leverage, maintenanceMarginRate, takerFeeRate, fundingRate]

section missing

variable {env : Env} {payload policy : Payload} {field : Field}

theorem blocked_of_not_accepted (h : ¬Accepted env payload policy) : (simulateFuturesOrderRisk env payload policy).status = .blocked := by
  by_contra hstatus
  exact h (accepted_iff.mp hstatus)

/-- Nothing that is given of a well-given payload is bad. -/
theorem WellGiven.good (h : WellGiven env payload policy) (hfield : field ∈ numericInputFields) {name : String} (hname : name ∈ field.aliases)
    {value : Value} (hvalue : given payload name = some value) : ∃ q, env.parse value = some (.finite q) := by
  have hfields := h.fields
  simp only [fieldBlockers, List.append_eq_nil_iff, List.map_eq_nil_iff, nonFiniteFields, nonNumericFields] at hfields
  obtain ⟨⟨⟨hinfinite, -⟩, hinvalid⟩, -⟩ := hfields
  have hfinite := fieldsWhere_eq_nil_iff.mp hinfinite field hfield name hname value hvalue
  have hnumeric := fieldsWhere_eq_nil_iff.mp hinvalid field hfield name hname value hvalue
  rw [isNonNumeric] at hnumeric
  rw [isNonFinite] at hfinite
  cases hparse : env.parse value with
  | none =>
    rw [hparse] at hnumeric
    cases hnumeric
  | some x =>
    cases x with
    | finite q => exact ⟨q, rfl⟩
    | infinity negative =>
      rw [hparse] at hfinite
      cases hfinite
    | nan =>
      rw [hparse] at hfinite
      cases hfinite

/-- An input that does not read blocks the order. -/
theorem not_accepted_of_unread (hfield : field ∈ numericInputFields) {defect : Defect} (hdefect : defect ≠ .absent)
    (h : Has env payload field defect) : ¬Accepted env payload policy := by
  intro haccepted
  cases defect with
  | absent => exact hdefect rfl
  | unparsable =>
    obtain ⟨name, hname, value, hvalue, hparse⟩ := h
    obtain ⟨q, hq⟩ := haccepted.given.good hfield hname hvalue
    cases hparse.symm.trans hq
  | boolean =>
    obtain ⟨name, hname, b, hlookup⟩ := h
    have hvalue : given payload name = some (.bool b) := by
      rw [given, hlookup]
      rfl
    obtain ⟨q, hq⟩ := haccepted.given.good hfield hname hvalue
    cases hq
  | nonFinite =>
    obtain ⟨name, hname, value, hvalue, x, hparse, hinfinite⟩ := h
    obtain ⟨q, hq⟩ := haccepted.given.good hfield hname hvalue
    obtain rfl := Option.some.inj (hparse.symm.trans hq)
    cases hinfinite

theorem read_absent (h : Has env payload field .absent) (default : ℚ) : read env payload field default = default := by
  have hnone : firstPresent payload field.aliases = .none := by
    rw [firstPresent, List.findSome?_eq_none_iff.mpr h]
    rfl
  rw [read, hnone]
  rfl

/-- An amount that is absent blocks the order. -/
theorem not_accepted_of_absent (hfield : field ∈ requiredFields) (hdefault : field ∉ defaultedFields)
    (h : Has env payload field .absent) : ¬Accepted env payload policy := by
  intro haccepted
  have hzero : max 0 (read env payload field 0) = 0 := by
    rw [read_absent h]
    exact max_self 0
  have hlimits := haccepted.limits
  simp only [requiredFields, List.mem_cons, List.not_mem_nil, or_false] at hfield
  simp only [defaultedFields, List.mem_cons, List.not_mem_nil, or_false, not_or] at hdefault
  rcases hfield with rfl | rfl | rfl | rfl | rfl | rfl | rfl | rfl | rfl
  · exact hlimits.entry.ne' hzero
  · exact hlimits.notional.ne' hzero
  · exact hdefault.1 rfl
  · exact hdefault.2.1 rfl
  · exact hdefault.2.2.1 rfl
  · exact hdefault.2.2.2 rfl
  · exact hlimits.equity.ne' hzero
  · exact hlimits.available.ne' hzero
  · exact hlimits.stop.ne' hzero

end missing

/-- A payload without a leverage and without any rate. -/
def bareSample : Payload :=
  [("symbol", .str "BTCUSDT"), ("accountEquityUsdt", amount 1000), ("availableUsdt", amount 1000), ("entryPrice", amount 100),
    ("notionalUsdt", amount 100), ("stopPrice", amount 99)]

theorem bareSample_absent : ∀ field ∈ defaultedFields, ∀ name ∈ field.aliases, given bareSample name = none := by decide

theorem bareSample_ready : (simulateFuturesOrderRisk Env.sample bareSample []).status = .ready := by decide +kernel

/-- A payload without an entry price. -/
def entrylessSample : Payload :=
  [("symbol", .str "BTCUSDT"), ("accountEquityUsdt", amount 1000), ("availableUsdt", amount 1000), ("notionalUsdt", amount 100),
    ("stopPrice", amount 99)]

theorem entrylessSample_absent : ∀ name ∈ entryPrice.aliases, given entrylessSample name = none := by decide

end LiveTrader.FuturesRisk
