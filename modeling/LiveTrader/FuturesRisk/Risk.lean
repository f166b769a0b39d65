/-
# `FuturesRisk.Risk` — the futures risk gate

A payload gives each numeric input under one of several names.  `_first_present` finds the first name that is given, `_number` reads a
float and takes a default where there is none, and `_non_finite_fields` and `_non_numeric_fields` list the inputs that are given but
do not read.

`float(text)` and `str` of a float are left open; numbers are exact.

`simulate_futures_order_risk` derives the margin, the fees, the funding and the liquidation price of an order, and blocks it unless
all of its checks pass.  Numbers are exact here, so no quantity is infinite and `finite_arithmetic` returns what it is given.
-/
import LiveTrader.Lib.Python

namespace LiveTrader.FuturesRisk

open Lib Lib.Py

/-! ## Values -/

/-- A value of a payload or a policy. -/
inductive Value where
  | none
  | bool (b : Bool)
  | int (n : ℤ)
  | float (x : Number)
  | str (s : String)
  /-- A list or a tuple, by its text and the texts of its items. -/
  | items (text : String) (texts : List String)
  /-- Any other object, by its text and its truth. -/
  | other (text : String) (truth : Bool)
  deriving DecidableEq

/-- A mapping with text keys. -/
abbrev Payload := Dict String Value

structure Env where
  /-- `float(text)`. -/
  float : String → Option Number
  /-- `str` of a `float`. -/
  repr : Number → String

section values

variable (env : Env)

/-- `str(value)`. -/
def Env.str : Value → String
  | .none => "None"
  | .bool b => if b then "True" else "False"
  | .int n => toString n
  | .float x => env.repr x
  | .str s => s
  | .items text _ => text
  | .other text _ => text

/-- `float(str(value).replace(",", "").strip())`; the text of a number is that number again, those of `None` and of a truth value are
none. -/
def Env.parse : Value → Option Number
  | .none => none
  | .bool _ => none
  | .int n => some (.finite n)
  | .float x => some x
  | .str s => env.float (strip (String.ofList (s.toList.filter (· ≠ ','))))
  | .items text _ => env.float (strip (String.ofList (text.toList.filter (· ≠ ','))))
  | .other text _ => env.float (strip (String.ofList (text.toList.filter (· ≠ ','))))

/-- `value not in (None, "")`. -/
def Value.isPresent : Value → Bool
  | .none => false
  | .str s => s ≠ ""
  | _ => true

/-- The truth of `payload.get("symbol")`. -/
def Value.truthy : Value → Bool
  | .none => false
  | .bool b => b
  | .int n => n ≠ 0
  | .float x => x ≠ .finite 0
  | .str s => s ≠ ""
  | .items _ texts => !texts.isEmpty
  | .other _ truth => truth

/-- `_number`. -/
def number (value : Value) (default : ℚ) : ℚ :=
  match env.parse value with
  | some (.finite q) => q
  | _ => default

/-- `_finite_number`. -/
def finiteNumber (value : Value) : ℚ × Bool :=
  match env.parse value with
  | some (.finite q) => (q, true)
  | _ => (0, false)

/-- `_bounded`. -/
def bounded (value : Value) (minimum maximum default : ℚ) : ℚ := min (max (number env value default) minimum) maximum

/-- `int(q)`. -/
def truncated (q : ℚ) : ℤ := q.num.tdiv q.den

end values

/-! ## Fields -/

/-- The value of a name, where it is given. -/
def given (payload : Payload) (name : String) : Option Value := (payload.lookup name).filter Value.isPresent

/-- `_first_present`. -/
def firstPresent (payload : Payload) (aliases : List String) : Value := (aliases.findSome? (given payload)).getD .none

/-- A numeric field under its names. -/
structure Field where
  name : String
  aliases : List String
  deriving DecidableEq

def accountEquityUsdt : Field := ⟨"account_equity_usdt", ["account_equity_usdt", "accountEquityUsdt"]⟩
def availableUsdt : Field := ⟨"available_usdt", ["available_usdt", "availableUsdt"]⟩
def entryPrice : Field := ⟨"entry_price", ["entry_price", "entryPrice"]⟩
def notionalUsdt : Field := ⟨"notional_usdt", ["notional_usdt", "notionalUsdt"]⟩
def leverage : Field := ⟨"leverage", ["leverage"]⟩
def maintenanceMarginRate : Field := ⟨"maintenance_margin_rate", ["maintenance_margin_rate", "maintenanceMarginRate"]⟩
def takerFeeRate : Field := ⟨"taker_fee_rate", ["taker_fee_rate", "takerFeeRate"]⟩
def fundingRate : Field := ⟨"funding_rate", ["funding_rate", "fundingRate"]⟩
def fundingIntervals : Field := ⟨"funding_intervals", ["funding_intervals", "fundingIntervals"]⟩
def stopPrice : Field := ⟨"stop_price", ["stop_price", "stopPrice"]⟩

/-- `numeric_input_fields`. -/
def numericInputFields : List Field :=
  [accountEquityUsdt, availableUsdt, entryPrice, notionalUsdt, leverage, maintenanceMarginRate, takerFeeRate, fundingRate,
    fundingIntervals, stopPrice]

def maxLeverage : Field := ⟨"max_leverage", ["max_leverage", "maxLeverage", "maxLeverageMultiplier"]⟩
def maxNotionalPct : Field := ⟨"max_notional_pct", ["max_notional_pct", "maxNotionalPct", "maxNotionalPercent"]⟩
def perTradeRiskPct : Field := ⟨"per_trade_risk_pct", ["per_trade_risk_pct", "perTradeRiskPct", "perTradeRiskPercent"]⟩

/-- `numeric_policy_fields`. -/
def numericPolicyFields : List Field := [maxLeverage, maxNotionalPct, perTradeRiskPct]

section fields

variable (env : Env) (payload : Payload)

/-- A value that is given as NaN or infinity. -/
def isNonFinite (value : Value) : Bool := (env.parse value).any fun x => !x.isFinite

/-- A value that is given and no number. -/
def isNonNumeric (value : Value) : Bool := (env.parse value).isNone

/-- The fields that have a value of a kind under one of their names. -/
def fieldsWhere (bad : Value → Bool) (fields : List Field) : List String :=
  (fields.filter fun field => field.aliases.any fun name => (given payload name).any bad).map (·.name)

/-- `_non_finite_fields`. -/
def nonFiniteFields (fields : List Field) : List String := fieldsWhere payload (isNonFinite env) fields

/-- `_non_numeric_fields`. -/
def nonNumericFields (fields : List Field) : List String := fieldsWhere payload (isNonNumeric env) fields

/-! ## Normalization -/

inductive Direction where
  | long | short
  deriving DecidableEq

inductive MarginType where
  | isolated | crossed
  deriving DecidableEq

def MarginType.text : MarginType → String
  | .isolated => "ISOLATED"
  | .crossed => "CROSSED"

structure FuturesRiskInputs where
  symbol : String
  direction : Direction
  marginType : MarginType
  accountEquityUsdt : ℚ
  availableUsdt : ℚ
  entryPrice : ℚ
  notionalUsdt : ℚ
  leverage : ℚ
  maintenanceMarginRate : ℚ
  takerFeeRate : ℚ
  fundingRate : ℚ
  fundingIntervals : ℤ
  stopPrice : ℚ
  deriving DecidableEq

/-- A text with a default, as it is compared. -/
def rawText (value : Value) (default : String) : String := upper (strip (if value = .none then default else env.str value))

/-- `raw_direction`. -/
def rawDirection : String := rawText env (firstPresent payload ["direction"]) "LONG"

/-- `raw_margin_type`. -/
def rawMarginType : String := rawText env (firstPresent payload ["margin_type", "marginType"]) "ISOLATED"

/-- The symbol, without hyphens. -/
def symbolOf : String :=
  let value := payload.get "symbol" .none
  let text := upper (strip (if value.truthy then env.str value else ""))
  String.ofList (text.toList.filter (· ≠ '-'))

/-- `_number(_first_present(…), default)`. -/
def read (field : Field) (default : ℚ) : ℚ := number env (firstPresent payload field.aliases) default

/-- `normalize_futures_risk_inputs`. -/
def normalizeFuturesRiskInputs : FuturesRiskInputs where
  symbol := symbolOf env payload
  direction := if rawDirection env payload = "SHORT" then .short else .long
  marginType := if rawMarginType env payload = "CROSSED" then .crossed else .isolated
  accountEquityUsdt := max 0 (read env payload accountEquityUsdt 0)
  availableUsdt := max 0 (read env payload availableUsdt 0)
  entryPrice := max 0 (read env payload entryPrice 0)
  notionalUsdt := max 0 (read env payload notionalUsdt 0)
  leverage := max 1 (number env (payload.get "leverage" .none) 1)
  maintenanceMarginRate := bounded env (firstPresent payload maintenanceMarginRate.aliases) 0 (1 / 2) (5 / 1000)
  takerFeeRate := bounded env (firstPresent payload takerFeeRate.aliases) 0 (1 / 10) (5 / 10000)
  fundingRate := bounded env (firstPresent payload fundingRate.aliases) (-(1 / 10)) (1 / 10) (1 / 10000)
  fundingIntervals := max 0 (min 90 (truncated (read env payload fundingIntervals 1)))
  stopPrice := max 0 (read env payload stopPrice 0)

end fields

/-! ## Derived quantities -/

namespace FuturesRiskInputs

variable (i : FuturesRiskInputs)

def quantity : ℚ := if 0 < i.entryPrice then i.notionalUsdt / i.entryPrice else 0

def initialMargin : ℚ := if 0 < i.leverage then i.notionalUsdt / i.leverage else 0

def maintenanceMargin : ℚ := i.notionalUsdt * i.maintenanceMarginRate

def entryFee : ℚ := i.notionalUsdt * i.takerFeeRate

def exitFee : ℚ := i.entryFee

def roundTripFee : ℚ := i.entryFee + i.exitFee

def signedFundingCashflow : ℚ :=
  i.notionalUsdt * i.fundingRate * i.fundingIntervals * (if i.direction = .long then -1 else 1)

def estimatedFundingCost : ℚ := max 0 (-i.signedFundingCashflow)

def lossBudgetToLiquidation : ℚ := max 0 (i.initialMargin - i.maintenanceMargin - i.exitFee)

def liquidationMoveFraction : ℚ := if 0 < i.notionalUsdt then i.lossBudgetToLiquidation / i.notionalUsdt else 0

/-- `None` for a crossed margin or without an entry price. -/
def liquidationPrice : Option ℚ :=
  if i.marginType ≠ .isolated ∨ i.entryPrice ≤ 0 then none
  else match i.direction with
    | .long => some (max 0 (i.entryPrice * (1 - i.liquidationMoveFraction)))
    | .short => some (i.entryPrice * (1 + i.liquidationMoveFraction))

def liquidationBufferPct : Option ℚ :=
  i.liquidationPrice.map fun price =>
    match i.direction with
    | .long => (i.entryPrice - price) / i.entryPrice * 100
    | .short => (price - i.entryPrice) / i.entryPrice * 100

/-- The stop is on the side of the entry where the position loses. -/
def stopProtects : Bool :=
  match i.direction with
  | .long => i.stopPrice < i.entryPrice
  | .short => i.entryPrice < i.stopPrice

def stopIsProtective : Bool := 0 < i.stopPrice && 0 < i.quantity && i.stopProtects

def adverseStopLoss : ℚ := if i.stopIsProtective then |i.entryPrice - i.stopPrice| * i.quantity else 0

/-- `stop_precedes_liquidation`; `None` where it is not known. -/
def stopPrecedesLiquidation : Option Bool :=
  if i.stopIsProtective then
    i.liquidationPrice.map fun price =>
      match i.direction with
      | .long => price < i.stopPrice
      | .short => i.stopPrice < price
  else none

def estimatedLossAtStop : ℚ :=
  if i.stopIsProtective then i.adverseStopLoss + i.roundTripFee + i.estimatedFundingCost else 0

def riskPctOfEquity : ℚ :=
  if 0 < i.accountEquityUsdt ∧ 0 < i.estimatedLossAtStop then i.estimatedLossAtStop / i.accountEquityUsdt * 100 else 0

def notionalPctOfEquity : ℚ := if 0 < i.accountEquityUsdt then i.notionalUsdt / i.accountEquityUsdt * 100 else 0

def requiredCash : ℚ := i.initialMargin + i.entryFee

def marginUtilizationPct : ℚ := if 0 < i.availableUsdt then i.requiredCash / i.availableUsdt * 100 else 0

end FuturesRiskInputs

/-! ## The policy -/

structure FuturesPolicy where
  allowedMarginType : String
  maxLeverage : ℚ
  perTradeRiskPct : ℚ
  maxNotionalPct : ℚ
  deriving DecidableEq

section gate

variable (env : Env) (payload policy : Payload)

/-- What is read of a policy. -/
def readPolicy : FuturesPolicy where
  allowedMarginType := rawText env (firstPresent policy ["allowed_margin_type", "allowedMarginType", "marginMode"]) "ISOLATED"
  maxLeverage := max 1 (read env policy maxLeverage 1)
  perTradeRiskPct := bounded env (firstPresent policy perTradeRiskPct.aliases) 0 100 1
  maxNotionalPct := bounded env (firstPresent policy maxNotionalPct.aliases) 0 100 10

/-- `MAX_SAFE_LEVERAGE_INTEGER`. -/
def maxSafeLeverageInteger : ℚ := 9007199254740991

/-- `1e-9`. -/
def tolerance : ℚ := 1 / 1000000000

/-- The check of a leverage that is given. -/
def leverageFails (value : Value) : Bool :=
  let (parsed, valid) := finiteNumber env value
  match value with
  | .none => false
  | .bool _ => true
  | _ => !valid || parsed ≠ truncated parsed || !(1 ≤ parsed && parsed ≤ maxSafeLeverageInteger)

/-- The blockers of a policy that does not say it is valid. -/
def inheritedBlockers : List String :=
  match policy.lookup "valid" with
  | none => []
  | some (.bool true) => []
  | some _ =>
    let inherited := match policy.get "blockers" .none with
      | .items _ texts => texts.filter (· ≠ "")
      | _ => []
    if inherited = [] then ["futures-policy-invalid"] else inherited

/-- The blockers of the stop. -/
def stopBlockers (i : FuturesRiskInputs) : List String :=
  if i.stopPrice ≤ 0 then ["protective-stop-missing"]
  else if i.stopIsProtective = false then ["protective-stop-direction-invalid"]
  else blocker (i.stopPrecedesLiquidation = some false) "protective-stop-at-or-beyond-liquidation"

/-- The blockers of the values that are given and do not read. -/
def fieldBlockers : List String :=
  (nonFiniteFields env payload numericInputFields).map ("numeric-input-non-finite:" ++ ·) ++
  (nonFiniteFields env policy numericPolicyFields).map ("numeric-policy-non-finite:" ++ ·) ++
  (nonNumericFields env payload numericInputFields).map ("numeric-input-invalid:" ++ ·) ++
  (nonNumericFields env policy numericPolicyFields).map ("numeric-policy-invalid:" ++ ·)

/-- The blockers of the texts and of the two leverages. -/
def shapeBlockers : List String :=
  blocker (rawDirection env payload ∉ ["LONG", "SHORT"]) "direction-invalid" ++
  blocker (rawMarginType env payload ∉ ["ISOLATED", "CROSSED"]) "margin-type-invalid" ++
  blocker (symbolOf env payload = "") "symbol-missing"

/-- The blockers of the amounts. -/
def amountBlockers (i : FuturesRiskInputs) : List String :=
  blocker (i.entryPrice ≤ 0) "entry-price-invalid" ++
  blocker (i.notionalUsdt ≤ 0) "notional-invalid" ++
  blocker (i.accountEquityUsdt ≤ 0) "account-equity-invalid" ++
  blocker (i.availableUsdt ≤ 0) "available-usdt-invalid"

/-- The blockers of the leverages that are given. -/
def leverageBlockers : List String :=
  blocker (leverageFails env (firstPresent payload leverage.aliases) = true) "leverage-invalid" ++
  blocker (leverageFails env (firstPresent policy maxLeverage.aliases) = true) "max-leverage-policy-invalid"

/-- The blockers of the limits of the policy. -/
def limitBlockers (i : FuturesRiskInputs) (p : FuturesPolicy) : List String :=
  blocker (i.availableUsdt + tolerance < i.requiredCash) "required-margin-exceeds-available" ++
  blocker (p.allowedMarginType ∉ ["ANY", i.marginType.text]) "margin-type-policy-drift" ++
  blocker (p.maxLeverage + tolerance < i.leverage) "leverage-policy-drift" ++
  blocker (p.maxNotionalPct + tolerance < i.notionalPctOfEquity) "max-notional-policy-exceeded"

/-- The blocker of the loss at the stop. -/
def riskBlockers (i : FuturesRiskInputs) (p : FuturesPolicy) : List String :=
  blocker (i.stopIsProtective = true ∧ p.perTradeRiskPct + tolerance < i.riskPctOfEquity) "per-trade-risk-policy-exceeded"

/-- `blockers`, in the order of the source. -/
def blockers : List String :=
  let i := normalizeFuturesRiskInputs env payload
  let p := readPolicy env policy
  fieldBlockers env payload policy ++ inheritedBlockers policy ++ shapeBlockers env payload ++ amountBlockers i ++
    leverageBlockers env payload policy ++ limitBlockers i p ++ stopBlockers i ++ riskBlockers i p

/-- `warnings`. -/
def warnings : List String :=
  let i := normalizeFuturesRiskInputs env payload
  blocker (i.marginType = .crossed) "cross-margin-liquidation-account-dependent" ++
  blocker (∃ pct ∈ i.liquidationBufferPct, pct < 5) "liquidation-buffer-below-5pct" ++
  blocker (i.fundingIntervals = 0) "funding-not-included"

inductive Status where
  | ready | warning | blocked
  deriving DecidableEq

/-- What the gate returns; the estimate is that of the inputs. -/
structure Report where
  status : Status
  inputs : FuturesRiskInputs
  policy : FuturesPolicy
  blockers : List String
  warnings : List String

/-- `simulate_futures_order_risk`. -/
def simulateFuturesOrderRisk : Report where
  status := if blockers env payload policy ≠ [] then .blocked else if warnings env payload ≠ [] then .warning else .ready
  inputs := normalizeFuturesRiskInputs env payload
  policy := readPolicy env policy
  blockers := blockers env payload policy
  warnings := warnings env payload

end gate

end LiveTrader.FuturesRisk
