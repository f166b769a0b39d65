/-
# `ShortBroker.Sizing` — the size of an order

`size_order` caps a proposal by the balance, the budget of the route and what the broker lets be ordered, and rounds it to the grid of the
exchange; a reducing order is capped by the position.  `submit` calls it once more on its own result, with the price and the quantity that
were reserved.  The snapshot and the market row are answers that come with the call, and decimals are exact.
-/
import LiveTrader.ShortBroker.Replies
import LiveTrader.Lib.FixedText

namespace LiveTrader.ShortBroker

open Lib Lib.Py Lib.Decimal

/-- The functions of the language and of the packages that sizing uses. -/
structure SizeEnv extends Env where
  /-- `format(value, "f")`. -/
  decimalText : ℚ → String
  /-- What is read has finitely many places, -/
  reads_decimal : ∀ {value : Json} {q : ℚ}, decimal value = some q → IsDecimal q
  /-- and a text of such a number is read as the number. -/
  reads_text : ∀ {q : ℚ}, IsDecimal q → decimal (.str (decimalText q)) = some q
  /-- `margin_budget(…)["positionNotional"]`: of the budget, the leverage, the price of a unit, the fee and the funding. -/
  positionNotional : ℚ → ℤ → ℚ → ℚ → ℚ → Result ℚ
  /-- The account of a futures order in its result: of its budget, whether it reduces, the manifest, the market row, the notional and the
  capital. -/
  accounting : Option Json → Bool → Fields → Fields → ℚ → ℚ → Result Json

/-- What `_snapshot` returns: the time of its observation was checked. -/
structure Snapshot where
  fields : Fields
  observed : (fields.lookup "observedAt").isSome = true

/-- The adapter, as far as sizing looks at it. -/
structure Sizer where
  route : Route
  /-- `self._manifest`. -/
  manifest : Option Fields
  currency : String
  /-- `futures_policy(self._futures_policy)[0]`. -/
  leverage : Result ℚ
  /-- `self._futures_incidents or self._protection.incidents`. -/
  incidents : Bool

/-! ## Numbers -/

/-- A quotient; a zero divisor raises. -/
def quotient (x y : ℚ) : Result ℚ := do
  require (y ≠ 0) .invalidOperation
  pure (x / y)

theorem quotient_eq_ok {x y z : ℚ} (h : quotient x y = .ok z) : y ≠ 0 ∧ z = x / y := by
  obtain ⟨_, hy, h⟩ := bind_eq_ok.mp h
  exact ⟨require_eq_ok.mp hy, (Except.ok.inj h).symm⟩

theorem quotient_of_ne {x y : ℚ} (h : y ≠ 0) : quotient x y = .ok (x / y) := by
  rw [quotient, require_true h]
  rfl

/-- A sum of what is read of rows. -/
def sumOf (f : Fields → Result ℚ) : List Fields → Result ℚ
  | [] => pure 0
  | row :: rows => do
    let x ← f row
    let total ← sumOf f rows
    pure (x + total)

section sizing

variable (env : SizeEnv) (sizer : Sizer)

/-- `d.get(key, default)`. -/
def getOr (d : Fields) (key : String) (default : Json) : Json := (d.lookup key).getD default

/-- `str(value or "")`. -/
def textOrEmpty (value : Json) : String := env.str (value.orElse (.str ""))

/-! ## Scope -/

/-- A field of the proposal names the session of the manifest. -/
def sameField (manifest proposal : Fields) (key : String) : Result Unit := do
  let expected ← manifest.item key
  require (textOrEmpty env (proposal.at key) = env.str expected) (blocked "EXACT_SESSION_SCOPE_REQUIRED")

/-- The name of a route. -/
def Route.name : Route → String
  | .kisKrCash => "KIS_KR_CASH"
  | .upbitKrwSpot => "UPBIT_KRW_SPOT"
  | .binanceSpot => "BINANCE_SPOT"
  | .binanceUsdmFutures => "BINANCE_USDM_FUTURES"

/-- `_scope`. -/
def scopeOf (proposal : Fields) : Result Fields := do
  let manifest ← orRaise (blocked "SESSION_NOT_PREPARED") sizer.manifest
  sameField env manifest proposal "sessionId"
  sameField env manifest proposal "manifestHash"
  require ((getOr proposal "route" (.str sizer.route.name)).eq (.str sizer.route.name) = true) (blocked "EXACT_ROUTE_REQUIRED")
  pure manifest

/-- `symbol in m["symbols"]`. -/
def listsSymbol (manifest : Fields) (symbol : String) : Result Bool := do
  let symbols ← manifest.item "symbols"
  match symbols with
  | .arr items => pure (items.any fun item => item.eq (.str symbol))
  | _ => .error (.type "argument is not iterable")

/-- What a proposal is about. -/
structure Asked where
  symbol : String
  side : String
  reducing : Bool

def askedOf (proposal : Fields) : Asked where
  symbol := textOrEmpty env (proposal.at "symbol")
  side := upper (textOrEmpty env (proposal.at "side"))
  reducing := (proposal.at "riskReducing").isTrue

/-! ## The market -/

/-- The price that was reserved, or else that of the market. -/
def quotedPrice (proposal market : Fields) : Result ℚ := do
  let native ← market.item "nativePrice"
  let native ← positiveNumber env.toEnv native
  match proposal.at "_reservedLimitPrice" with
  | .null => pure native
  | reserved => positiveNumber env.toEnv reserved

/-- A price, rounded down to a tick. -/
def roundPrice (market : Fields) (price : ℚ) : Result ℚ :=
  match market.at "priceTick" with
  | .null => pure price
  | tick => do
    let tick ← positiveNumber env.toEnv tick
    pure (truncZ (price / tick) * tick)

/-- The price and the rate of exchange of an order. -/
def priceOf (proposal market : Fields) : Result (ℚ × ℚ) := do
  let quoted ← quotedPrice env proposal market
  let fx ← market.item "krwPerQuote"
  let fx ← positiveNumber env.toEnv fx
  let price ← roundPrice env market quoted
  pure (price, fx)

/-- `sellTaxRate`, of a sale. -/
def taxOf (side : String) (market : Fields) : Result ℚ :=
  if side = "SELL" then number env.toEnv (getOr market "sellTaxRate" (.int 0)) else pure 0

/-! ## Funds -/

/-- The rows of positions that hold something. -/
def openRows : List Json → Result (List Fields)
  | [] => pure []
  | row :: rows => do
    let fields ← row.fields
    let quantity ← fields.item "quantity"
    let quantity ← number env.toEnv quantity
    let others ← openRows rows
    pure (if quantity ≠ 0 then fields :: others else others)

/-- `s["positions"]`. -/
def positionRows (snapshot : Snapshot) : Result (List Fields) := do
  let positions ← snapshot.fields.item "positions"
  match positions with
  | .arr rows => openRows env rows
  | _ => .error (.type "object is not iterable")

/-- `abs(number(row["quantity"]))`. -/
def heldQuantity (row : Fields) : Result ℚ := do
  let quantity ← row.item "quantity"
  let quantity ← number env.toEnv quantity
  pure |quantity|

/-- The value of a position at the mark. -/
def markValue (fx : ℚ) (row : Fields) : Result ℚ := do
  let held ← heldQuantity env row
  let mark ← positiveNumber env.toEnv (row.at "markPrice")
  pure (held * mark * fx)

/-- The capital of a futures position: its wallet, or its margin at the entry price. -/
def marginValue (leverage fx : ℚ) (row : Fields) : Result ℚ := do
  let wallet ← number env.toEnv (row.at "isolatedWallet")
  let held ← heldQuantity env row
  let entry ← positiveNumber env.toEnv (row.at "entryPrice")
  let margin ← quotient (held * entry) leverage
  pure (max wallet margin * fx)

/-- `_capital_committed`. -/
def capitalCommitted (positions : List Fields) (fx : ℚ) : Result ℚ :=
  if sizer.route ≠ .binanceUsdmFutures then sumOf (markValue env fx) positions
  else do
    let leverage ← sizer.leverage
    sumOf (marginValue env leverage fx) positions

/-- What an order costs of each unit of its notional: the margin, and the costs that are kept. -/
structure CostFactor where
  margin : ℚ
  reserve : ℚ

/-- `_cost_factor`. -/
def costFactor (market : Fields) : Result CostFactor := do
  let fee ← market.item "feeRate"
  let fee ← number env.toEnv fee
  if sizer.route ≠ .binanceUsdmFutures then pure ⟨1, fee⟩
  else do
    let leverage ← sizer.leverage
    let margin ← quotient 1 leverage
    let funding ← market.item "fundingRate"
    let funding ← number env.toEnv funding
    pure ⟨margin, 2 * fee + |funding| * 2⟩

/-- What is read before the order is looked at. -/
structure Basis where
  manifest : Fields
  price : ℚ
  fx : ℚ
  fee : ℚ
  tax : ℚ
  routeLimit : ℚ
  available : ℚ
  positions : List Fields
  exposure : ℚ
  committed : ℚ
  factor : CostFactor
  leverage : ℚ

/-- What an order of a notional takes of the capital. -/
def Basis.rate (b : Basis) : ℚ := b.factor.margin + b.factor.reserve + b.tax

/-- `number(proposal.get("deltaKrw", proposal.get("notionalKrw")), positive=True)`. -/
def requestedOf (proposal : Fields) : Result ℚ := positiveNumber env.toEnv (getOr proposal "deltaKrw" (proposal.at "notionalKrw"))

/-- `_futures_policy`'s leverage, or one. -/
def leverageOf : Result ℚ := if sizer.route = .binanceUsdmFutures then sizer.leverage else pure 1

/-- What does not depend on the amount that is asked for. -/
def basisOf (manifest : Fields) (proposal : Fields) (snapshot : Snapshot) (market : Fields) : Result Basis := do
  let quote ← priceOf env proposal market
  let fee ← market.item "feeRate"
  let fee ← number env.toEnv fee
  let tax ← taxOf env (askedOf env proposal).side market
  let _ ← requestedOf env proposal
  let routeLimit ← positiveNumber env.toEnv
    (getOr manifest "effectiveRouteBudgetKrw" (getOr manifest "routeBudgetKrw" (.int 100000)))
  let available ← snapshot.fields.item "availableNative"
  let available ← number env.toEnv available
  let positions ← positionRows env snapshot
  let exposure ← sumOf (markValue env quote.2) positions
  let committed ← capitalCommitted env sizer positions quote.2
  let factor ← costFactor env sizer market
  let leverage ← leverageOf sizer
  pure
    { manifest
      price := quote.1
      fx := quote.2
      fee
      tax
      routeLimit
      available := available * quote.2
      positions
      exposure
      committed
      factor
      leverage }

/-! ## Directions -/

/-- `str(proposal.get("positionDirection") or "long").lower()`. -/
def directionOf (proposal : Fields) : String := lower (env.str ((proposal.at "positionDirection").orElse (.str "long")))

/-- The side of an entry. -/
def entrySide (direction : String) : String := if direction = "short" then "SELL" else "BUY"

/-- The direction is one of the route, and an entry has its side. -/
def checkDirection (asked : Asked) (direction : String) : Result Unit := do
  require (¬(sizer.route ≠ .binanceUsdmFutures ∧ direction ≠ "long")) (blocked "SPOT_SHORT_FORBIDDEN")
  require (direction ∈ ["long", "short"] ∧ ¬(asked.reducing = false ∧ asked.side ≠ entrySide direction))
    (blocked "DIRECTION_SIDE_MISMATCH")

/-! ## Quantities -/

/-- The only position in the symbol, with its side to be left. -/
def ownedRow (b : Basis) (asked : Asked) (direction : String) : Result Fields :=
  match b.positions.filter fun row => (row.at "symbol").eq (.str asked.symbol) with
  | [row] => do
    require (asked.side ≠ entrySide direction) (blocked "OWNED_REDUCING_POSITION_REQUIRED")
    pure row
  | _ => .error (blocked "OWNED_REDUCING_POSITION_REQUIRED")

/-- `closeQuantity` names the whole position. -/
def closesAll (proposal : Fields) (owned : ℚ) : Result Bool :=
  match proposal.at "closeQuantity" with
  | .null => pure false
  | value => do
    let quantity ← number env.toEnv value
    pure (decide (quantity = owned))

/-- What a reducing order asks for. -/
def reducingQuantity (proposal : Fields) (b : Basis) (owned requested : ℚ) : Result ℚ := do
  let all ← closesAll env proposal owned
  if all then pure owned
  else do
    let asked ← quotient requested (b.price * b.fx)
    pure (min owned asked)

/-- What is asked for, at most the notional of the sleeve's budget. -/
def requestedCap (proposal market : Fields) (b : Basis) (requested : ℚ) : Result ℚ :=
  match proposal.at "capitalBudgetKrw" with
  | .null => pure requested
  | budget =>
    if sizer.route = .binanceUsdmFutures then do
      let budget ← positiveNumber env.toEnv budget
      let funding ← market.item "fundingRate"
      let funding ← number env.toEnv funding
      let notional ← env.positionNotional budget (truncZ b.leverage) (b.price * b.fx) b.fee (|funding| * 2)
      pure (min requested notional)
    else pure requested

/-- What an entry asks for, at most what the budget and the balance leave. -/
def entryQuantity (proposal market : Fields) (b : Basis) (requested : ℚ) : Result ℚ := do
  require (sizer.incidents = false) (blocked "FUTURES_INCIDENT_NEW_ENTRIES_BLOCKED")
  let wanted ← requestedCap env sizer proposal market b requested
  let budget ← quotient (b.routeLimit - b.committed) b.rate
  let balance ← quotient b.available b.rate
  require (0 < min wanted (min budget balance)) (blocked "AVAILABLE_BUDGET_EXHAUSTED")
  quotient (min wanted (min budget balance)) (b.price * b.fx)

/-- The grid of an exchange. -/
structure Grid where
  step : ℚ
  minQty : ℚ
  maxQty : Json

/-- A futures position that is closed in an emergency leaves by an order at the market. -/
def marketExit (proposal : Fields) : Bool := sizer.route == .binanceUsdmFutures && (proposal.at "operation").eq (.str "EMERGENCY_CLOSE")

/-- An entry of the market row under the key of orders at the market, where it may lack, or of limit orders. -/
def gridItem (proposal market : Fields) (exitKey key : String) : Result Json :=
  if marketExit sizer proposal then pure (market.at exitKey) else market.item key

/-- The grid of an order: that of limit orders or of orders at the market. -/
def gridOf (proposal market : Fields) : Result Grid := do
  let step ← gridItem sizer proposal market "marketQuantityStep" "lotStep"
  let step ← positiveNumber env.toEnv step
  let minQty ← gridItem sizer proposal market "marketMinQuantity" "minQuantity"
  let minQty ← number env.toEnv minQty
  require (0 ≤ minQty) (blocked "ORDER_MINIMUM_QUANTITY_UNKNOWN")
  pure { step, minQty, maxQty := if marketExit sizer proposal then market.at "marketMaxQuantity" else market.at "maxQuantity" }

/-- A quantity is a number of steps away from the minimum. -/
def Grid.OnStep (grid : Grid) (quantity : ℚ) : Prop := ((truncZ ((quantity - grid.minQty) / grid.step) : ℤ) : ℚ) * grid.step = quantity - grid.minQty

instance (grid : Grid) (quantity : ℚ) : Decidable (grid.OnStep quantity) := inferInstanceAs (Decidable (_ = _))

/-- The quantity that was reserved takes the place of the one that was computed. -/
def reservedQuantity (proposal : Fields) (grid : Grid) (owned : Option ℚ) (raw : ℚ) : Result ℚ :=
  match proposal.at "_reservedQuantity" with
  | .null => pure raw
  | reserved => do
    let reserved ← positiveNumber env.toEnv reserved
    require (grid.OnStep reserved ∧ ∀ held ∈ owned, reserved ≤ held) (blocked "RESERVED_NATIVE_QUANTITY_NO_LONGER_VALID")
    pure reserved

/-- At KIS, at most what the broker lets be ordered. -/
def orderableQuantity (snapshot : Snapshot) (asked : Asked) (raw : ℚ) : Result ℚ :=
  if sizer.route = .kisKrCash ∧ asked.reducing = false then do
    let maxima ← (getOr snapshot.fields "maximumOrderQuantities" (.obj [])).fields
    match maxima.at asked.symbol with
    | .null => .error (blocked "NATIVE_ORDERABLE_QUANTITY_UNKNOWN")
    | maximum => do
      let maximum ← number env.toEnv maximum
      pure (min raw maximum)
  else pure raw

/-- Rounded down to the grid. -/
def Grid.floor (grid : Grid) (raw : ℚ) : ℚ := grid.minQty + truncZ ((raw - grid.minQty) / grid.step) * grid.step

/-- The bounds of the exchange. -/
def checkBounds (market : Fields) (b : Basis) (grid : Grid) (reducing : Bool) (raw quantity : ℚ) : Result Unit := do
  require (grid.minQty ≤ raw) (blocked "ORDER_BELOW_EXCHANGE_MINIMUM")
  require (0 < quantity ∧ grid.minQty ≤ quantity) (blocked "ORDER_BELOW_EXCHANGE_MINIMUM")
  let minNotional ← market.item "minNotional"
  let minNotional ← number env.toEnv minNotional
  require (¬(quantity * b.price < minNotional ∧ ¬(reducing = true ∧ sizer.route = .binanceUsdmFutures)))
    (blocked "ORDER_BELOW_EXCHANGE_MINIMUM")
  match grid.maxQty with
  | .null => pure ()
  | maxQty => do
    let maxQty ← positiveNumber env.toEnv maxQty
    require (quantity ≤ maxQty) (blocked "ORDER_ABOVE_EXCHANGE_MAXIMUM")

/-! ## `size_order` -/

/-- What was found for an order. -/
structure Sizing where
  basis : Basis
  asked : Asked
  quantity : ℚ

/-- `notional`. -/
def Sizing.notional (z : Sizing) : ℚ := z.quantity * z.basis.price * z.basis.fx

/-- `required_capital`. -/
def Sizing.required (z : Sizing) : ℚ := z.notional * z.basis.rate

/-- `projected`. -/
def Sizing.projected (z : Sizing) : ℚ :=
  if z.asked.reducing then max 0 (z.basis.exposure - z.notional)
  else z.basis.exposure + z.notional + z.notional * (z.basis.fee + z.basis.tax)

/-- `projected_capital`. -/
def Sizing.projectedCapital (z : Sizing) : ℚ :=
  if z.asked.reducing then max 0 (z.basis.committed - z.notional * z.basis.factor.margin) else z.basis.committed + z.required

/-- The quantity before it is put on the grid, with the position of a reducing order. -/
def rawQuantity (proposal market : Fields) (b : Basis) (asked : Asked) : Result (ℚ × Option ℚ) := do
  let requested ← requestedOf env proposal
  checkDirection sizer asked (directionOf env proposal)
  if asked.reducing then do
    let row ← ownedRow b asked (directionOf env proposal)
    let owned ← heldQuantity env row
    let raw ← reducingQuantity env proposal b owned requested
    pure (raw, some owned)
  else do
    let raw ← entryQuantity env sizer proposal market b requested
    pure (raw, none)

/-- The order, before the capital is checked. -/
def sizingOf (proposal : Fields) (snapshot : Snapshot) (market : Fields) : Result Sizing := do
  let manifest ← scopeOf env sizer proposal
  let asked := askedOf env proposal
  let listed ← listsSymbol manifest asked.symbol
  require (listed = true ∧ asked.side ∈ ["BUY", "SELL"]) (blocked "ORDER_SCOPE_INVALID")
  let basis ← basisOf env sizer manifest proposal snapshot market
  let raw ← rawQuantity env sizer proposal market basis asked
  let grid ← gridOf env sizer proposal market
  let reserved ← reservedQuantity env proposal grid raw.2 raw.1
  let orderable ← orderableQuantity env sizer snapshot asked reserved
  checkBounds env sizer market basis grid asked.reducing orderable (grid.floor orderable)
  pure { basis, asked, quantity := grid.floor orderable }

/-- The balance and the budget of the route bear an entry. -/
def checkCapital (z : Sizing) : Result Unit := do
  require (¬(z.asked.reducing = false ∧ z.basis.available < z.required)) (blocked "AVAILABLE_BUDGET_EXHAUSTED")
  require (¬(z.asked.reducing = false ∧ z.basis.routeLimit < z.projectedCapital)) (blocked "ROUTE_EXPOSURE_EXCEEDED")

/-- What a coordination is told of the funds. -/
def capture (coordinated : Bool) (snapshot : Snapshot) : Result Unit :=
  if coordinated then do
    let _ ← snapshot.fields.item "observedAt"
    pure ()
  else pure ()

/-- The entries of a result; the texts are those of decimals. -/
def Sizing.updates (z : Sizing) (accountId observedAt fxObservedAt positionMode : Json) : Fields :=
  [("ready", .bool true), ("blockers", .arr []), ("accountId", accountId), ("quantity", .str (env.decimalText z.quantity)),
    ("referencePrice", .str (env.decimalText z.basis.price)), ("estimatedNotionalKrw", .str (env.decimalText z.notional)),
    ("projectedGrossExposureKrw", .str (env.decimalText z.projected)),
    ("feeKrw", .str (env.decimalText (z.notional * (z.basis.fee + z.basis.tax)))), ("observedAt", observedAt),
    ("krwPerQuote", .str (env.decimalText z.basis.fx)), ("fxObservedAt", fxObservedAt),
    ("leverage", .str (env.decimalText z.basis.leverage)), ("requiredCapitalKrw", .str (env.decimalText z.required)),
    ("projectedCommittedCapitalKrw", .str (env.decimalText z.projectedCapital)), ("positionMode", positionMode),
    ("promotionEligible", .bool false)]

/-- The result of an order that is ready. -/
def Sizing.result (z : Sizing) (proposal : Fields) (snapshot : Snapshot) (market : Fields) : Result Fields := do
  let accountId ← snapshot.fields.item "accountId"
  let observedAt ← market.item "observedAt"
  let fxObservedAt ← market.item "fxObservedAt"
  let result := proposal.update (z.updates env accountId observedAt fxObservedAt (getOr market "positionMode" (.str "")))
  if sizer.route = .binanceUsdmFutures then do
    let account ← env.accounting (proposal.lookup "capitalBudgetKrw") z.asked.reducing z.basis.manifest market z.notional z.required
    pure (result.put "executionAccounting" account)
  else pure result

/-- `size_order`, where it is ready; what it raises is what it answers otherwise. -/
def sizeOrder (coordinated : Bool) (proposal : Fields) (snapshot : Snapshot) (market : Fields) : Result Fields := do
  let z ← sizingOf env sizer proposal snapshot market
  capture coordinated snapshot
  checkCapital z
  z.result env sizer proposal snapshot market

/-- What `submit` writes over an order before it has it checked again. -/
def recheckEntries (order : Fields) : Fields :=
  [("notionalKrw", getOr order "estimatedNotionalKrw" (order.at "notionalKrw")),
    ("deltaKrw", getOr order "estimatedNotionalKrw" (order.at "notionalKrw")), ("_reservedLimitPrice", order.at "referencePrice"),
    ("_reservedQuantity", order.at "quantity")]

/-- The order that `submit` has checked again, of what `size_order` returned. -/
def recheckOf (order : Fields) : Fields := order.update (recheckEntries order)

end sizing

end LiveTrader.ShortBroker
