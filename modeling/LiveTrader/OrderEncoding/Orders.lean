/-
# `OrderEncoding.Orders` — encoders keep an order

Where the numbers of an intent, and those of the rules, are decimals of twelve places at most, nothing is lost on the way through texts:
what an exchange reads from a request that can be sent is what the intent says.

What an exchange reads from a request that can be sent is the order of its intent: the quantity is rounded down to the grid, or a market
purchase spends the amount the intent names, and the rest is as the intent has it.
-/
import LiveTrader.OrderEncoding.Requests

namespace LiveTrader.OrderEncoding

open Lib Lib.Py Lib.Decimal

/-! ## What is kept -/

/-- The texts of a purchase. -/
def buyTexts : List String := ["BUY", "B", "BID", "매수"]

/-- The side of an intent, where it has one that is known. -/
structure SideKept (env : Env) (intent : Fields) (side : String) : Prop where
  sell : upperText env (intent.at "side") "" ∈ sellTexts → side = "SELL"
  buy : upperText env (intent.at "side") "" ∈ buyTexts → side = "BUY"

/-- A quantity that is positive, on the grid and in the bounds of the rules, and less than a step below what is wanted. -/
structure Sized (rules : Rules) (anchor wanted sized : ℚ) : Prop where
  positive : 0 < sized
  le : sized ≤ wanted
  near : wanted < sized + rules.stepSize.value
  grid : ∃ n : ℕ, sized = anchor + n * rules.stepSize.value
  minQty : rules.minQty.value ≤ sized
  maxQty : sized ≤ rules.maxQty.value

section kept

variable (env : Env) (intent : Fields)

/-- The quantity of an intent. -/
def wantedOf : ℚ := decimalOrZero env (quantityValue intent)

def priceOf : ℚ := decimalOrZero env (intent.at "price")

/-- The amount that a market purchase spends: its notional, or else the quote quantity it has. -/
def quoteOf : Option ℚ :=
  let quote := decimalOrZero env (quoteValue env intent "BUY")
  if upperText env (intent.at "order_type") "MARKET" = "MARKET" ∧ normalizeSide env (intent.at "side") = "BUY" then
    if 0 < decimalOrZero env (intent.at "notional") then some (decimalOrZero env (intent.at "notional"))
    else if 0 < quote then some quote else none
  else none

/-- The order of a spot intent. -/
structure SpotKept (rules : Rules) (order : Order) : Prop where
  symbol : order.symbol = upperText env (intent.at "symbol") "" ∧ order.symbol ≠ ""
  orderType : order.orderType = upperText env (intent.at "order_type") "MARKET" ∧ order.orderType ∈ ["LIMIT", "MARKET"]
  side : SideKept env intent order.side
  quoted : ∀ quote, quoteOf env intent = some quote → order.quantity = none ∧ order.quote = some quote ∧ 0 < quote
  sized : quoteOf env intent = none → order.quote = none ∧ ∃ quantity, order.quantity = some quantity ∧
    Sized rules 0 (wantedOf env intent) quantity
  price : order.price = if order.orderType = "LIMIT" then some (priceOf env intent) else none
  clientOrderId : order.clientOrderId = if identifierOf env intent = "" then none else some (identifierOf env intent)

/-- The order of a futures intent. -/
structure FuturesKept (rules : Rules) (order : Order) : Prop where
  symbol : order.symbol = listedSymbol (futuresSymbol env intent) ∧ order.symbol ≠ ""
  orderType : order.orderType = upperText env (intent.at "order_type") "MARKET" ∧ order.orderType ∈ ["LIMIT", "MARKET"]
  side : SideKept env intent order.side
  sized : order.quote = none ∧ ∃ quantity, order.quantity = some quantity ∧ Sized rules rules.minQty.value (wantedOf env intent) quantity
  price : order.price = if order.orderType = "LIMIT" then some (priceOf env intent) else none
  positive : order.orderType = "LIMIT" → 0 < priceOf env intent
  clientOrderId : (identifierOf env intent).toList.length ≤ 36 →
    order.clientOrderId = if identifierOf env intent = "" then none else some (identifierOf env intent)

/-- The order of an intent for Upbit. -/
structure UpbitKept (order : Order) : Prop where
  symbol : order.symbol = upbitMarket env intent ∧ order.symbol ≠ ""
  orderType : order.orderType = upbitType env intent
  side : SideKept env intent order.side
  quoted : upbitType env intent = "price" → order.quantity = none ∧ order.price = none ∧
    order.quote = some (decimalOrZero env ((intent.at "price").orElse (intent.at "notional")))
  sized : upbitType env intent ≠ "price" → order.quote = none ∧ order.quantity = some (wantedOf env intent) ∧
    order.price = if upbitType env intent = "limit" then some (priceOf env intent) else none
  clientOrderId : order.clientOrderId = if upbitIdentifier env intent = "" then none else some (upbitIdentifier env intent)

/-! ## Decimals of twelve places -/

/-- A value that is a decimal of twelve places at most, if it is there. -/
def Exact (value : Json) : Prop := value.truthy = true → ∃ d, decimal? (env.str value) = some (.finite d) ∧ OnGrid 12 d.value

/-- The numbers of an intent. -/
def numberKeys : List String := ["quantity", "qty", "notional", "price", "quote_order_qty", "quoteOrderQty"]

/-- An intent whose numbers are decimals of twelve places at most. -/
def ExactIntent : Prop := ∀ key ∈ numberKeys, Exact env (intent.at key)

end kept

/-- Rules whose numbers are decimals of twelve places at most. -/
def Rules.IsExact (rules : Rules) : Prop := ∀ d ∈ [rules.minQty, rules.maxQty, rules.stepSize, rules.minNotional], OnGrid 12 d.value

section numbers

variable {env : Env}

theorem numberOf_of_finite {text : String} {d : Dec} (h : decimal? text = some (.finite d)) : numberOf text = d.value := by
  rw [numberOf, h]

theorem normalizePrice_of_falsy {value : Json} (h : value.truthy = false) : normalizePrice env value = 0 := by
  cases value with
  | null =>
    show numberOf (uncommaed "None") = 0
    decide
  | bool b =>
    obtain rfl : b = false := h
    show numberOf (uncommaed "False") = 0
    decide
  | int n =>
    obtain rfl : n = 0 := by simpa [Json.truthy] using h
    show numberOf (uncommaed "0") = 0
    decide +kernel
  | float q =>
    obtain rfl : q = 0 := by simpa [Json.truthy] using h
    show numberOf (uncommaed (if (0 : ℚ) = 0 then "0.0" else env.repr (.float 0))) = 0
    rw [if_pos rfl]
    decide +kernel
  | str s =>
    obtain rfl : s = "" := by simpa [Json.truthy] using h
    show numberOf (uncommaed "") = 0
    decide
  | arr items =>
    obtain rfl : items = [] := by simpa [Json.truthy] using h
    show numberOf (uncommaed "[]") = 0
    decide
  | obj fields =>
    obtain rfl : fields = [] := by simpa [Json.truthy] using h
    show numberOf (uncommaed "\x7b\x7d") = 0
    decide

theorem decimalOrZero_of_falsy {value : Json} (h : value.truthy = false) : decimalOrZero env value = 0 := by
  rw [decimalOrZero, textOr, orElse_of_falsy h]
  show numberOf "0" = 0
  decide +kernel

/-- **Both readings of a decimal are the same.** -/
theorem normalizePrice_eq {value : Json} (h : Exact env value) : normalizePrice env value = decimalOrZero env value := by
  cases htruthy : value.truthy with
  | false => rw [normalizePrice_of_falsy htruthy, decimalOrZero_of_falsy htruthy]
  | true =>
    obtain ⟨d, hd, -⟩ := h htruthy
    rw [normalizePrice, decimalOrZero, textOr, orElse_of_truthy htruthy, numberOf_of_finite hd,
      numberOf_of_finite (decimal?_uncommaed hd)]

theorem onGrid_decimalOrZero {value : Json} (h : Exact env value) : OnGrid 12 (decimalOrZero env value) := by
  cases htruthy : value.truthy with
  | false =>
    rw [decimalOrZero_of_falsy htruthy]
    exact OnGrid.zero 12
  | true =>
    obtain ⟨d, hd, hgrid⟩ := h htruthy
    rw [decimalOrZero, textOr, orElse_of_truthy htruthy, numberOf_of_finite hd]
    exact hgrid

theorem Exact.orElse {value other : Json} (h : Exact env value) (h' : Exact env other) : Exact env (value.orElse other) := by
  cases htruthy : value.truthy with
  | true =>
    rw [orElse_of_truthy htruthy]
    exact h
  | false =>
    rw [orElse_of_falsy htruthy]
    exact h'

/-- `value or 0` is read as the value. -/
theorem normalizePrice_orElse {value : Json} (h : Exact env value) : normalizePrice env (value.orElse (.int 0)) = decimalOrZero env value := by
  cases htruthy : value.truthy with
  | true => rw [orElse_of_truthy htruthy, normalizePrice_eq h]
  | false =>
    rw [orElse_of_falsy htruthy, normalizePrice_of_falsy rfl, decimalOrZero_of_falsy htruthy]

/-! ## Texts of numbers -/

theorem numberOf_shortText {q : ℚ} (h : OnGrid 12 q) : numberOf (shortText 12 q) = q := by
  obtain ⟨d, hd, hvalue⟩ := decimal?_shortText (by norm_num) h
  rw [numberOf_of_finite hd, hvalue]

theorem truthy_shortText {q : ℚ} (h : OnGrid 12 q) : (Json.str (shortText 12 q)).truthy = true := by
  obtain ⟨d, hd, -⟩ := decimal?_shortText (by norm_num) h
  rw [Json.truthy, bne_iff_ne]
  intro hempty
  have hnone : decimal? "" = none := by decide
  rw [hempty, hnone] at hd
  cases hd

theorem textAt_of_lookup {fields : Fields} {key text : String} (h : fields.lookup key = some (.str text)) :
    textAt fields key = some text := by
  rw [textAt, h]

theorem textAt_of_none {fields : Fields} {key : String} (h : fields.lookup key = none) : textAt fields key = none := by
  rw [textAt, h]

/-- An exchange reads the number that was written. -/
theorem numberAt_of_lookup {fields : Fields} {key : String} {q : ℚ} (hlookup : fields.lookup key = some (.str (shortText 12 q)))
    (h : OnGrid 12 q) : numberAt fields key = some q := by
  obtain ⟨d, hd, hvalue⟩ := decimal?_shortText (by norm_num) h
  rw [numberAt, textAt_of_lookup hlookup, Option.bind_some, hd, Option.bind_some, finiteValue, hvalue]

theorem numberAt_of_none {fields : Fields} {key : String} (h : fields.lookup key = none) : numberAt fields key = none := by
  rw [numberAt, textAt_of_none h]
  rfl

end numbers

/-! ## Encoders keep an order -/

section orders

variable {env : Env} {intent normalized : Fields} {rules : Rules}

/-! ## Fitted quantities -/

/-- A quantity from the anchor on is rounded down by less than a step. -/
theorem fitted_bounds (rules : Rules) {anchor q : ℚ} (h : anchor ≤ q) : fitted rules anchor q ≤ q ∧
    q < fitted rules anchor q + rules.stepSize.value ∧ ∃ n : ℕ, fitted rules anchor q = anchor + n * rules.stepSize.value := by
  have hstep : 0 < rules.stepSize.value := rules.accepted.2.1
  have hnonneg : 0 ≤ (q - anchor) / rules.stepSize.value := div_nonneg (sub_nonneg.mpr h) hstep.le
  have hvalue : fitted rules anchor q = ⌊(q - anchor) / rules.stepSize.value⌋ * rules.stepSize.value + anchor := by
    rw [fitted, truncZ, if_pos hnonneg]
  have hlow : (⌊(q - anchor) / rules.stepSize.value⌋ : ℚ) * rules.stepSize.value ≤ q - anchor :=
    (le_div_iff₀ hstep).mp (Int.floor_le _)
  have hhigh : q - anchor < ((⌊(q - anchor) / rules.stepSize.value⌋ : ℚ) + 1) * rules.stepSize.value :=
    (div_lt_iff₀ hstep).mp (Int.lt_floor_add_one _)
  obtain ⟨n, hn⟩ := Int.eq_ofNat_of_zero_le (Int.floor_nonneg.mpr hnonneg)
  refine ⟨by linarith, by linarith, n, ?_⟩
  rw [hvalue, hn]
  push_cast
  ring

/-- What is negative is not fitted to anything positive. -/
theorem fitted_of_neg {q : ℚ} (h : q < 0) : fitted rules 0 q ≤ 0 := by
  have hstep : 0 < rules.stepSize.value := rules.accepted.2.1
  have hneg : (q - 0) / rules.stepSize.value < 0 := div_neg_of_neg_of_pos (by linarith) hstep
  have hceil : ⌈(q - 0) / rules.stepSize.value⌉ ≤ 0 := Int.ceil_le.mpr (by exact_mod_cast hneg.le)
  rw [fitted, truncZ, if_neg (not_le.mpr hneg), add_zero]
  exact mul_nonpos_of_nonpos_of_nonneg (by exact_mod_cast hceil) hstep.le

theorem onGrid_fitted (hrules : rules.IsExact) {anchor : ℚ} (hanchor : OnGrid 12 anchor) (q : ℚ) : OnGrid 12 (fitted rules anchor q) := by
  have hstep : OnGrid 12 rules.stepSize.value := hrules _ (by simp)
  exact (OnGrid.int_mul _ hstep).add hanchor

theorem checkSize_eq_ok {name : String} {q price : ℚ} {reducing : Bool} (h : checkSize name rules q price reducing = .ok ()) :
    0 < q ∧ rules.minQty.value ≤ q ∧ q ≤ rules.maxQty.value := by
  obtain ⟨_, hlow, h⟩ := bind_eq_ok.mp h
  obtain ⟨_, hhigh, -⟩ := bind_eq_ok.mp h
  have hlow := not_or.mp (require_eq_ok.mp hlow)
  have hpos : 0 < q := not_le.mp hlow.1
  refine ⟨hpos, ?_, ?_⟩
  · by_contra hless
    exact hlow.2 ⟨hpos.trans (not_le.mp hless), not_le.mp hless⟩
  · by_contra hmore
    exact require_eq_ok.mp hhigh ⟨rules.accepted.2.2.1, not_le.mp hmore⟩

theorem sizedIntent_eq_ok {symbol : String} (h : sizedIntent env intent symbol rules = .ok normalized) : ∃ q,
    Sized rules 0 (wantedOf env intent) q ∧ (rules.IsExact → OnGrid 12 q) ∧
      normalized = (intent.put "quantity" (.str (shortText 12 q))).put "qty" (.str (shortText 12 q)) := by
  obtain ⟨_, hcheck, h⟩ := bind_eq_ok.mp h
  rw [if_pos rules.accepted.2.1] at hcheck h
  obtain ⟨hpos, hmin, hmax⟩ := checkSize_eq_ok hcheck
  have hwanted : 0 ≤ wantedOf env intent := by
    by_contra hneg
    exact absurd hpos (not_lt.mpr (fitted_of_neg (not_le.mp hneg)))
  obtain ⟨hle, hnear, hgrid⟩ := fitted_bounds rules hwanted
  exact ⟨_, ⟨hpos, hle, hnear, hgrid, hmin, hmax⟩, fun hrules => onGrid_fitted hrules (OnGrid.zero 12) _, (Except.ok.inj h).symm⟩

theorem normalizeBinanceFuturesIntent_eq_ok
    (hrules : binanceSymbolRules env (futuresSymbol env intent) true (upperText env (intent.at "order_type") "MARKET") = .ok rules)
    (h : normalizeBinanceFuturesIntent env intent = .ok normalized) : ∃ q,
    Sized rules rules.minQty.value (wantedOf env intent) q ∧ (rules.IsExact → OnGrid 12 q) ∧
      upperText env (intent.at "order_type") "MARKET" ∈ ["MARKET", "LIMIT"] ∧
      normalized = (futuresUpdates env intent (upperText env (intent.at "order_type") "MARKET") q).foldl
        (fun fields entry => fields.put entry.1 entry.2) intent := by
  obtain ⟨_, htype, h⟩ := bind_eq_ok.mp h
  obtain ⟨rules', hrules', h⟩ := bind_eq_ok.mp h
  obtain rfl := Except.ok.inj (hrules.symm.trans hrules')
  obtain ⟨_, hcheck, h⟩ := bind_eq_ok.mp h
  obtain ⟨hpos, hmin, hmax⟩ := checkSize_eq_ok hcheck
  have hwanted : rules.minQty.value ≤ wantedOf env intent := by
    by_contra hless
    rw [if_neg fun hboth => hless hboth.2] at hmin
    exact hless hmin
  have hfit : 0 < rules.stepSize.value ∧ rules.minQty.value ≤ decimalOrZero env (quantityValue intent) :=
    ⟨rules.accepted.2.1, hwanted⟩
  rw [if_pos hfit] at hpos hmin hmax h
  obtain ⟨hle, hnear, hgrid⟩ := fitted_bounds rules hwanted
  exact ⟨_, ⟨hpos, hle, hnear, hgrid, hmin, hmax⟩, fun hexact => onGrid_fitted hexact (hexact _ (by simp)) _,
    require_eq_ok.mp htype, (Except.ok.inj h).symm⟩

/-! ## Entries of a request -/

theorem lookup_entry {condition : Prop} [Decidable condition] {key key' : String} {value : Json} :
    (entry condition key value).lookup key' = if condition ∧ key' = key then some value else none := by
  rw [entry]
  by_cases hcondition : condition
  · by_cases hkey : key' = key
    · simp [hcondition, hkey]
    · simp [hcondition, hkey, List.lookup_cons, beq_eq_false_iff_ne.mpr hkey]
  · simp [hcondition]

variable (env intent) in
theorem lookup_spotQuery : (spotQuery env intent).lookup "symbol" = some (.str (upperText env (intent.at "symbol") "")) ∧
    (spotQuery env intent).lookup "side" = some (.str (normalizeSide env (intent.at "side"))) ∧
    (spotQuery env intent).lookup "type" = some (.str (upperText env (intent.at "order_type") "MARKET")) ∧
    (spotQuery env intent).lookup "quantity" =
      (if ¬usesQuote env intent then some (.str (quantityText env intent)) else none) ∧
    (spotQuery env intent).lookup "quoteOrderQty" =
      (if usesQuote env intent then some (.str (quoteText env intent (normalizeSide env (intent.at "side")))) else none) ∧
    (spotQuery env intent).lookup "price" =
      (if upperText env (intent.at "order_type") "MARKET" = "LIMIT" then some (.str (priceText env intent)) else none) ∧
    (spotQuery env intent).lookup "newClientOrderId" =
      (if identifierOf env intent ≠ "" ∧ isClientOrderId (identifierOf env intent) = true then some (.str (identifierOf env intent))
        else none) := by
  refine ⟨?_, ?_, ?_, ?_, ?_, ?_, ?_⟩
  all_goals simp [spotQuery, List.lookup_append, lookup_entry, List.lookup_cons, signature]

variable (env intent) in
theorem lookup_futuresQuery (hedgeMode : Bool) :
    (futuresQuery env intent hedgeMode).lookup "symbol" = some (.str (futuresSymbol env intent)) ∧
    (futuresQuery env intent hedgeMode).lookup "side" = some (.str (normalizeSide env (intent.at "side"))) ∧
    (futuresQuery env intent hedgeMode).lookup "type" = some (.str (upperText env (intent.at "order_type") "MARKET")) ∧
    (futuresQuery env intent hedgeMode).lookup "quantity" = some (.str (quantityText env intent)) ∧
    (futuresQuery env intent hedgeMode).lookup "quoteOrderQty" = none ∧
    (futuresQuery env intent hedgeMode).lookup "price" =
      (if upperText env (intent.at "order_type") "MARKET" = "LIMIT" then some (.str (priceText env intent)) else none) ∧
    (futuresQuery env intent hedgeMode).lookup "newClientOrderId" =
      (if identifierOf env intent ≠ "" then some (.str (String.ofList ((identifierOf env intent).toList.take 36))) else none) := by
  refine ⟨?_, ?_, ?_, ?_, ?_, ?_, ?_⟩
  all_goals simp [futuresQuery, List.lookup_append, lookup_entry, List.lookup_cons, signature]

variable (env intent) in
theorem lookup_upbitBody : (upbitBody env intent).lookup "market" = some (.str (upbitMarket env intent)) ∧
    (upbitBody env intent).lookup "side" = some (.str (if normalizeSide env (intent.at "side") = "BUY" then "bid" else "ask")) ∧
    (upbitBody env intent).lookup "ord_type" = some (.str (upbitType env intent)) ∧
    (upbitBody env intent).lookup "volume" =
      (if upbitType env intent ≠ "price" then some (.str (quantityText env intent)) else none) ∧
    (upbitType env intent = "price" → (upbitBody env intent).lookup "price" =
      some (.str (normalizeDecimalText env (((intent.at "price").orElse (intent.at "notional")).orElse (.int 0))))) ∧
    (upbitType env intent ≠ "price" → (upbitBody env intent).lookup "price" =
      if upbitType env intent = "limit" then some (.str (priceText env intent)) else none) ∧
    (upbitBody env intent).lookup "identifier" =
      (if upbitIdentifier env intent ≠ "" then some (.str (upbitIdentifier env intent)) else none) := by
  have hamounts : ∀ key ∈ ["volume", "price"], (upbitBody env intent).lookup key =
      (upbitAmounts env intent (upbitType env intent)).lookup key := by
    intro key hkey
    rw [upbitBody]
    simp only [List.mem_cons, List.not_mem_nil, or_false] at hkey
    rcases hkey with rfl | rfl
    · simp [List.lookup_append, lookup_entry, List.lookup_cons]
    · simp [List.lookup_append, lookup_entry, List.lookup_cons]
  refine ⟨?_, ?_, ?_, ?_, ?_, ?_, ?_⟩
  · simp [upbitBody]
  · simp [upbitBody, List.lookup_cons]
  · simp [upbitBody, List.lookup_cons]
  · rw [hamounts "volume" (by decide), upbitAmounts]
    by_cases hprice : upbitType env intent = "price"
    · simp [hprice, List.lookup_cons]
    · simp [hprice]
  · intro hprice
    rw [hamounts "price" (by decide), upbitAmounts, if_pos hprice, List.lookup_cons_self]
  · intro hprice
    rw [hamounts "price" (by decide), upbitAmounts, if_neg hprice, List.lookup_append, lookup_entry]
    simp [List.lookup_cons]
  · have hother : (upbitAmounts env intent (upbitType env intent)).lookup "identifier" = none := by
      rw [upbitAmounts]
      split
      · simp [List.lookup_cons]
      · simp [lookup_entry, List.lookup_cons]
    simp [upbitBody, List.lookup_append, lookup_entry, List.lookup_cons, hother]

theorem textAt_ite {fields : Fields} {key text : String} {condition : Prop} [Decidable condition]
    (h : fields.lookup key = if condition then some (.str text) else none) :
    textAt fields key = if condition then some text else none := by
  by_cases hcondition : condition
  · rw [if_pos hcondition] at h ⊢
    exact textAt_of_lookup h
  · rw [if_neg hcondition] at h ⊢
    exact textAt_of_none h

theorem numberAt_ite {fields : Fields} {key : String} {q : ℚ} {condition : Prop} [Decidable condition]
    (h : fields.lookup key = if condition then some (.str (shortText 12 q)) else none) (hq : OnGrid 12 q) :
    numberAt fields key = if condition then some q else none := by
  by_cases hcondition : condition
  · rw [if_pos hcondition] at h ⊢
    exact numberAt_of_lookup h hq
  · rw [if_neg hcondition] at h ⊢
    exact numberAt_of_none h

theorem readBinance_of {request : PreparedRequest} {query : Fields} {symbol side orderType : String} (hquery : request.query = some query)
    (hsymbol : query.lookup "symbol" = some (.str symbol)) (hside : query.lookup "side" = some (.str side))
    (htype : query.lookup "type" = some (.str orderType)) : readBinance request = some
      { symbol, side, orderType, quantity := numberAt query "quantity", quote := numberAt query "quoteOrderQty",
        price := numberAt query "price", clientOrderId := textAt query "newClientOrderId" } := by
  rw [readBinance, hquery]
  simp only [Option.bind_eq_bind, Option.bind_some, textAt_of_lookup hsymbol, textAt_of_lookup hside, textAt_of_lookup htype]

theorem normalizeDecimalText_of_exact {value : Json} (h : Exact env value) :
    normalizeDecimalText env value = shortText 12 (decimalOrZero env value) := by
  rw [normalizeDecimalText, normalizePrice_eq h]

section exact

variable (hexact : ExactIntent env intent)
include hexact

theorem exact_quantityValue : Exact env (quantityValue intent) :=
  (hexact "quantity" (by decide)).orElse (hexact "qty" (by decide))

theorem quantityText_eq : quantityText env intent = shortText 12 (wantedOf env intent) := by
  rw [quantityText, normalizeDecimalText, normalizePrice_orElse (exact_quantityValue hexact)]
  rfl

theorem priceText_eq : priceText env intent = shortText 12 (priceOf env intent) := by
  rw [priceText, normalizeDecimalText, normalizePrice_orElse (hexact "price" (by decide))]
  rfl

theorem onGrid_wantedOf : OnGrid 12 (wantedOf env intent) := onGrid_decimalOrZero (exact_quantityValue hexact)

theorem onGrid_priceOf : OnGrid 12 (priceOf env intent) := onGrid_decimalOrZero (hexact "price" (by decide))

theorem exact_quoteValue (side : String) : Exact env (quoteValue env intent side) := by
  refine ((hexact "quote_order_qty" (by decide)).orElse (hexact "quoteOrderQty" (by decide))).orElse ?_
  split
  · exact hexact "notional" (by decide)
  · intro hzero
    exact absurd hzero (by decide)

/-- The amount that an order spends, as the builder sees it. -/
theorem usesQuote_iff : usesQuote env intent ↔ upperText env (intent.at "order_type") "MARKET" = "MARKET" ∧
    normalizeSide env (intent.at "side") = "BUY" ∧ 0 < decimalOrZero env (quoteValue env intent "BUY") := by
  rw [usesQuote]
  refine and_congr_right fun _ => and_congr_right fun hside => ?_
  rw [hside, quoteText, normalizeDecimalText_of_exact (exact_quoteValue hexact "BUY"),
    numberOf_shortText (onGrid_decimalOrZero (exact_quoteValue hexact "BUY"))]

/-! ## `build_binance_spot_order_request` -/

theorem readBinance_spot {test : Bool} (hsend : (buildBinanceSpotOrderRequest env intent test).canSend = true) :
    upperText env (intent.at "symbol") "" ≠ "" ∧ readBinance (buildBinanceSpotOrderRequest env intent test) = some
      { symbol := upperText env (intent.at "symbol") ""
        side := normalizeSide env (intent.at "side")
        orderType := upperText env (intent.at "order_type") "MARKET"
        quantity := if usesQuote env intent then none else some (wantedOf env intent)
        quote := if usesQuote env intent then some (decimalOrZero env (quoteValue env intent "BUY")) else none
        price := if upperText env (intent.at "order_type") "MARKET" = "LIMIT" then some (priceOf env intent) else none
        clientOrderId := if identifierOf env intent = "" then none else some (identifierOf env intent) } := by
  rw [PreparedRequest.canSend, List.isEmpty_iff] at hsend
  obtain ⟨hsend, -⟩ := List.append_eq_nil_iff.mp hsend
  obtain ⟨hsend, hsymbol⟩ := List.append_eq_nil_iff.mp hsend
  obtain ⟨-, hidentifier⟩ := List.append_eq_nil_iff.mp hsend
  rw [blocker_eq_nil] at hsymbol hidentifier
  refine ⟨hsymbol, ?_⟩
  obtain ⟨hsymbolAt, hsideAt, htypeAt, hquantityAt, hquoteAt, hpriceAt, hclientAt⟩ := lookup_spotQuery env intent
  rw [quantityText_eq hexact] at hquantityAt
  rw [quoteText, normalizeDecimalText_of_exact (exact_quoteValue hexact _)] at hquoteAt
  rw [priceText_eq hexact] at hpriceAt
  rw [readBinance_of rfl hsymbolAt hsideAt htypeAt, numberAt_ite hquantityAt (onGrid_wantedOf hexact),
    numberAt_ite hquoteAt (onGrid_decimalOrZero (exact_quoteValue hexact _)), numberAt_ite hpriceAt (onGrid_priceOf hexact),
    textAt_ite hclientAt]
  have hquote : (if usesQuote env intent then some (decimalOrZero env (quoteValue env intent (normalizeSide env (intent.at "side"))))
      else none) = if usesQuote env intent then some (decimalOrZero env (quoteValue env intent "BUY")) else none := by
    by_cases huses : usesQuote env intent
    · rw [if_pos huses, if_pos huses, huses.2.1]
    · rw [if_neg huses, if_neg huses]
  have hclient : (if identifierOf env intent ≠ "" ∧ isClientOrderId (identifierOf env intent) = true then some (identifierOf env intent)
      else none) = if identifierOf env intent = "" then none else some (identifierOf env intent) := by
    by_cases hempty : identifierOf env intent = ""
    · rw [if_pos hempty, if_neg fun hboth => hboth.1 hempty]
    · have hvalid : isClientOrderId (identifierOf env intent) = true :=
        Bool.not_eq_false _ ▸ fun hinvalid => hidentifier ⟨hempty, hinvalid⟩
      rw [if_neg hempty, if_pos ⟨hempty, hvalid⟩]
  rw [hquote, hclient, ite_not]

/-! ## `build_binance_futures_order_request` -/

/-- What Binance reads from a futures request. -/
theorem readBinance_futures {hedgeMode test : Bool}
    (hsend : (buildBinanceFuturesOrderRequest env intent hedgeMode test).canSend = true) :
    futuresSymbol env intent ≠ "" ∧
    (upperText env (intent.at "order_type") "MARKET" = "LIMIT" → 0 < priceOf env intent) ∧
    readBinance (buildBinanceFuturesOrderRequest env intent hedgeMode test) = some
      { symbol := futuresSymbol env intent
        side := normalizeSide env (intent.at "side")
        orderType := upperText env (intent.at "order_type") "MARKET"
        quantity := some (wantedOf env intent)
        quote := none
        price := if upperText env (intent.at "order_type") "MARKET" = "LIMIT" then some (priceOf env intent) else none
        clientOrderId := if identifierOf env intent ≠ "" then some (String.ofList ((identifierOf env intent).toList.take 36)) else none } := by
  rw [PreparedRequest.canSend, List.isEmpty_iff] at hsend
  have hsend := eraseDups_eq_nil.mp hsend
  obtain ⟨hsend, hprice⟩ := List.append_eq_nil_iff.mp hsend
  obtain ⟨hsend, -⟩ := List.append_eq_nil_iff.mp hsend
  obtain ⟨hsend, -⟩ := List.append_eq_nil_iff.mp hsend
  obtain ⟨-, hsymbol⟩ := List.append_eq_nil_iff.mp hsend
  rw [blocker_eq_nil] at hsymbol hprice
  rw [priceText_eq hexact, numberOf_shortText (onGrid_priceOf hexact)] at hprice
  refine ⟨hsymbol, ?_, ?_⟩
  · intro hlimit
    by_contra hnot
    exact hprice ⟨hlimit, not_lt.mp hnot⟩
  obtain ⟨hsymbolAt, hsideAt, htypeAt, hquantityAt, hquoteAt, hpriceAt, hclientAt⟩ :=
    lookup_futuresQuery env intent hedgeMode
  rw [quantityText_eq hexact] at hquantityAt
  rw [priceText_eq hexact] at hpriceAt
  rw [readBinance_of rfl hsymbolAt hsideAt htypeAt, numberAt_of_lookup hquantityAt (onGrid_wantedOf hexact), numberAt_of_none hquoteAt,
    numberAt_ite hpriceAt (onGrid_priceOf hexact), textAt_ite hclientAt]

/-! ## `build_upbit_order_request` -/

theorem readUpbit_built {request : PreparedRequest} (h : buildUpbitOrderRequest env intent = .ok request) (hsend : request.canSend = true) :
    upbitMarket env intent ≠ "" ∧ readUpbit request = some
      { symbol := upbitMarket env intent
        side := normalizeSide env (intent.at "side")
        orderType := upbitType env intent
        quantity := if upbitType env intent = "price" then none else some (wantedOf env intent)
        quote := if upbitType env intent = "price" then some (decimalOrZero env ((intent.at "price").orElse (intent.at "notional"))) else none
        price := if upbitType env intent = "limit" then some (priceOf env intent) else none
        clientOrderId := if upbitIdentifier env intent ≠ "" then some (upbitIdentifier env intent) else none } := by
  obtain ⟨_, -, h⟩ := bind_eq_ok.mp h
  obtain rfl := Except.ok.inj h
  rw [PreparedRequest.canSend, List.isEmpty_iff] at hsend
  obtain ⟨-, hmarket⟩ := List.append_eq_nil_iff.mp hsend
  refine ⟨blocker_eq_nil.mp hmarket, ?_⟩
  obtain ⟨hmarketAt, hsideAt, htypeAt, hvolumeAt, hquoteAt, hpriceAt, hclientAt⟩ := lookup_upbitBody env intent
  rw [quantityText_eq hexact] at hvolumeAt
  have hside : (textAt (upbitBody env intent) "side").bind upbitSide = some (normalizeSide env (intent.at "side")) := by
    rw [textAt_of_lookup hsideAt, Option.bind_some, normalizeSide]
    by_cases hsell : upperText env (intent.at "side") "BUY" ∈ sellTexts
    · rw [if_pos hsell]
      rfl
    · rw [if_neg hsell]
      rfl
  rw [readUpbit]
  simp only [Option.bind_eq_bind, Option.bind_some, textAt_of_lookup hmarketAt, hside, textAt_of_lookup htypeAt]
  rw [numberAt_ite hvolumeAt (onGrid_wantedOf hexact), textAt_ite hclientAt]
  by_cases htype : upbitType env intent = "price"
  · have hexactQuote : Exact env ((intent.at "price").orElse (intent.at "notional")) :=
      (hexact "price" (by decide)).orElse (hexact "notional" (by decide))
    have hquote := hquoteAt htype
    rw [normalizeDecimalText, normalizePrice_orElse hexactQuote] at hquote
    rw [numberAt_of_lookup hquote (onGrid_decimalOrZero hexactQuote)]
    simp [htype]
  · have hprice := hpriceAt htype
    rw [priceText_eq hexact] at hprice
    rw [numberAt_ite hprice (onGrid_priceOf hexact)]
    simp [htype]

end exact

end orders

end LiveTrader.OrderEncoding
