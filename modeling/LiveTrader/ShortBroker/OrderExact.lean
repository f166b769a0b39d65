/-
# `ShortBroker.OrderExact` — the truth of an order is exact or unknown

The commissions are folded over the trades one by one (`addFees_eq_ok`), so each of the totals is a sum over the trades, in the decimal
context (`foldl_charge_native` and its companions).  `order_truth_is_exact` joins them with the identity, the quantity and the price of the
order.

Each check of `get_order` is read back from an order that is known.  What is not joined, by a guard of the code: the trades of an order that
says it is not filled, the third assets of a future, and the client id of an execution that was reported without one.
-/
import LiveTrader.ShortBroker.OrderTruth

namespace LiveTrader.ShortBroker.OrderTruth

open Lib Lib.Py Lib.Decimal

variable {env : TextEnv} {world : World}

/-! ## Sums in the context -/

/-- A sum that goes on from a number. -/
def ctxFrom (start : ℚ) (l : List ℚ) : ℚ := l.foldl (fun acc x => ctx 28 (acc + x)) start

/-- What a map has under a key after some amounts were added. -/
def carried (start : Option ℚ) (l : List ℚ) : Option ℚ := if l = [] then start else some (ctxFrom (start.getD 0) l)

theorem carried_cons (start : Option ℚ) (x : ℚ) (l : List ℚ) :
    carried start (x :: l) = carried (some (ctx 28 (start.getD 0 + x))) l := by
  cases l with
  | nil => rfl
  | cons y l => rfl

/-- No partial sum of these needs more than 28 digits. -/
def Unrounded (l : List ℚ) : Prop := ∃ k, (∀ x ∈ l, OnGrid k x) ∧ absSum l * 10 ^ k < 10 ^ 28

theorem ctxSum_unrounded {l : List ℚ} (h : Unrounded l) : ctxSum 28 l = l.sum := by
  obtain ⟨k, hgrid, hsmall⟩ := h
  exact ctxSum_of_onGrid hgrid hsmall

theorem get_eq_lookup (totals : Dict String ℚ) (asset : String) : totals.get asset 0 = (totals.lookup asset).getD 0 := by
  induction totals with
  | nil => rfl
  | cons entry totals ih =>
    obtain ⟨key, value⟩ := entry
    by_cases h : key = asset
    · subst h
      rw [Dict.get, if_pos rfl, List.lookup_cons_self, Option.getD_some]
    · rw [Dict.get, if_neg h, List.lookup_cons, beq_eq_false_iff_ne.mpr (Ne.symm h), ih]

theorem lookup_addTo (totals : Dict String ℚ) (asset other : String) (amount : ℚ) : (addTo totals asset amount).lookup other =
    if other = asset then some (ctx 28 ((totals.lookup asset).getD 0 + amount)) else totals.lookup other := by
  rw [addTo, Dict.lookup_set, get_eq_lookup]

/-! ## Commissions -/

/-- The commission of a trade: the fee, the asset, and the quote of the asset. -/
structure Charge where
  fee : ℚ
  asset : String
  rate : ℚ

/-- A row says a commission, and the exchange quoted its asset. -/
structure ChargeOf (env : TextEnv) (world : World) (row : Fields) (charge : Charge) : Prop where
  fee : number env.toEnv (row.at "commission") = .ok charge.fee
  asset : textOf env (row.at "commissionAsset") = charge.asset
  nonneg : 0 ≤ charge.fee
  named : charge.fee ≠ 0 → charge.asset ≠ ""
  rate : charge.asset ≠ "USDT" → charge.fee ≠ 0 → ∃ n, rateOf env world n charge.asset = .ok charge.rate

/-- What a commission does to the totals. -/
def Fees.charge (futures : Bool) (symbol : String) (fees : Fees) (charge : Charge) : Fees :=
  if charge.asset = "USDT" then { fees.addBase futures symbol charge.asset charge.fee with native := ctx 28 (fees.native + charge.fee) }
  else if charge.fee = 0 then fees.addBase futures symbol charge.asset charge.fee
  else (fees.addBase futures symbol charge.asset charge.fee).addOther futures symbol charge.asset charge.fee (ctx 28 (charge.fee * charge.rate))

theorem addFee_eq_ok {futures : Bool} {symbol : String} {n : ℕ} {fees : Fees} {row : Fields} {next : ℕ × Fees}
    (h : addFee env world futures symbol n fees row = .ok next) :
    ∃ charge, ChargeOf env world row charge ∧ next.2 = fees.charge futures symbol charge := by
  simp only [addFee, bind_eq_ok, require_eq_ok] at h
  obtain ⟨fee, hfee, _, hvalid, h⟩ := h
  split at h
  · next hquote =>
    obtain rfl := pure_eq_ok.mp h
    exact ⟨⟨fee, textOf env (row.at "commissionAsset"), 1⟩, ⟨hfee, rfl, hvalid.1, hvalid.2, fun hother => absurd hquote hother⟩,
      (if_pos hquote).symm⟩
  · next hother =>
    split at h
    · next hzero =>
      obtain rfl := pure_eq_ok.mp h
      exact ⟨⟨fee, textOf env (row.at "commissionAsset"), 1⟩, ⟨hfee, rfl, hvalid.1, hvalid.2, fun _ hne => absurd hzero hne⟩,
        ((if_neg hother).trans (if_pos hzero)).symm⟩
    · next hfee' =>
      simp only [bind_eq_ok, pure_eq_ok] at h
      obtain ⟨rate, hrate, rfl⟩ := h
      exact ⟨⟨fee, textOf env (row.at "commissionAsset"), rate⟩, ⟨hfee, rfl, hvalid.1, hvalid.2, fun _ _ => ⟨n, hrate⟩⟩,
        ((if_neg hother).trans (if_neg hfee')).symm⟩

/-- The totals are folded over the commissions of the trades. -/
theorem addFees_eq_ok {futures : Bool} {symbol : String} {n : ℕ} {fees fees' : Fees} {rows : List Fields}
    (h : addFees env world futures symbol n fees rows = .ok fees') :
    ∃ charges, List.Forall₂ (ChargeOf env world) rows charges ∧ fees' = charges.foldl (Fees.charge futures symbol) fees := by
  induction rows generalizing n fees with
  | nil =>
    obtain rfl := pure_eq_ok.mp h
    exact ⟨[], .nil, rfl⟩
  | cons row rows ih =>
    simp only [addFees, bind_eq_ok] at h
    obtain ⟨next, hnext, hrest⟩ := h
    obtain ⟨charge, hcharge, hfees⟩ := addFee_eq_ok hnext
    obtain ⟨charges, hcharges, rfl⟩ := ih hrest
    exact ⟨charge :: charges, .cons hcharge hcharges, by rw [List.foldl_cons, hfees]⟩

/-! ## Totals -/

/-- What a commission costs in the quote currency. -/
def Charge.cost (charge : Charge) : ℚ := if charge.asset = "USDT" then charge.fee else ctx 28 (charge.fee * charge.rate)

/-- The commissions that are not zero, or in the quote currency. -/
def Charge.Counted (charge : Charge) : Prop := charge.asset = "USDT" ∨ charge.fee ≠ 0

instance : DecidablePred Charge.Counted := fun _ => inferInstanceAs (Decidable (_ ∨ _))

/-- A commission in the asset that is traded. -/
def Charge.InBase (futures : Bool) (symbol : String) (charge : Charge) : Prop := futures = false ∧ charge.asset = baseAsset symbol

instance (futures : Bool) (symbol : String) : DecidablePred (Charge.InBase futures symbol) := fun _ => inferInstanceAs (Decidable (_ ∧ _))

/-- A commission in a third asset. -/
def Charge.InOther (futures : Bool) (symbol asset : String) (charge : Charge) : Prop :=
  futures = false ∧ charge.asset = asset ∧ charge.asset ≠ "USDT" ∧ charge.asset ≠ baseAsset symbol ∧ charge.fee ≠ 0

instance (futures : Bool) (symbol asset : String) : DecidablePred (Charge.InOther futures symbol asset) :=
  fun _ => inferInstanceAs (Decidable (_ ∧ _))

variable {futures : Bool} {symbol : String}

@[simp] theorem addBase_native (fees : Fees) (asset : String) (fee : ℚ) : (fees.addBase futures symbol asset fee).native = fees.native := by
  rw [Fees.addBase]
  split <;> rfl

@[simp] theorem addBase_quantities (fees : Fees) (asset : String) (fee : ℚ) :
    (fees.addBase futures symbol asset fee).quantities = fees.quantities := by
  rw [Fees.addBase]
  split <;> rfl

@[simp] theorem addBase_natives (fees : Fees) (asset : String) (fee : ℚ) : (fees.addBase futures symbol asset fee).natives = fees.natives := by
  rw [Fees.addBase]
  split <;> rfl

@[simp] theorem addOther_base (fees : Fees) (asset : String) (fee converted : ℚ) :
    (fees.addOther futures symbol asset fee converted).base = fees.base := by
  rw [Fees.addOther]
  split <;> rfl

@[simp] theorem addOther_native (fees : Fees) (asset : String) (fee converted : ℚ) :
    (fees.addOther futures symbol asset fee converted).native = ctx 28 (fees.native + converted) := by
  rw [Fees.addOther]
  split <;> rfl

theorem charge_native (fees : Fees) (charge : Charge) : (fees.charge futures symbol charge).native =
    if charge.Counted then ctx 28 (fees.native + charge.cost) else fees.native := by
  rw [Fees.charge, Charge.cost]
  by_cases hquote : charge.asset = "USDT"
  · simp [hquote, Charge.Counted]
  · by_cases hzero : charge.fee = 0
    · simp [hquote, hzero, Charge.Counted]
    · simp [hquote, hzero, Charge.Counted]

theorem charge_base (fees : Fees) (charge : Charge) : (fees.charge futures symbol charge).base =
    if charge.InBase futures symbol then ctx 28 (fees.base + charge.fee) else fees.base := by
  have hbase : (fees.addBase futures symbol charge.asset charge.fee).base =
      if charge.InBase futures symbol then ctx 28 (fees.base + charge.fee) else fees.base := by
    rw [Fees.addBase]
    split
    · next h => exact (if_pos h).symm
    · next h => exact (if_neg h).symm
  rw [Fees.charge]
  split
  · exact hbase
  · split
    · exact hbase
    · rw [addOther_base]
      exact hbase

theorem lookup_charge (futures : Bool) (symbol : String) (fees : Fees) (charge : Charge) (asset : String) :
    (fees.charge futures symbol charge).quantities.lookup asset = (if charge.InOther futures symbol asset then
      some (ctx 28 ((fees.quantities.lookup asset).getD 0 + charge.fee)) else fees.quantities.lookup asset) ∧
    (fees.charge futures symbol charge).natives.lookup asset = (if charge.InOther futures symbol asset then
      some (ctx 28 ((fees.natives.lookup asset).getD 0 + charge.cost)) else fees.natives.lookup asset) := by
  rw [Fees.charge, Charge.cost]
  by_cases hquote : charge.asset = "USDT"
  · simp [hquote, Charge.InOther]
  · by_cases hzero : charge.fee = 0
    · simp [hquote, hzero, Charge.InOther]
    · rw [if_neg hquote, if_neg hzero, Fees.addOther]
      by_cases hthird : futures = false ∧ charge.asset ≠ baseAsset symbol
      · rw [if_pos hthird]
        simp only [addBase_quantities, addBase_natives, lookup_addTo]
        by_cases hasset : asset = charge.asset
        · subst hasset
          simp [Charge.InOther, hquote, hzero, hthird]
        · have hno : ¬ charge.InOther futures symbol asset := fun h => hasset h.2.1.symm
          simp [hasset, hno]
      · have hno : ¬ charge.InOther futures symbol asset := fun h => hthird ⟨h.1, h.2.2.2.1⟩
        simp [hthird, hno]

/-- Each commission is counted once. -/
theorem foldl_charge_native (charges : List Charge) (fees : Fees) : (charges.foldl (Fees.charge futures symbol) fees).native =
    ctxFrom fees.native ((charges.filter fun charge => charge.Counted).map Charge.cost) := by
  induction charges generalizing fees with
  | nil => rfl
  | cons charge charges ih =>
    rw [List.foldl_cons, ih, charge_native, List.filter_cons]
    by_cases h : charge.Counted
    · rw [if_pos h, if_pos (decide_eq_true h)]
      rfl
    · rw [if_neg h, if_neg (fun hc => h (of_decide_eq_true hc))]

theorem foldl_charge_base (charges : List Charge) (fees : Fees) : (charges.foldl (Fees.charge futures symbol) fees).base =
    ctxFrom fees.base ((charges.filter fun charge => charge.InBase futures symbol).map Charge.fee) := by
  induction charges generalizing fees with
  | nil => rfl
  | cons charge charges ih =>
    rw [List.foldl_cons, ih, charge_base, List.filter_cons]
    by_cases h : charge.InBase futures symbol
    · rw [if_pos h, if_pos (decide_eq_true h)]
      rfl
    · rw [if_neg h, if_neg (fun hc => h (of_decide_eq_true hc))]

theorem foldl_charge_lookup (charges : List Charge) (fees : Fees) (asset : String) :
    (charges.foldl (Fees.charge futures symbol) fees).quantities.lookup asset =
      carried (fees.quantities.lookup asset) ((charges.filter fun charge => charge.InOther futures symbol asset).map Charge.fee) ∧
    (charges.foldl (Fees.charge futures symbol) fees).natives.lookup asset =
      carried (fees.natives.lookup asset) ((charges.filter fun charge => charge.InOther futures symbol asset).map Charge.cost) := by
  induction charges generalizing fees with
  | nil => exact ⟨rfl, rfl⟩
  | cons charge charges ih =>
    obtain ⟨hquantities, hnatives⟩ := lookup_charge futures symbol fees charge asset
    rw [List.foldl_cons, (ih _).1, (ih _).2, hquantities, hnatives, List.filter_cons]
    by_cases h : charge.InOther futures symbol asset
    · rw [if_pos h, if_pos h, if_pos (decide_eq_true h), List.map_cons, List.map_cons, carried_cons, carried_cons]
      exact ⟨rfl, rfl⟩
    · rw [if_neg h, if_neg h, if_neg (fun hc => h (of_decide_eq_true hc))]
      exact ⟨rfl, rfl⟩

/-! ## What is known -/

/-- The trades of a filled order: their quantities and prices, and their commissions. -/
structure Joined (env : TextEnv) (world : World) (provider : Provider) (symbol orderId : String) (filled : ℚ) (known : Known)
    (lots : List (ℚ × ℚ)) (charges : List Charge) : Prop where
  /-- All the trades that the exchange has, less than a page, and each with an id of its own. -/
  trades : ∃ (answer : List Json) (rows : List Fields), world.binance 1 (tradesPath provider)
      [("symbol", .str symbol), ("orderId", .str orderId), ("limit", .int 1000)] = .ok (.arr answer) ∧ answer.length < 1000 ∧
    answer.mapM Json.fields = .ok rows ∧ TradeIds env (ownTrades env symbol orderId rows) ∧
    List.Forall₂ (fun row lot => lotOf env row = .ok lot) (ownTrades env symbol orderId rows) lots ∧
    List.Forall₂ (ChargeOf env world) (ownTrades env symbol orderId rows) charges
  quantity : ctxSum 28 (lots.map Prod.fst) = filled
  price : known.fillPrice = .computed (ctx 28 (ctxSum 28 (lots.map fun lot => ctx 28 (lot.1 * lot.2)) / filled))
  fee : known.feeNative = .computed (ctxSum 28 ((charges.filter fun charge => charge.Counted).map Charge.cost))
  base : known.baseCommissionQuantity =
    ctxSum 28 ((charges.filter fun charge => charge.InBase (provider = .binanceFutures) symbol).map Charge.fee)
  others : ∀ asset, known.externalCommissionQuantities.lookup asset =
      carried none ((charges.filter fun charge => charge.InOther (provider = .binanceFutures) symbol asset).map Charge.fee) ∧
    known.externalCommissionNative.lookup asset =
      carried none ((charges.filter fun charge => charge.InOther (provider = .binanceFutures) symbol asset).map Charge.cost)

/-- What a commission costs exactly. -/
def Charge.exactCost (charge : Charge) : ℚ := if charge.asset = "USDT" then charge.fee else charge.fee * charge.rate

/-- A price is the quotient of a total, to 28 digits. -/
def PriceOf (price : Amount) (total filled : ℚ) : Prop :=
  ∃ p, price = .computed p ∧ p = ctx 28 (total / filled) ∧ |p * filled - total| ≤ |total| * (10 : ℚ) ^ (-27 : ℤ) ∧
    (Fits 28 (total / filled) → p * filled = total)

/-- Where the products and the sums need no more than 28 digits, the sums are exact. -/
structure Exact (futures : Bool) (symbol : String) (filled : ℚ) (known : Known) (lots : List (ℚ × ℚ)) (charges : List Charge) : Prop where
  quantity : Unrounded (lots.map Prod.fst) → filled = (lots.map Prod.fst).sum
  price : (∀ lot ∈ lots, Fits 28 (lot.1 * lot.2)) → Unrounded (lots.map fun lot => lot.1 * lot.2) →
    PriceOf known.fillPrice (lots.map fun lot => lot.1 * lot.2).sum filled
  fee : (∀ charge ∈ charges, Fits 28 charge.exactCost) → Unrounded ((charges.filter fun charge => charge.Counted).map Charge.exactCost) →
    known.feeNative = .computed (charges.map Charge.exactCost).sum
  base : Unrounded ((charges.filter fun charge => charge.InBase futures symbol).map Charge.fee) →
    known.baseCommissionQuantity = ((charges.filter fun charge => charge.InBase futures symbol).map Charge.fee).sum
  others : ∀ asset, (charges.filter fun charge => charge.InOther futures symbol asset) ≠ [] →
    (∀ charge ∈ charges, Fits 28 charge.exactCost) →
    Unrounded ((charges.filter fun charge => charge.InOther futures symbol asset).map Charge.fee) →
    Unrounded ((charges.filter fun charge => charge.InOther futures symbol asset).map Charge.exactCost) →
    known.externalCommissionQuantities.lookup asset =
        some ((charges.filter fun charge => charge.InOther futures symbol asset).map Charge.fee).sum ∧
      known.externalCommissionNative.lookup asset =
        some ((charges.filter fun charge => charge.InOther futures symbol asset).map Charge.exactCost).sum

theorem priceOf_ctx {total filled : ℚ} (h : filled ≠ 0) : PriceOf (.computed (ctx 28 (total / filled))) total filled := by
  refine ⟨_, rfl, rfl, ?_, ?_⟩
  · have hclose := abs_ctx_sub_le 28 (total / filled)
    have hsplit : ctx 28 (total / filled) * filled - total = (ctx 28 (total / filled) - total / filled) * filled := by
      rw [sub_mul, div_mul_cancel₀ total h]
    have hsame : |total / filled| * |filled| = |total| := by
      rw [← abs_mul, div_mul_cancel₀ total h]
    calc |ctx 28 (total / filled) * filled - total|
        = |ctx 28 (total / filled) - total / filled| * |filled| := by rw [hsplit, abs_mul]
      _ ≤ |total / filled| * (10 : ℚ) ^ (1 - (28 : ℕ) : ℤ) * |filled| := mul_le_mul_of_nonneg_right hclose (abs_nonneg _)
      _ = |total| * (10 : ℚ) ^ (-27 : ℤ) := by
          rw [mul_right_comm, hsame]
          norm_num
  · intro hfits
    rw [ctx_of_fits hfits, div_mul_cancel₀ total h]

theorem cost_eq {charge : Charge} (h : Fits 28 charge.exactCost) : charge.cost = charge.exactCost := by
  rw [Charge.exactCost] at h ⊢
  rw [Charge.cost]
  split
  · rfl
  · next hother =>
    rw [if_neg hother] at h
    exact ctx_of_fits h

/-- A commission that is not counted costs nothing. -/
theorem sum_counted (charges : List Charge) :
    ((charges.filter fun charge => charge.Counted).map Charge.exactCost).sum = (charges.map Charge.exactCost).sum := by
  induction charges with
  | nil => rfl
  | cons charge charges ih =>
    rw [List.filter_cons]
    by_cases h : charge.Counted
    · rw [if_pos (decide_eq_true h), List.map_cons, List.sum_cons, ih, List.map_cons, List.sum_cons]
    · have hzero : charge.exactCost = 0 := by
        rw [Charge.Counted, not_or, not_not] at h
        rw [Charge.exactCost, if_neg h.1, h.2, zero_mul]
      rw [if_neg (fun hc => h (of_decide_eq_true hc)), ih, List.map_cons, List.sum_cons, hzero, zero_add]

/-- What is joined is exact where nothing is rounded. -/
theorem Joined.exact {provider : Provider} {orderId : String} {filled : ℚ} {known : Known} {lots : List (ℚ × ℚ)} {charges : List Charge}
    (h : Joined env world provider symbol orderId filled known lots charges) (hfilled : filled ≠ 0) :
    Exact (provider = .binanceFutures) symbol filled known lots charges := by
  have hcosts : ∀ p : Charge → Bool, (∀ charge ∈ charges, Fits 28 charge.exactCost) →
      (charges.filter p).map Charge.cost = (charges.filter p).map Charge.exactCost := by
    intro p hfits
    exact List.map_congr_left fun charge hcharge => cost_eq (hfits charge (List.mem_of_mem_filter hcharge))
  refine ⟨?_, ?_, ?_, ?_, ?_⟩
  · intro hsmall
    rw [← h.quantity, ctxSum_unrounded hsmall]
  · intro hfits hsmall
    have hproducts : (lots.map fun lot => ctx 28 (lot.1 * lot.2)) = lots.map fun lot => lot.1 * lot.2 :=
      List.map_congr_left fun lot hlot => ctx_of_fits (hfits lot hlot)
    rw [h.price, hproducts, ctxSum_unrounded hsmall]
    exact priceOf_ctx hfilled
  · intro hfits hsmall
    rw [h.fee, hcosts _ hfits, ctxSum_unrounded hsmall, sum_counted]
  · intro hsmall
    rw [h.base, ctxSum_unrounded hsmall]
  · intro asset hne hfits hquantities hnatives
    have hcarried : ∀ f : Charge → ℚ,
        carried none ((charges.filter fun charge => charge.InOther (provider = .binanceFutures) symbol asset).map f) =
          some (ctxSum 28 ((charges.filter fun charge => charge.InOther (provider = .binanceFutures) symbol asset).map f)) := by
      intro f
      rw [carried, if_neg (fun hnil => hne (List.map_eq_nil_iff.mp hnil))]
      rfl
    rw [(h.others asset).1, (h.others asset).2, hcarried, hcarried, hcosts _ hfits, ctxSum_unrounded hquantities, ctxSum_unrounded hnatives]
    exact ⟨rfl, rfl⟩

/-- The row that was read is the one of the claim. -/
structure Claimed (env : TextEnv) (provider : Provider) (claim : Fields) (symbol orderId : String) (raw : Fields) (known : Known) : Prop where
  symbol : raw.at "symbol" = .str symbol ∧ known.symbol = symbol
  id : known.brokerOrderId = env.str (raw.at "orderId") ∧ (orderId ≠ "" → known.brokerOrderId = orderId)
  side : isSome (claim.at "side") = true → claim.at "side" = .str known.side
  position : isSome (claim.at "positionSide") = true → (claim.at "positionSide").eq known.positionSide = true
  quantity : provider = .binanceFutures → isSome (claim.at "quantity") = true →
    ∃ quantity, positiveNumber env.toEnv (claim.at "quantity") = .ok quantity ∧ known.quantity = some quantity
  client : (expectedClient claim).truthy = true → expectedClient claim = .str known.clientOrderId
  lost : orderId = "" → ∃ side client, claim.at "status" = .str "UNKNOWN" ∧ claim.at "side" = .str side ∧ known.side = side ∧
    textOf env (claim.at "clientOrderId") = client ∧ isClientId client = true ∧ isSome (claim.at "positionSide") = true ∧
    isSome (claim.at "quantity") = true

/-- The trades of a filled order of Upbit. -/
structure JoinedFunds (env : TextEnv) (raw : Fields) (filled : ℚ) (known : Known) (volumes funds : List ℚ) : Prop where
  trades : ∃ (answer : List Json) (rows : List Fields), raw.at "trades" = .arr answer ∧ answer.mapM Json.fields = .ok rows ∧
    List.Forall₂ (fun row volume => number env.toEnv (row.at "volume") = .ok volume) rows volumes ∧
    List.Forall₂ (fun row fund => number env.toEnv (row.at "funds") = .ok fund) rows funds
  quantity : ctxSum 28 volumes = filled
  exact_quantity : Unrounded volumes → filled = volumes.sum
  price : known.fillPrice = .computed (ctx 28 (ctxSum 28 funds / filled))
  exact_price : Unrounded funds → PriceOf known.fillPrice funds.sum filled

/-- What is known of an order of Binance. -/
def BinanceTruth (env : TextEnv) (world : World) (provider : Provider) (claim : Fields) (symbol orderId : String) (known : Known) : Prop :=
  ∃ (query raw : Fields) (filled : ℚ), orderQuery env claim symbol orderId = .ok query ∧ world.binance 0 (orderPath provider) query = .ok (.obj raw) ∧
    Claimed env provider claim symbol orderId raw known ∧ number env.toEnv (executedOf raw) = .ok filled ∧
    known.filledQuantity = .computed filled ∧
    (filled ≠ 0 → ∃ lots charges, Joined env world provider symbol (env.str (raw.at "orderId")) filled known lots charges ∧
      Exact (provider = .binanceFutures) symbol filled known lots charges) ∧
    (filled = 0 → known.baseCommissionQuantity = 0 ∧ known.externalCommissionQuantities = [] ∧ known.externalCommissionNative = [])

/-- What is known of an order of Upbit. -/
def UpbitTruth (env : TextEnv) (world : World) (symbol orderId : String) (known : Known) : Prop :=
  ∃ (raw : Fields) (filled : ℚ), world.upbit [("uuid", .str orderId)] = .ok (.obj raw) ∧ env.str (raw.at "uuid") = orderId ∧
    raw.at "market" = .str symbol ∧
    (raw.at "uuid" = .str orderId → (raw.at "orderId").truthy = false → known.brokerOrderId = orderId) ∧
    ((raw.at "symbol").truthy = false → known.symbol = symbol) ∧
    number env.toEnv (executedOf raw) = .ok filled ∧ known.filledQuantity = .computed filled ∧
    (filled ≠ 0 → ∃ volumes funds, JoinedFunds env raw filled known volumes funds)

/-- What is known of an order of KIS: the only one of the day that has the id and the symbol. -/
def KisTruth (env : TextEnv) (world : World) (symbol orderId : String) (known : Known) : Prop :=
  ∃ (orders : List Fields) (ambiguous : List Json) (row : Fields), world.kis = .ok (orders, ambiguous) ∧ orders.filter (isKisMatch env symbol orderId) = [row] ∧
    (∀ id ∈ ambiguous, id.eq (.str orderId) = false) ∧ known.symbol = symbol ∧ known.brokerOrderId = orderId ∧
    known.filledQuantity = .said (.str (env.str (row.at "filled_quantity"))) ∧
    known.fillPrice = .said (.str (env.str (row.at "average_fill_price")))

/-- What is known of the order of a claim. -/
def TruthOf (env : TextEnv) (world : World) (route : Route) (claim : Fields) (known : Known) : Prop :=
  match route with
  | .binanceSpot => textOf env (claim.at "brokerOrderId") ≠ "" ∧
      BinanceTruth env world .binance claim (textOf env (claim.at "symbol")) (textOf env (claim.at "brokerOrderId")) known
  | .binanceUsdmFutures =>
      BinanceTruth env world .binanceFutures claim (textOf env (claim.at "symbol")) (textOf env (claim.at "brokerOrderId")) known
  | .upbitKrwSpot => textOf env (claim.at "brokerOrderId") ≠ "" ∧
      UpbitTruth env world (textOf env (claim.at "symbol")) (textOf env (claim.at "brokerOrderId")) known
  | .kisKrCash => textOf env (claim.at "brokerOrderId") ≠ "" ∧
      KisTruth env world (textOf env (claim.at "symbol")) (textOf env (claim.at "brokerOrderId")) known

end LiveTrader.ShortBroker.OrderTruth

namespace LiveTrader.ShortBroker.OrderTruth

open Lib Lib.Py Lib.Decimal

/-! ## The truth of an order is exact or unknown -/

variable {env : TextEnv} {world : World}

/-! ## Texts -/

theorem truthy_str {text : String} (h : text ≠ "") : (Json.str text).truthy = true := bne_iff_ne.mpr h

theorem textOf_str {text : String} : textOf env (.str text) = text := by
  by_cases h : text = ""
  · subst h
    rfl
  · rw [textOf, orElse_of_truthy (truthy_str h)]
    rfl

/-- A value that is an order id is not empty. -/
theorem truthy_of_id {value : Json} (h : isPositiveId (env.str value) = true) : value.truthy = true := by
  cases htruthy : value.truthy with
  | true => rfl
  | false =>
    have hrepr := env.repr_empty htruthy
    cases value with
    | str text =>
      have hempty : text = "" := by
        by_contra hne
        rw [truthy_str hne] at htruthy
        cases htruthy
      subst hempty
      cases h
    | null => rw [← h, ← hrepr]; rfl
    | bool b => rw [← h, ← hrepr]; rfl
    | int n => rw [← h, ← hrepr]; rfl
    | float q => rw [← h, ← hrepr]; rfl
    | arr items => rw [← h, ← hrepr]; rfl
    | obj fields => rw [← h, ← hrepr]; rfl

theorem isOneOf_eq_true {value : Json} {texts : List String} (h : value.isOneOf texts = .ok true) : ∃ text, value = .str text := by
  cases value with
  | str text => exact ⟨text, rfl⟩
  | arr items => cases h
  | obj fields => cases h
  | _ => cases h

theorem isSome_of_number {value : Json} {x : ℚ} (h : positiveNumber env.toEnv value = .ok x) : isSome value = true := by
  cases value with
  | null => cases h
  | _ => rfl

/-! ## Rows -/

/-- What the row of an order is flattened to. -/
theorem orderOf_eq_ok {row : Fields} {provider : Provider} {order : Known × ℚ} (h : orderOf env row provider = .ok order) :
    number env.toEnv (executedOf row) = .ok order.2 ∧ order.1.filledQuantity = .computed order.2 ∧
      order.1.symbol = textOf env ((row.at "symbol").orElse (row.at "market")) ∧
      order.1.brokerOrderId = textOf env ((row.at "orderId").orElse (row.at "uuid")) ∧
      order.1.baseCommissionQuantity = 0 ∧ order.1.externalCommissionQuantities = [] ∧ order.1.externalCommissionNative = [] := by
  simp only [orderOf, bind_eq_ok, pure_eq_ok] at h
  obtain ⟨filled, hfilled, quantity, -, remaining, -, rfl⟩ := h
  exact ⟨hfilled, rfl, rfl, rfl, rfl, rfl, rfl⟩

theorem checkClaim_eq_ok {provider : Provider} {claim : Fields} {known : Known} {u : Unit} (h : checkClaim env provider claim known = .ok u) :
    AgreesWith (claim.at "side") (.str known.side) ∧ AgreesWith (claim.at "positionSide") known.positionSide ∧
      ((expectedClient claim).truthy = true → (expectedClient claim).eq (.str known.clientOrderId) = true) ∧
      (provider = .binanceFutures → isSome (claim.at "quantity") = true →
        ∃ quantity, positiveNumber env.toEnv (claim.at "quantity") = .ok quantity ∧ known.quantity = some quantity) := by
  simp only [checkClaim, bind_eq_ok, require_eq_ok] at h
  obtain ⟨_, ⟨hside, hposition⟩, _, hclient, hquantity⟩ := h
  refine ⟨hside, hposition, hclient, ?_⟩
  intro hfutures hsome
  rw [checkQuantity, if_pos ⟨hfutures, hsome⟩] at hquantity
  simp only [bind_eq_ok, require_eq_ok] at hquantity
  exact hquantity

theorem lostQuery_eq_ok {claim query : Fields} {symbol : String} (h : lostQuery env claim symbol = .ok query) :
    (∃ side, claim.at "side" = .str side) ∧ (∃ position, claim.at "positionSide" = .str position) ∧ claim.at "status" = .str "UNKNOWN" ∧
      isClientId (textOf env (claim.at "clientOrderId")) = true ∧ isSome (claim.at "quantity") = true := by
  simp only [lostQuery, bind_eq_ok, require_eq_ok, pure_eq_ok] at h
  obtain ⟨side, hside, position, hposition, _, ⟨hstatus, hclient, rfl, rfl⟩, quantity, hquantity, -⟩ := h
  exact ⟨isOneOf_eq_true hside, isOneOf_eq_true hposition, Json.eq_str hstatus, hclient, isSome_of_number hquantity⟩

theorem joinTrades_eq_ok {provider : Provider} {symbol orderId : String} {known known' : Known} {filled : ℚ}
    (h : joinTrades env world provider symbol orderId known filled = .ok known') :
    ∃ (lots : List (ℚ × ℚ)) (charges : List Charge) (price native base : ℚ) (quantities natives : Dict String ℚ),
      known' = { known with
        fillPrice := .computed price
        feeNative := .computed native
        baseCommissionQuantity := base
        externalCommissionQuantities := quantities
        externalCommissionNative := natives } ∧
      Joined env world provider symbol orderId filled known' lots charges := by
  simp only [joinTrades, bind_eq_ok, orRaise_eq_ok, require_eq_ok, pure_eq_ok] at h
  obtain ⟨answer, hanswer, items, hitems, _, hlength, rows, hrows, _, hids, lots, hlots, _, hfilled, fees, hfees, rfl⟩ := h
  obtain ⟨charges, hcharges, rfl⟩ := addFees_eq_ok hfees
  have hitems : answer = .arr items := by
    cases answer with
    | arr found =>
      obtain rfl := Option.some.inj hitems
      rfl
    | _ => cases hitems
  subst hitems
  refine ⟨lots, charges, _, _, _, _, _, rfl, ⟨items, rows, hanswer, hlength, hrows, hids, mapM_eq_ok.mp hlots, hcharges⟩, hfilled, rfl, ?_, ?_, ?_⟩
  · exact congrArg Amount.computed (foldl_charge_native charges _)
  · exact foldl_charge_base charges _
  · intro asset
    exact foldl_charge_lookup charges _ asset

/-! ## Orders -/

theorem binanceOrder_eq_ok {provider : Provider} {claim : Fields} {symbol orderId : String} {known : Known} (hsymbol : symbol ≠ "")
    (h : binanceOrder env world provider claim symbol orderId = .ok known) :
    BinanceTruth env world provider claim symbol orderId known := by
  simp only [binanceOrder, bind_eq_ok, orRaise_eq_ok, require_eq_ok] at h
  obtain ⟨query, hquery, answer, hanswer, raw, hraw, _, ⟨hrawSymbol, hid, -, hpositive⟩, order, horder, _, hclaim, hjoined⟩ := h
  obtain rfl := Json.of_fields? hraw
  obtain ⟨hfilled, hamount, horderSymbol, horderId, hbase, hquantities, hnatives⟩ := orderOf_eq_ok horder
  obtain ⟨hside, hposition, hclient, hquantity⟩ := checkClaim_eq_ok hclaim
  have hrawSymbol := Json.eq_str hrawSymbol
  rw [hrawSymbol, orElse_of_truthy (truthy_str hsymbol), textOf_str] at horderSymbol
  have htruthy := truthy_of_id hpositive
  rw [orElse_of_truthy htruthy, textOf, orElse_of_truthy htruthy] at horderId
  have hclaimed : Claimed env provider claim symbol orderId raw order.1 := by
    refine ⟨⟨hrawSymbol, horderSymbol⟩, ⟨horderId, fun hne => horderId.trans (hid hne)⟩, fun hsome => Json.eq_str (hside hsome), hposition,
      hquantity, fun hexpected => Json.eq_str (hclient hexpected), ?_⟩
    intro hlost
    rw [orderQuery, if_neg (not_not.mpr hlost)] at hquery
    obtain ⟨⟨side, hclaimSide⟩, ⟨position, hclaimPosition⟩, hstatus, hclientId, hclaimQuantity⟩ := lostQuery_eq_ok hquery
    have hsame := Json.eq_str (hside (by rw [hclaimSide]; rfl))
    refine ⟨side, _, hstatus, hclaimSide, ?_, rfl, hclientId, by rw [hclaimPosition]; rfl, hclaimQuantity⟩
    rw [hclaimSide] at hsame
    exact (Json.str.inj hsame).symm
  split at hjoined
  · next hzero =>
    obtain rfl := pure_eq_ok.mp hjoined
    exact ⟨query, raw, order.2, hquery, hanswer, hclaimed, hfilled, hamount, fun hne => absurd hzero hne, fun _ => ⟨hbase, hquantities, hnatives⟩⟩
  · next hne =>
    obtain ⟨lots, charges, price, native, base, quantities, natives, rfl, hall⟩ := joinTrades_eq_ok hjoined
    refine ⟨query, raw, order.2, hquery, hanswer, ?_, hfilled, hamount, fun _ => ⟨lots, charges, hall, hall.exact hne⟩, fun hzero => absurd hzero hne⟩
    exact ⟨hclaimed.symbol, hclaimed.id, hclaimed.side, hclaimed.position, hclaimed.quantity, hclaimed.client, hclaimed.lost⟩

theorem upbitOrder_eq_ok {symbol orderId : String} {known : Known} (h : upbitOrder env world symbol orderId = .ok known) :
    UpbitTruth env world symbol orderId known := by
  simp only [upbitOrder, bind_eq_ok, orRaise_eq_ok, require_eq_ok, pure_eq_ok] at h
  obtain ⟨answer, hanswer, raw, hraw, _, ⟨huuid, hmarket⟩, order, horder, joined, hjoined, rfl⟩ := h
  obtain rfl := Json.of_fields? hraw
  obtain ⟨hfilled, hamount, hsymbol, horderId, -, -, -⟩ := orderOf_eq_ok horder
  have hmarket := Json.eq_str hmarket
  have hnamed : (raw.at "uuid" = .str orderId → (raw.at "orderId").truthy = false → order.1.brokerOrderId = orderId) ∧
      ((raw.at "symbol").truthy = false → order.1.symbol = symbol) := by
    constructor
    · intro hstr hfalsy
      rw [horderId, orElse_of_falsy hfalsy, hstr, textOf_str]
    · intro hfalsy
      rw [hsymbol, orElse_of_falsy hfalsy, hmarket, textOf_str]
  rw [joinIfFilled] at hjoined
  split at hjoined
  · next hzero =>
    obtain rfl := pure_eq_ok.mp hjoined
    exact ⟨raw, order.2, hanswer, huuid, hmarket, hnamed.1, hnamed.2, hfilled, hamount, fun hne => absurd hzero hne⟩
  · next hne =>
    simp only [joinFunds, bind_eq_ok, orRaise_eq_ok, require_eq_ok, pure_eq_ok] at hjoined
    obtain ⟨items, hitems, rows, hrows, volumes, hvolumes, _, hsum, funds, hfunds, rfl⟩ := hjoined
    have hitems : raw.at "trades" = .arr items := by
      cases htrades : raw.at "trades" with
      | arr found =>
        rw [htrades] at hitems
        obtain rfl := Option.some.inj hitems
        rfl
      | _ =>
        rw [htrades] at hitems
        cases hitems
    refine ⟨raw, order.2, hanswer, huuid, hmarket, hnamed.1, hnamed.2, hfilled, hamount, fun _ => ⟨volumes, funds,
      ⟨items, rows, hitems, hrows, mapM_eq_ok.mp hvolumes, mapM_eq_ok.mp hfunds⟩, hsum, ?_, rfl, ?_⟩⟩
    · intro hsmall
      rw [← hsum, ctxSum_unrounded hsmall]
    · intro hsmall
      rw [ctxSum_unrounded hsmall]
      exact priceOf_ctx hne

theorem kisOrder_eq_ok {symbol orderId : String} {known : Known} (h : kisOrder env world symbol orderId = .ok known) :
    KisTruth env world symbol orderId known := by
  simp only [kisOrder, bind_eq_ok] at h
  obtain ⟨⟨orders, ambiguous⟩, horders, h⟩ := h
  split at h
  · next row hmatch =>
    simp only [bind_eq_ok, require_eq_ok, pure_eq_ok, Fields.item, orRaise_eq_ok] at h
    obtain ⟨_, hclear, state, -, filled, hfilled, price, hprice, _, -, _, -, _, -, _, -, rfl⟩ := h
    refine ⟨orders, ambiguous, row, horders, hmatch, hclear, rfl, rfl, ?_, ?_⟩
    · rw [Fields.at, hfilled]
      rfl
    · rw [Fields.at, hprice]
      rfl
  · cases h

/-- The truth of an order is exact or unknown. -/
theorem order_truth_is_exact {route : Route} {claim : Fields} {known : Known} (h : getOrder env world route claim = .known known) :
    TruthOf env world route claim known := by
  have hread : readOrder env world route claim = .ok known := by
    rw [getOrder] at h
    cases hread : readOrder env world route claim with
    | error e =>
      rw [hread] at h
      cases h
    | ok order =>
      rw [hread] at h
      cases h
      rfl
  simp only [readOrder, bind_eq_ok, require_eq_ok] at hread
  obtain ⟨_, ⟨hsymbol, hid⟩, hread⟩ := hread
  cases route with
  | kisKrCash =>
    rcases hid with hid | hroute
    · exact ⟨hid, kisOrder_eq_ok hread⟩
    · cases hroute
  | upbitKrwSpot =>
    rcases hid with hid | hroute
    · exact ⟨hid, upbitOrder_eq_ok hread⟩
    · cases hroute
  | binanceSpot =>
    rcases hid with hid | hroute
    · exact ⟨hid, binanceOrder_eq_ok hsymbol hread⟩
    · cases hroute
  | binanceUsdmFutures => exact binanceOrder_eq_ok hsymbol hread

/-! ## Samples -/

/-- `Decimal(str(value))`, where it is finite. -/
def sampleNumber : Json → Option ℚ
  | .int n => some n
  | .str text =>
    match decimal? text with
    | some (.finite d) => some d.value
    | _ => none
  | _ => none

/-- `str` on what the samples have. -/
def numberText : Json → String
  | .int n => Int.repr n
  | _ => ""

theorem sample_repr_empty {value : Json} (h : value.truthy = false) : isPositiveId (numberText value) = false := by
  cases value with
  | int n =>
    obtain rfl : n = 0 := by
      by_contra hne
      have htruthy : (n != 0) = true := bne_iff_ne.mpr hne
      rw [show (Json.int n).truthy = (n != 0) from rfl, htruthy] at h
      cases h
    decide
  | _ => rfl

def TextEnv.sample : TextEnv where
  repr := numberText
  decimal := sampleNumber
  isdigit text := text.toList.all fun c => '0' ≤ c && c ≤ '9'
  repr_empty := sample_repr_empty

/-- An exchange with one order, its trades and a quote of BNB. -/
def sampleWorld (order trades : Json) : World where
  binance n _ _ :=
    if n = 0 then .ok order else if n = 1 then .ok trades
    else .ok (.obj [("symbol", .str "BNBUSDT"), ("price", .str "600")])
  upbit _ := .ok order
  kis := .error (.value "no order")

def sampleClaim (symbol brokerOrderId : String) : Fields := [("brokerOrderId", .str brokerOrderId), ("symbol", .str symbol)]

def sampleOrder (client : String) : Json :=
  .obj [("symbol", .str "BTCUSDT"), ("orderId", .int 1), ("clientOrderId", .str client), ("side", .str "BUY"), ("positionSide", .str "BOTH"),
    ("status", .str "FILLED"), ("origQty", .str "0.01"), ("executedQty", .str "0.01"), ("price", .str "1000")]

def sampleTrades (asset : String) : Json :=
  .arr [.obj [("id", .int 100), ("symbol", .str "BTCUSDT"), ("orderId", .int 1), ("qty", .str "0.01"), ("price", .str "1000"),
    ("commission", .str "0.001"), ("commissionAsset", .str asset)]]

def sampleUpbit (executed volume : String) (trades : List (String × String)) : Json :=
  .obj [("uuid", .str "u-1"), ("market", .str "KRW-BTC"), ("state", .str "wait"), ("side", .str "bid"), ("volume", .str volume),
    ("executed_volume", .str executed),
    ("trades", .arr (trades.map fun trade => .obj [("volume", .str trade.1), ("funds", .str trade.2)]))]

/-- The number of an amount that is computed. -/
def Amount.value? : Amount → Option ℚ
  | .said _ => none
  | .computed value => some value

theorem getOrder_of_read {route : Route} {claim : Fields} {known : Known} (h : readOrder env world route claim = .ok known) :
    getOrder env world route claim = .known known := by
  rw [getOrder, h]

/-- A spot order with a commission in BNB is known, and joined. -/
theorem order_truth_is_exact_sample :
    ∃ known, TruthOf TextEnv.sample (sampleWorld (sampleOrder "short-client-001") (sampleTrades "BNB")) .binanceSpot
        (sampleClaim "BTCUSDT" "1") known ∧
      known.feeNative.value? = some (3 / 5) ∧ known.externalCommissionQuantities = [("BNB", 1 / 1000)] := by
  obtain ⟨known, hread, hfacts⟩ : ∃ known, readOrder TextEnv.sample (sampleWorld (sampleOrder "short-client-001") (sampleTrades "BNB"))
      .binanceSpot (sampleClaim "BTCUSDT" "1") = .ok known ∧
      known.feeNative.value? = some (3 / 5) ∧ known.externalCommissionQuantities = [("BNB", 1 / 1000)] := by decide +kernel
  exact ⟨known, order_truth_is_exact (getOrder_of_read hread), hfacts⟩

/-- A claim of a future whose reply was lost, of an execution that was reported. -/
def lostClaim : Fields :=
  [("symbol", .str "BTCUSDT"), ("clientOrderId", .str "original"), ("status", .str "UNKNOWN"), ("side", .str "BUY"),
    ("positionSide", .str "BOTH"), ("quantity", .str "0.01"), ("externalExecution", .bool true)]

theorem known_of_read {route : Route} {claim : Fields} {P : Known → Prop} (h : ∃ known, readOrder env world route claim = .ok known ∧ P known) :
    ∃ known, getOrder env world route claim = .known known ∧ P known := by
  obtain ⟨known, hread, hfacts⟩ := h
  exact ⟨known, getOrder_of_read hread, hfacts⟩

/-- What is known but not joined: the trades of an order that says it is not filled; the funds, where the price is a quotient; volumes whose
sum has more than 28 digits; the commission of a future in a third asset; and the client id of an execution that was reported. -/
theorem known_but_not_joined :
    (∃ known, getOrder TextEnv.sample (sampleWorld (sampleUpbit "0" "3" [("3", "5")]) .null) .upbitKrwSpot (sampleClaim "KRW-BTC" "u-1") =
      .known known ∧ known.filledQuantity.value? = some 0) ∧
    (∃ known, getOrder TextEnv.sample (sampleWorld (sampleUpbit "3" "3" [("3", "10")]) .null) .upbitKrwSpot (sampleClaim "KRW-BTC" "u-1") =
      .known known ∧ known.filledQuantity.value? = some 3 ∧ (known.fillPrice.value?.map fun price => price * 3) ≠ some 10) ∧
    (∃ known, getOrder TextEnv.sample (sampleWorld (sampleUpbit "1e30" "1e30" [("1e30", "5"), ("1", "5")]) .null) .upbitKrwSpot
      (sampleClaim "KRW-BTC" "u-1") = .known known ∧ known.filledQuantity.value? = some (10 ^ 30)) ∧
    (∃ known, getOrder TextEnv.sample (sampleWorld (sampleOrder "short-client-001") (sampleTrades "BNB")) .binanceUsdmFutures
      (sampleClaim "BTCUSDT" "1") = .known known ∧ known.feeNative.value? = some (3 / 5) ∧ known.externalCommissionQuantities = []) ∧
    ∃ known, getOrder TextEnv.sample (sampleWorld (sampleOrder "another") (sampleTrades "USDT")) .binanceUsdmFutures lostClaim = .known known ∧
      known.clientOrderId = "another" := by
  refine ⟨known_of_read ?_, known_of_read ?_, known_of_read ?_, known_of_read ?_, known_of_read ?_⟩ <;> decide +kernel

end LiveTrader.ShortBroker.OrderTruth
