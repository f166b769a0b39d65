/-
# `CleanupTruth.Project` — the orders a stop has to account for, in the lists of the broker

An order of the session comes with the dispatch that sent it, and every field of it is compared with what was dispatched and with the scope
of the capital before any row of the broker is looked at.  No two orders of a set claim the same official order.

`_project` looks an owned order up in the list of working orders and in the history of its day.  The history decides, and a missing
working row is terminal only where the history accounts for every share.
-/
import LiveTrader.Lib.DecimalText
import LiveTrader.Lib.UtcText

namespace LiveTrader.CleanupTruth

open Lib Lib.Py

/-- The functions of the language and of other packages; a time is a number of microseconds. -/
structure Env extends Codec where
  /-- `canonical_hash`. -/
  canonicalHash : Json → String
  /-- `Decimal(value)`, where it is finite. -/
  decimal : Json → Option ℚ
  /-- `text`. -/
  decimalText : ℚ → String
  /-- `datetime.fromisoformat(value.replace("Z", "+00:00"))`, with a zone. -/
  parseTime : Json → Option ℤ
  /-- What `isoformat()` writes is read as the time. -/
  parse_iso : ∀ time : Utc, parseTime (.str time.isoformat) = some (time.micros : ℤ)
  /-- The day at a venue. -/
  marketDate : ℤ → String → String
  /-- `parsedate_to_datetime`, of a text that `format_datetime(…, usegmt=True)` gives back. -/
  httpDate : String → Option ℤ

/-- `_fail`. -/
def cleanup (reason : String) : Error := .value ("KIS_CLEANUP_" ++ reason)

/-- `VENUES`, with their currencies. -/
def venues : List (String × String) := [("KRX", "KRW"), ("NASD", "USD"), ("NYSE", "USD"), ("AMEX", "USD")]

/-- `d`, without some keys. -/
def without (d : Fields) (keys : List String) : Fields := d.filter fun entry => !keys.contains entry.1

/-- A dictionary has exactly these keys. -/
def HasKeys (d : Fields) (keys : List String) : Prop := (∀ entry ∈ d, entry.1 ∈ keys) ∧ ∀ key ∈ keys, key ∈ d.map Prod.fst

instance (d : Fields) (keys : List String) : Decidable (HasKeys d keys) := inferInstanceAs (Decidable (_ ∧ _))

/-! ## Texts -/

def isDigit (c : Char) : Bool := '0' ≤ c && c ≤ '9'

/-- `_date`. -/
def IsDate (text : String) : Prop :=
  text.toList.length = 8 ∧ (∀ c ∈ text.toList, isDigit c = true) ∧
    let year := ofDigits ((text.toList.take 4).filterMap digit?)
    let month := ofDigits (((text.toList.drop 4).take 2).filterMap digit?)
    let day := ofDigits ((text.toList.drop 6).filterMap digit?)
    1 ≤ year ∧ 1 ≤ month ∧ month ≤ 12 ∧ 1 ≤ day ∧ day ≤ daysInMonth year month

instance (text : String) : Decidable (IsDate text) :=
  @instDecidableAnd _ _ inferInstance (@instDecidableAnd _ _ (decideMembers _ _) (inferInstanceAs (Decidable (_ ∧ _ ∧ _ ∧ _ ∧ _))))

/-- The number that `_QUANTITY` matches. -/
def quantity? (text : String) : Option ℚ :=
  let whole := text.toList.takeWhile isDigit
  if ¬(1 ≤ whole.length ∧ whole.length ≤ 24) then none
  else
    match text.toList.dropWhile isDigit with
    | [] => some (ofDigits (whole.filterMap digit?))
    | '.' :: frac =>
      if 1 ≤ frac.length ∧ frac.length ≤ 16 ∧ frac.all isDigit = true then
        some (ofDigits ((whole ++ frac).filterMap digit?) / 10 ^ frac.length)
      else none
    | _ => none

/-- `_whole`: a number of shares. -/
def whole (value : Json) (positive : Bool) : Result ℕ :=
  match value with
  | .str text => do
    let amount ← orRaise (cleanup "DECIMAL_WHOLE_QUANTITY_REQUIRED") (quantity? text)
    require (amount.den = 1 ∧ (positive = true → 0 < amount)) (cleanup "DECIMAL_WHOLE_QUANTITY_REQUIRED")
    pure amount.num.toNat
  | _ => .error (cleanup "DECIMAL_WHOLE_QUANTITY_REQUIRED")

/-! ## Owned orders -/

/-- `_BASE`. -/
def baseKeys : List String :=
  ["dispatchKey", "runtimeScopeId", "sessionId", "accountFingerprint", "credentialConfigurationHash", "deploymentId", "market", "currency",
    "symbol", "side", "orderDate", "organizationNo", "orderNo", "venue", "originalQuantity", "businessHash", "dispatchHash", "dispatch"]

/-- An order of the session, with its texts and its dispatch. -/
structure Owned where
  raw : Fields
  dispatchKey : String
  runtimeScopeId : String
  sessionId : String
  accountFingerprint : String
  credentialConfigurationHash : String
  deploymentId : String
  market : String
  currency : String
  symbol : String
  side : String
  orderDate : String
  organizationNo : String
  orderNo : String
  venue : String
  /-- `originalQuantity`, which is the text of this number. -/
  quantity : ℕ
  businessHash : String
  dispatchHash : String
  dispatch : Fields
  /-- `dispatch["metadata"]`. -/
  metadata : Fields
  /-- `metadata["native_quantity_model"]`. -/
  ticket : Fields

section owned

variable (env : Env)

/-- A text of a row, of 512 characters at most. -/
def rowText (row : Fields) (key : String) : Result String :=
  match row.at key with
  | .str text => do
    require (text ≠ "" ∧ text.toList.length ≤ 512) (cleanup "OWNERSHIP_VALUE_INVALID")
    pure text
  | _ => .error (cleanup "OWNERSHIP_VALUE_INVALID")

/-- Every entry that is named has its value. -/
def agrees (d : Fields) (entries : Fields) : Bool := entries.all fun entry => (d.at entry.1).eq entry.2

/-- The values of a dictionary but its `contentHash`. -/
def sealed (d : Fields) : Json := .obj (without d ["contentHash"])

/-- `checked(payload, RESULT)`. -/
def checkedResult (payload : Json) : Result Fields := do
  let d ← orRaise (.value "KIS_V2_SEAL_OR_VERSION_INVALID") payload.fields?
  require ((d.at "version").eq (.str "kis-equity-operational-quantity-v2") = true ∧
    (d.at "contentHash").eq (.str (env.sha256 (sealed d))) = true) (.value "KIS_V2_SEAL_OR_VERSION_INVALID")
  pure d

/-- `dispatch_business_hash`. -/
def dispatchBusinessHash (dispatch : Fields) : String :=
  env.canonicalHash (.obj (without dispatch ["order_date", "broker_order_key", "broker_order_identity_verified", "order_date_source",
    "broker_order_identity_receipt_hash"]))

/-- Six digits in Korea, capitals with dots and dashes in the United States. -/
def isSymbol (market symbol : String) : Bool :=
  if market = "KR" then isNumeral 6 6 symbol
  else
    match symbol.toList with
    | first :: rest => ('A' ≤ first && first ≤ 'Z') && rest.length ≤ 9 && rest.all fun c => ('A' ≤ c && c ≤ 'Z') || c = '.' || c = '-'
    | [] => false

/-- The texts of a row, before they are compared with anything. -/
def readOwned (row : Json) : Result Owned := do
  let raw ← orRaise (cleanup "EXACT_OWNERSHIP_FIELDS_REQUIRED") row.fields?
  require (HasKeys raw baseKeys) (cleanup "EXACT_OWNERSHIP_FIELDS_REQUIRED")
  let dispatchKey ← rowText raw "dispatchKey"
  let runtimeScopeId ← rowText raw "runtimeScopeId"
  let sessionId ← rowText raw "sessionId"
  let accountFingerprint ← rowText raw "accountFingerprint"
  let credentialConfigurationHash ← rowText raw "credentialConfigurationHash"
  let deploymentId ← rowText raw "deploymentId"
  let market ← rowText raw "market"
  let currency ← rowText raw "currency"
  let symbol ← rowText raw "symbol"
  let side ← rowText raw "side"
  let orderDate ← rowText raw "orderDate"
  let organizationNo ← rowText raw "organizationNo"
  let orderNo ← rowText raw "orderNo"
  let venue ← rowText raw "venue"
  let originalQuantity ← rowText raw "originalQuantity"
  let businessHash ← rowText raw "businessHash"
  let dispatchHash ← rowText raw "dispatchHash"
  let quantity ← whole (raw.at "originalQuantity") true
  require (originalQuantity = Nat.repr quantity) (cleanup "CANONICAL_ORIGINAL_QUANTITY_REQUIRED")
  let dispatch ← orRaise (cleanup "IMMUTABLE_DISPATCH_HASH_CHANGED") (raw.at "dispatch").fields?
  let metadata ← orRaise (cleanup "DISPATCH_METADATA_REQUIRED") (dispatch.at "metadata").fields?
  let ticket ← checkedResult env (metadata.at "native_quantity_model")
  pure
    { raw, dispatchKey, runtimeScopeId, sessionId, accountFingerprint, credentialConfigurationHash, deploymentId, market, currency, symbol,
      side, orderDate, organizationNo, orderNo, venue, quantity, businessHash, dispatchHash, dispatch, metadata, ticket }

/-- The texts of a row are those of an order at a venue. -/
def checkIdentity (row : Owned) : Result Unit := do
  require (isHash row.accountFingerprint = true ∧ isHash row.credentialConfigurationHash = true ∧ isHash row.businessHash = true ∧
    isHash row.dispatchHash = true) (cleanup "OWNERSHIP_HASH_INVALID")
  require (venues.lookup row.venue = some row.currency ∧ row.market = (if row.venue = "KRX" then "KR" else "US") ∧
    row.side ∈ ["BUY", "SELL"]) (cleanup "EXACT_MARKET_CURRENCY_VENUE_REQUIRED")
  require (isSymbol row.market row.symbol = true) (cleanup "EXACT_SYMBOL_REQUIRED")
  require (IsDate row.orderDate) (cleanup "OFFICIAL_DATE_REQUIRED")
  require (isNumeral 1 16 row.organizationNo = true ∧ isNumeral 1 16 row.orderNo = true) (cleanup "EXACT_OFFICIAL_ORDER_KEY_REQUIRED")

/-- The dispatch is the one that sent this order. -/
def checkDispatch (row : Owned) : Result Unit := do
  require (env.sha256 (.obj row.dispatch) = row.dispatchHash) (cleanup "IMMUTABLE_DISPATCH_HASH_CHANGED")
  require (dispatchBusinessHash env row.dispatch = row.businessHash) (cleanup "IMMUTABLE_DISPATCH_BUSINESS_HASH_CHANGED")
  require (agrees row.dispatch
    [("broker_id", .str "kis"), ("idempotency_key", .str row.dispatchKey), ("symbol", .str row.symbol), ("side", .str row.side),
      ("order_date_source", .str "OFFICIAL_ORDER_QUERY_EXACT_COMPOSITE_IDENTITY"), ("order_date", .str row.orderDate),
      ("organization_no", .str row.organizationNo), ("broker_order_id", .str row.orderNo),
      ("broker_order_key", .str (":".intercalate [row.orderDate, row.organizationNo, row.orderNo]))] = true ∧
    (row.dispatch.at "broker_order_identity_verified").isTrue = true) (cleanup "DURABLE_VERIFIED_IDENTITY_REQUIRED")

/-- The ticket and the scope are those of the order. -/
def checkScope (scope : Fields) (row : Owned) : Result Unit :=
  require (agrees row.metadata
      [("deployment_id", .str row.deploymentId), ("runtime_scope_id", .str row.runtimeScopeId),
        ("native_account_fingerprint", .str row.accountFingerprint)] = true ∧
    agrees row.ticket
      [("accountFingerprint", .str row.accountFingerprint), ("credentialConfigurationHash", .str row.credentialConfigurationHash),
        ("exchange", .str row.venue), ("currency", .str row.currency), ("deploymentId", .str row.deploymentId),
        ("sourceArtifactHash", row.metadata.at "source_artifact_hash"), ("symbol", .str row.symbol), ("side", .str row.side),
        ("capitalScopeHash", scope.at "scopeHash"), ("quantity", .str (Nat.repr row.quantity))] = true ∧
    agrees scope
      [("deploymentId", .str row.deploymentId), ("accountFingerprint", .str row.accountFingerprint),
        ("credentialConfigurationHash", .str row.credentialConfigurationHash), ("quoteCurrency", .str row.currency)] = true)
    (cleanup "DISPATCH_ACCOUNT_SOURCE_SCOPE_CHANGED")

/-- The order's entry among the members of the scope. -/
def memberOf (row : Owned) : Fields :=
  [("strategyInstanceId", row.metadata.at "strategy_instance_id"), ("sourceArtifactHash", row.metadata.at "source_artifact_hash"),
    ("portfolioHash", row.metadata.at "portfolio_hash"), ("symbol", .str row.symbol), ("quoteCurrency", .str row.currency)]

def checkMember (members : List Json) (row : Owned) : Result Unit :=
  require ((memberOf row).all (fun entry => entry.2.truthy) = true ∧ members.countP (fun item => item.eq (.obj (memberOf row))) = 1)
    (cleanup "DISPATCH_CANONICAL_MEMBER_CHANGED")

/-- Every check of one order. -/
def checkOwned (scope : Fields) (members : List Json) (row : Owned) : Result Unit := do
  checkIdentity row
  checkDispatch env row
  checkScope scope row
  checkMember members row

/-- The official order that an order claims. -/
def Owned.identity (row : Owned) : String × String × String × String × String :=
  (row.orderDate, row.organizationNo, row.orderNo, row.venue, row.symbol)

/-- The runtime that sent an order. -/
def Owned.runtime (row : Owned) : String × String × String := (row.runtimeScopeId, row.sessionId, row.deploymentId)

/-- The scope of the capital, sealed by its hash. -/
def checkedScope (scope : Json) : Result Fields := do
  let scope ← orRaise (cleanup "NATIVE_SCOPE_HASH_INVALID") scope.fields?
  require ((scope.at "version").eq (.str "kis-owned-capital-v2") = true ∧
    (scope.at "scopeHash").eq (.str (env.sha256 (.obj (without scope ["scopeHash"])))) = true) (cleanup "NATIVE_SCOPE_HASH_INVALID")
  pure scope

/-- `_owned`; that a dispatch key is not repeated is checked once the rows are read. -/
def ownedOrders (orders scope : Json) : Result (List Owned) := do
  let rows ← orRaise (cleanup "BOUNDED_NONEMPTY_OWNED_SET_REQUIRED") orders.items?
  require (1 ≤ rows.length ∧ rows.length ≤ 64) (cleanup "BOUNDED_NONEMPTY_OWNED_SET_REQUIRED")
  let scope ← checkedScope env scope
  let members ← orRaise (cleanup "NATIVE_MEMBERS_REQUIRED") (scope.at "members").items?
  let owned ← rows.mapM (readOwned env)
  let _ ← owned.mapM (checkOwned env scope members)
  require (owned.map Owned.dispatchKey).Nodup (cleanup "DUPLICATE_OWNED_DISPATCH")
  require (owned.map Owned.identity).Nodup (cleanup "DUPLICATE_OFFICIAL_OWNERSHIP")
  require (∀ row ∈ owned, ∀ other ∈ owned, row.runtime = other.runtime) (cleanup "MIXED_RUNTIME_SESSION")
  pure owned

end owned

/-! ## One order in the two lists of the broker -/

section project

variable (env : Env)

/-- `str(raw.get(key) or "")`. -/
def textAt (raw : Fields) (key : String) : String := env.toCodec.text (raw.at key)

/-! ## Official rows -/

/-- A row has the branch and the number of an order. -/
def Carries (row : Owned) (raw : Fields) : Prop :=
  textAt env raw "ord_gno_brno" = row.organizationNo ∧ textAt env raw "odno" = row.orderNo

instance (row : Owned) (raw : Fields) : Decidable (Carries env row raw) := inferInstanceAs (Decidable (_ ∧ _))

/-- `_matching`. -/
def matching (rows : List Fields) (row : Owned) : Result (Option Fields) :=
  match rows.filter fun raw => Carries env row raw with
  | [] => pure none
  | [raw] => pure (some raw)
  | _ => .error (cleanup "AMBIGUOUS_OFFICIAL_COMPOSITE_IDENTITY")

/-- The code of a side. -/
def sideCode (side : String) : String := if side = "BUY" then "02" else "01"

/-- `_official_identity`. -/
def officialIdentity (raw : Fields) (row : Owned) (history : Bool) : Result Unit := do
  require (Carries env row raw ∧ textAt env raw "pdno" = row.symbol) (cleanup "OFFICIAL_COMPOSITE_IDENTITY_MISMATCH")
  require (history = true ∨ row.market = "US" → textAt env raw "ord_dt" = row.orderDate) (cleanup "OFFICIAL_DATE_MISMATCH")
  require ((raw.at "sll_buy_dvsn_cd").eq (.str (sideCode row.side)) = true) (cleanup "OFFICIAL_SIDE_MISMATCH")
  if row.market = "US" then
    require ((raw.at "ovrs_excg_cd").eq (.str row.venue) = true ∧ (raw.at "tr_crcy_cd").eq (.str "USD") = true)
      (cleanup "OFFICIAL_VENUE_CURRENCY_MISMATCH")
  else do
    require ((raw.at "excg_id_dvsn_cd").eq (.str "KRX") = true) (cleanup "OFFICIAL_KRX_EXCHANGE_REQUIRED")
    require (textAt env raw "loan_dt" ∈ ["", "00000000"]) (cleanup "CASH_EQUITY_ONLY")

/-- What a row says of the shares of an order. -/
structure Shares where
  ordered : ℕ
  filled : ℕ
  remaining : ℕ
  deriving DecidableEq

/-- The field of the shares that are left. -/
def remainingKey (market : String) (history : Bool) : String :=
  if market = "KR" then if history then "rmn_qty" else "psbl_qty" else "nccs_qty"

/-- `_quantities`. -/
def quantities (raw : Fields) (row : Owned) (history : Bool) : Result Shares := do
  let ordered ← whole (raw.at (if row.market = "KR" then "ord_qty" else "ft_ord_qty")) true
  let filled ← whole (raw.at (if row.market = "KR" then "tot_ccld_qty" else "ft_ccld_qty")) false
  let remaining ← whole (raw.at (remainingKey row.market history)) false
  require (ordered = row.quantity ∧ filled ≤ ordered) (cleanup "OFFICIAL_ORDER_QUANTITY_MISMATCH")
  require (remaining ≤ ordered) (cleanup "OFFICIAL_REMAINING_QUANTITY_INVALID")
  pure ⟨ordered, filled, remaining⟩

/-- `_gross_notional`. -/
def grossNotional (raw : Fields) (row : Owned) (filled : ℕ) : Result ℚ :=
  match raw.at (if row.market = "KR" then "tot_ccld_amt" else "ft_ccld_amt3") with
  | .str text => do
    let amount ← orRaise (cleanup "OFFICIAL_GROSS_NOTIONAL_REQUIRED") (quantity? text)
    require (filled = 0 ↔ amount = 0) (cleanup "OFFICIAL_FILL_NOTIONAL_CONTRADICTION")
    pure amount
  | _ => .error (cleanup "OFFICIAL_GROSS_NOTIONAL_REQUIRED")

/-! ## The receipt -/

/-- The field of a number of shares at home or abroad. -/
def domesticKey (domestic : Bool) (home abroad : String) : String := if domestic then home else abroad

/-- The rest of an order that was not filled is accounted for. -/
def checkUnfilled (domestic : Bool) (official : Fields) (quantity ordered : ℚ) : Result Unit :=
  if quantity = ordered then pure ()
  else if domestic then do
    let canceled ← decimalValue env.toCodec (official.at "cnc_cfrm_qty") "confirmed cancel quantity" false
    let rejected ← decimalValue env.toCodec (official.at "rjct_qty") "rejected quantity" false
    require (quantity + canceled + rejected = ordered) (.value "KIS_OWNED_DOMESTIC_TERMINAL_ACCOUNTING_INCOMPLETE")
  else
    require (strip (textAt env official "prcs_stat_name") ∈ ["취소", "취소완료", "거부", "주문거부"])
      (.value "KIS_OWNED_US_TERMINAL_STATUS_UNPROVEN")

/-- The receipt of an order of which something was filled. -/
def receiptOf (scope : Fields) (row : Owned) (official : Fields) (key : List String) (quantity : ℚ) : Result Fields := do
  require (isNumeral 6 6 (textAt env official "ord_tmd") = true) (.value "KIS_OWNED_OFFICIAL_ORDER_TIME_REQUIRED")
  let exchange ← row.ticket.item "exchange"
  let notional ← decimalValue env.toCodec
    (official.at (domesticKey (exchange.eq (.str "KRX")) "tot_ccld_amt" "ft_ccld_amt3")) "official fill amount" true
  let minimum ← row.ticket.item "minimumCostReserve"
  let minimum ← decimalValue env.toCodec minimum "minimum reserve" false
  let rate ← row.ticket.item "costReserveRate"
  let rate ← decimalValue env.toCodec rate "cost bound" false
  let account ← scope.item "accountFingerprint"
  let currency ← row.ticket.item "currency"
  pure
    [("eventKey", .str ("kis:" ++ env.str account ++ ":" ++ env.str exchange ++ ":" ++ ":".intercalate key)),
      ("deploymentId", scope.at "deploymentId"), ("strategyInstanceId", row.metadata.at "strategy_instance_id"), ("symbol", .str row.symbol),
      ("side", row.dispatch.at "side"), ("quantity", .str (env.decimalText quantity)), ("filledNotional", .str (env.decimalText notional)),
      ("costReserve", .str (env.decimalText (max minimum (notional * rate)))), ("currency", currency), ("accountFingerprint", account),
      ("terminalVerified", .bool true), ("actualFeeObserved", .bool false),
      ("costAccounting", .str "CONSERVATIVE_RESERVE_NOT_ACTUAL_FEE"), ("orderDate", .str (textAt env row.dispatch "order_date")),
      ("orderTime", .str (textAt env official "ord_tmd")), ("orderNo", .str (textAt env row.dispatch "broker_order_id")),
      ("receiptHash", .str (env.sha256 (.obj official)))]

/-- `terminal_receipt`, of an owned order with its strategy. -/
def terminalReceipt (scope : Fields) (row : Owned) (official : Fields) : Result (Option Fields) := do
  let key := ["order_date", "organization_no", "broker_order_id"].map (textAt env row.dispatch)
  require (isNumeral 8 8 (textAt env row.dispatch "order_date") = true ∧ isNumeral 1 16 (textAt env row.dispatch "organization_no") = true ∧
    isNumeral 1 16 (textAt env row.dispatch "broker_order_id") = true) (.value "KIS_OWNED_EXACT_BROKER_ACK_KEY_REQUIRED")
  require (agrees row.metadata
      [("deployment_id", scope.at "deploymentId"), ("strategy_instance_id", row.metadata.at "strategy_instance_id"),
        ("source_artifact_hash", row.metadata.at "source_artifact_hash"), ("portfolio_hash", row.metadata.at "portfolio_hash"),
        ("native_account_fingerprint", scope.at "accountFingerprint")] = true ∧
    (row.ticket.at "accountFingerprint").eq (scope.at "accountFingerprint") = true) (.value "KIS_OWNED_EXACT_PERSISTED_DISPATCH_REQUIRED")
  require (env.str (official.at "ord_dt") = textAt env row.dispatch "order_date" ∧
    env.str (official.at "ord_gno_brno") = textAt env row.dispatch "organization_no" ∧
    env.str (official.at "odno") = textAt env row.dispatch "broker_order_id" ∧ (official.at "pdno").eq (.str row.symbol) = true ∧
    (official.at "sll_buy_dvsn_cd").eq (.str (if (row.dispatch.at "side").eq (.str "BUY") then "02" else "01")) = true)
    (.value "KIS_OWNED_OFFICIAL_COMPOSITE_ORDER_KEY_MISMATCH")
  let exchange ← row.ticket.item "exchange"
  require (exchange.eq (.str "KRX") = true ∨
    ((official.at "ovrs_excg_cd").eq exchange = true ∧ (official.at "tr_crcy_cd").eq (.str "USD") = true))
    (.value "KIS_OWNED_OFFICIAL_VENUE_CURRENCY_CHANGED")
  let domestic := exchange.eq (.str "KRX")
  let quantity ← decimalValue env.toCodec (official.at (domesticKey domestic "tot_ccld_qty" "ft_ccld_qty")) "actual total fill quantity" false
  let ordered ← decimalValue env.toCodec (official.at (domesticKey domestic "ord_qty" "ft_ord_qty")) "official order quantity" true
  let remaining ← decimalValue env.toCodec (official.at (domesticKey domestic "rmn_qty" "nccs_qty")) "official remaining quantity" false
  let ticketed ← row.ticket.item "quantity"
  let ticketed ← decimalValue env.toCodec ticketed "ticket quantity" false
  require (ordered = ticketed ∧ quantity ≤ ordered ∧ remaining = 0) (.value "KIS_OWNED_ORDER_NOT_TERMINAL_OR_SCOPE_CHANGED")
  checkUnfilled env domestic official quantity ordered
  if quantity = 0 then pure none
  else do
    let receipt ← receiptOf env scope row official key quantity
    pure (some receipt)

/-! ## `_project` -/

inductive Standing where
  | working
  | terminal
  deriving DecidableEq

/-- What was found of an order. -/
structure Projection where
  row : Owned
  standing : Standing
  shares : Shares
  working : Option Fields
  history : Fields
  /-- The order is of an earlier day, and terminal. -/
  historicalOnly : Bool
  receipt : Option Fields

/-- The day of an order is over. -/
def Historical (row : Owned) (observedAt : ℤ) : Prop := row.orderDate < env.marketDate observedAt row.venue

instance (row : Owned) (observedAt : ℤ) : Decidable (Historical env row observedAt) := inferInstanceAs (Decidable (_ < _))

/-- `_date(r.get("ord_dt")) == owned["orderDate"]`, over the rows. -/
def originalDay (row : Owned) : List Fields → Result (List Fields)
  | [] => pure []
  | raw :: rows =>
    match raw.at "ord_dt" with
    | .str day => do
      require (IsDate day) (cleanup "OFFICIAL_DATE_REQUIRED")
      let others ← originalDay row rows
      pure (if day = row.orderDate then raw :: others else others)
    | _ => .error (cleanup "OFFICIAL_DATE_REQUIRED")

/-- The working row of an order.  The list of Korea has no days: a number of an earlier day may have been given again. -/
def workingRow (row : Owned) (rows : List Fields) (remaining : ℕ) (observedAt : ℤ) : Result (Option Fields) :=
  if Historical env row observedAt ∧ remaining = 0 then
    if row.market = "KR" then pure none
    else do
      let ofDay ← originalDay row (rows.filter fun raw => Carries env row raw)
      matching env ofDay row
  else matching env rows row

/-- The average price of a working order abroad. -/
def checkAverage (raw : Fields) (filled : ℕ) : Result Unit := do
  let average ← orRaise (cleanup "WORKING_FILL_PRICE_INVALID") (env.decimal (raw.at "ft_ccld_unpr3"))
  require (0 ≤ average ∧ (0 < filled → 0 < average) ∧ (filled = 0 → average = 0)) (cleanup "WORKING_FILL_PRICE_INVALID")

/-- A working row says the same as the history. -/
def checkWorking (raw : Fields) (row : Owned) (shares : Shares) (notional : ℚ) : Result Unit := do
  officialIdentity env raw row false
  let found ← quantities raw row false
  require (found = shares ∧ 0 < shares.remaining ∧ shares.filled + shares.remaining = shares.ordered)
    (cleanup "WORKING_HISTORY_QUANTITY_RACE_OR_MISMATCH")
  let amount ← grossNotional raw row shares.filled
  require (amount = notional) (cleanup "WORKING_HISTORY_NOTIONAL_RACE_OR_MISMATCH")
  if row.market = "US" then checkAverage env raw shares.filled else pure ()

/-- The statuses with which an order abroad is over. -/
def terminalStatuses (filled : Bool) : List String := if filled then ["체결", "체결완료"] else ["취소", "취소완료", "거부", "주문거부"]

/-- Every share of an order that is over is accounted for. -/
def checkTerminal (history : Fields) (row : Owned) (shares : Shares) : Result Unit := do
  require (shares.remaining = 0) (cleanup "MISSING_WORKING_ROW_IS_NOT_TERMINAL")
  if row.market = "US" then
    match history.at "prcs_stat_name" with
    | .str status => require (strip status ∈ terminalStatuses (shares.filled = shares.ordered)) (cleanup "US_TERMINAL_STATUS_UNPROVEN")
    | _ => .error (cleanup "US_TERMINAL_STATUS_UNPROVEN")
  else do
    let canceled ← whole (history.at "cnc_cfrm_qty") false
    let rejected ← whole (history.at "rjct_qty") false
    require (shares.filled + canceled + rejected = shares.ordered) (cleanup "KR_TERMINAL_ACCOUNTING_INCOMPLETE")

/-- `_project`. -/
def project (row : Owned) (scope : Fields) (workingRows historyRows : List Fields) (observedAt : ℤ) : Result Projection := do
  let found ← matching env historyRows row
  let history ← orRaise (cleanup "EXACT_HISTORY_ROW_REQUIRED") found
  officialIdentity env history row true
  let shares ← quantities history row true
  let notional ← grossNotional history row shares.filled
  let working ← workingRow env row workingRows shares.remaining observedAt
  match working with
  | some raw => do
    checkWorking env raw row shares notional
    pure ⟨row, .working, shares, some raw, history, false, none⟩
  | none => do
    checkTerminal history row shares
    let receipt ← terminalReceipt env scope row history
    pure ⟨row, .terminal, shares, none, history, Historical env row observedAt, receipt⟩

/-- A value that may lack. -/
def orNull : Option Fields → Json
  | some d => .obj d
  | none => .null

/-- The rows that a projection rests on. -/
def Projection.evidence (p : Projection) : Fields := [("officialWorkingRow", orNull p.working), ("officialHistoryRow", .obj p.history)]

def Standing.text : Standing → String
  | .working => "WORKING"
  | .terminal => "TERMINAL"

/-- The entry of an order in the truth. -/
def Projection.entry (p : Projection) : Fields :=
  (without p.row.raw ["dispatch"]).update
    [("verifiedDispatchHash", .str (env.sha256 (.obj p.row.dispatch))), ("historicalTerminalOnly", .bool p.historicalOnly),
      ("state", .str p.standing.text), ("filledQuantity", .str (Nat.repr p.shares.filled)),
      ("remainingQuantity", .str (Nat.repr p.shares.remaining)), ("officialWorkingRow", orNull p.working),
      ("officialHistoryRow", .obj p.history), ("responseHash", .str (env.sha256 (.obj p.evidence))),
      ("terminalVerified", .bool (p.standing = .terminal)), ("terminalReceipt", orNull p.receipt)]

end project

end LiveTrader.CleanupTruth
