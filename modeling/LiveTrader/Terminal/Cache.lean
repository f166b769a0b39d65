/-
# `Terminal.Cache` — the cache of verified terminal orders

`VerifiedTerminalCache.put` and `get` with the checks they make: an identity is
well formed, a proof covers its receipts, a stored row still says what it said.  A row
is found by either of two keys, the local dispatch slot and the broker's own order
key, both digests of parts of the identity.

A body is stored as JSON and read back as it was.  The quantities of the receipts are
added up in the default context of 28 digits.
-/
import LiveTrader.Lib.DecimalText
import LiveTrader.Lib.Table

namespace LiveTrader.Terminal

open Lib Lib.Py Lib.Decimal

structure Env where
  codec : Codec
  /-- `datetime.fromisoformat`. -/
  fromisoformat : String → Option Datetime

/-- `stable_sha256`. -/
abbrev Env.sha256 (env : Env) (value : Json) : String := env.codec.sha256 value

/-- `SCHEMA`. -/
def schema : String := "verified-terminal-order-history-cache-v1"

/-- `SPOT`. -/
def spotKind : String := "COMPLETE_TERMINAL_SPOT_TRADES_AND_ACTUAL_FEES"

/-- `KIS`. -/
def kisKind : String := "EXACT_OFFICIAL_TERMINAL_KIS_RECEIPT"

variable (env : Env)

/-! ## Identities -/

/-- `_identity`. -/
def checkIdentity (value : Json) : Result Fields := do
  let identity ← orRaise (.value "TERMINAL_CACHE_IDENTITY_INVALID") value.fields?
  require ((identity.at "version").eq (.str schema) = true) (.value "TERMINAL_CACHE_IDENTITY_INVALID")
  let known ← (identity.at "brokerId").isOneOf ["binance", "upbit", "kis"]
  require (known = true) (.value "TERMINAL_CACHE_IDENTITY_INVALID")
  require (∀ key ∈ ["accountFingerprint", "credentialConfigurationHash", "deploymentScopeHash",
      "sourceArtifactHash", "portfolioHash", "immutableDispatchHash"],
      isHash (env.codec.text (identity.at key)) = true)
    (.value "TERMINAL_CACHE_PROOF_HASH_REQUIRED")
  require (∀ key ∈ ["deploymentId", "accountProfileId", "strategyInstanceId", "symbol",
      "brokerOrderId", "quoteCurrency"], (identity.at key).isName = true)
    (.value "TERMINAL_CACHE_EXACT_IDENTITY_REQUIRED")
  let side ← (identity.at "side").isOneOf ["BUY", "SELL"]
  require (side = true) (.value "TERMINAL_CACHE_SIDE_INVALID")
  if (identity.at "brokerId").eq (.str "kis") then do
    let exchange ← (identity.at "exchange").isOneOf ["KRX", "NASD", "NYSE", "AMEX"]
    require (exchange = true ∧ isNumeral 8 8 (env.codec.text (identity.at "orderDate")) = true ∧
        isNumeral 1 16 (env.codec.text (identity.at "organizationNo")) = true)
      (.value "TERMINAL_CACHE_KIS_COMPOSITE_IDENTITY_REQUIRED")
  pure identity

/-- What names an order that has no local id. -/
def fallback (identity : Fields) : String :=
  "BROKER:" ++ env.sha256
    (identity.pick ["symbol", "brokerOrderId", "exchange", "orderDate", "organizationNo"])

/-- The local dispatch slot of an identity. -/
def slotOf (identity : Fields) : Result Json := do
  let brokerId ← identity.item "brokerId"
  let deploymentId ← identity.item "deploymentId"
  let key ← identity.item "idempotencyKey"
  let localDispatch ←
    if key.truthy then pure key
    else do
      let order ← identity.item "dispatchOrderId"
      pure (order.orElse (.str (fallback env identity)))
  pure (.obj [("brokerId", brokerId), ("deploymentId", deploymentId),
    ("localDispatch", localDispatch)])

/-- The broker order key of an identity. -/
def brokerKeyOf (identity : Fields) : Json :=
  identity.pick ["brokerId", "accountFingerprint", "symbol", "brokerOrderId", "exchange", "orderDate",
    "organizationNo"]

/-- `_keys`. -/
def keys (identity : Fields) : Result (String × String) := do
  let slot ← slotOf env identity
  pure (env.sha256 slot, env.sha256 (brokerKeyOf identity))

/-! ## Receipts and their proof -/

/-- The checks on one receipt of a KIS order: its event key. -/
def kisReceipt (identity receipt : Fields) (quantity : ℚ) : Result Json := do
  require ((receipt.at "terminalVerified").isTrue = true ∧
      (receipt.at "actualFeeObserved").isFalse = true ∧
      (receipt.at "deploymentId").eq (identity.at "deploymentId") = true ∧
      (receipt.at "currency").eq (identity.at "quoteCurrency") = true ∧
      (receipt.at "costAccounting").eq (.str "CONSERVATIVE_RESERVE_NOT_ACTUAL_FEE") = true ∧
      (receipt.at "orderDate").eq (identity.at "orderDate") = true ∧
      (receipt.at "orderNo").eq (identity.at "brokerOrderId") = true ∧
      quantity.den = 1 ∧ isHash (env.codec.text (receipt.at "receiptHash")) = true)
    (.value "TERMINAL_CACHE_KIS_RECEIPT_INCOMPLETE")
  let _ ← decimalValue env.codec (receipt.at "filledNotional") "actual gross fill notional" true
  let _ ← decimalValue env.codec (receipt.at "costReserve") "estimated cost holdback" true
  pure (receipt.at "eventKey")

/-- The checks on one receipt of a spot order: its event id. -/
def spotReceipt (identity receipt : Fields) : Result Json := do
  require ((receipt.at "brokerOrderId").eq (identity.at "brokerOrderId") = true)
    (.value "TERMINAL_CACHE_ACTUAL_SPOT_FEE_SCOPE_UNPROVEN")
  let priced ← (receipt.at "feeCurrency").isOneOf
    ["BASE", env.codec.text (identity.at "quoteCurrency")]
  require (priced = true) (.value "TERMINAL_CACHE_ACTUAL_SPOT_FEE_SCOPE_UNPROVEN")
  let _ ← decimalValue env.codec (receipt.at "price") "actual trade price" true
  let _ ← decimalValue env.codec (receipt.at "fee") "actual paid fee" false
  let stamp ← orRaise (.value "Invalid isoformat string")
    (env.fromisoformat (replaceZ (env.codec.text (receipt.at "occurredAt"))))
  require (stamp.aware = true) (.value "TERMINAL_CACHE_ACTUAL_FILL_TIMESTAMP_REQUIRED")
  pure (receipt.at "eventId")

/-- `identity['brokerId'] == 'kis'`. -/
def isKis (identity : Fields) : Bool := (identity.at "brokerId").eq (.str "kis")

/-- The checks on one receipt besides its scope: its event. -/
def receiptEvent (identity receipt : Fields) (quantity : ℚ) : Result Json :=
  if isKis identity then kisReceipt env identity receipt quantity
  else spotReceipt env identity receipt

/-- What the loop over the receipts carries. -/
structure Tally where
  total : ℚ
  events : List String

/-- One receipt. -/
def addReceipt (identity : Fields) (tally : Tally) (value : Json) : Result Tally := do
  let receipt ← value.fields
  require ((receipt.at "accountFingerprint").eq (identity.at "accountFingerprint") = true ∧
      (receipt.at "symbol").eq (identity.at "symbol") = true ∧
      (receipt.at "strategyInstanceId").eq (identity.at "strategyInstanceId") = true ∧
      (receipt.at "side").eq (identity.at "side") = true)
    (.value "TERMINAL_CACHE_RECEIPT_SCOPE_CHANGED")
  let quantity ← decimalValue env.codec (receipt.at "quantity") "verified terminal quantity" true
  let event ← receiptEvent env identity receipt quantity
  match event with
  | .str event => do
    require (event ≠ "" ∧ event ∉ tally.events)
      (.value "TERMINAL_CACHE_DUPLICATE_OR_MISSING_EVENT")
    pure ⟨ctx 28 (tally.total + quantity), event :: tally.events⟩
  | _ => .error (.value "TERMINAL_CACHE_DUPLICATE_OR_MISSING_EVENT")

/-- What a proof must say about a KIS order. -/
def kisProof (identity proof : Fields) (total : ℚ) : Result Unit := do
  require ((proof.at "kind").eq (.str kisKind) = true ∧
      (proof.at "officialTerminalReceiptComplete").isTrue = true ∧
      (proof.at "actualFeesObserved").isFalse = true)
    (.value "TERMINAL_CACHE_KIS_EXACT_TERMINAL_PROOF_REQUIRED")
  let facts ← ((proof.at "terminalFacts").orElse (.obj [])).fields
  let ordered ← decimalValue env.codec (facts.at "orderedQuantity") "official ordered quantity" true
  let notTerminal : Error := .value "TERMINAL_CACHE_KIS_ORDER_NOT_TERMINAL"
  require (ordered.den = 1 ∧ total ≤ ordered) notTerminal
  let remaining ← decimalValue env.codec (facts.at "remainingQuantity") "official remaining quantity"
    false
  require (remaining = 0) notTerminal
  if total = ordered then pure ()
  else if (identity.at "exchange").eq (.str "KRX") then do
    let canceled ← decimalValue env.codec (facts.at "canceledQuantity") "confirmed canceled shares" false
    let rejected ← decimalValue env.codec (facts.at "rejectedQuantity") "rejected shares" false
    require (ctx 28 (ctx 28 (total + canceled) + rejected) = ordered) notTerminal
  else do
    let ended ← (facts.at "terminalStatus").isOneOf ["취소", "취소완료", "거부", "주문거부"]
    require (ended = true) notTerminal

/-- What a proof must say about a spot order. -/
def spotProof (identity proof : Fields) (receipts : List Json) (total : ℚ) : Result Unit := do
  let incomplete : Error := .value "TERMINAL_CACHE_ALL_TRADES_AND_FEES_REQUIRED"
  require ((proof.at "kind").eq (.str spotKind) = true ∧
      (proof.at "allTradesComplete").isTrue = true ∧ (proof.at "actualFeesObserved").isTrue = true)
    incomplete
  let binance := (identity.at "brokerId").eq (.str "binance")
  let ended ← (proof.at "terminalStatus").isOneOf
    (if binance then ["FILLED", "CANCELED", "EXPIRED", "REJECTED"] else ["done", "cancel"])
  require (ended = true ∧ isHash (env.codec.text (proof.at "allTradesHash")) = true) incomplete
  let tradeCount ← orRaise incomplete (proof.at "tradeCount").int?
  require (0 ≤ tradeCount ∧ (total ≠ 0 ↔ tradeCount ≠ 0) ∧
    (binance = true → tradeCount = receipts.length)) incomplete

/-- The receipts that add up, with their number of events. -/
def tally (identity : Fields) (receipts : List Json) : Result Tally :=
  receipts.foldlM (addReceipt env identity) ⟨0, []⟩

/-- `_validate`. -/
def validate (identity receipts proof : Json) : Result Unit := do
  let identity ← checkIdentity env identity
  let incomplete : Error := .value "TERMINAL_CACHE_COMPLETE_TERMINAL_PROOF_REQUIRED"
  let rows ← orRaise incomplete receipts.items?
  require (rows.all Json.isObj = true) incomplete
  let proof ← orRaise incomplete proof.fields?
  require ((proof.at "terminalVerified").isTrue = true ∧ (proof.at "complete").isTrue = true ∧
      (proof.at "identityHash").eq (.str (env.sha256 (.obj identity))) = true ∧
      (proof.at "receiptsHash").eq (.str (env.sha256 receipts)) = true ∧
      (proof.at "orderAuthorityGranted").isFalse = true ∧
      isHash (env.codec.text (proof.at "brokerResponseHash")) = true) incomplete
  let t ← tally env identity rows
  let executed ← decimalValue env.codec (proof.at "executedQuantity")
    "complete terminal executed quantity" false
  require (t.total = executed) (.value "TERMINAL_CACHE_EXECUTED_TOTAL_UNPROVEN")
  if isKis identity then kisProof env identity proof t.total
  else spotProof env identity proof rows t.total

/-! ## The table -/

/-- The body that is sealed. -/
def bodyOf (identity : Fields) (receipts proof : Json) : Fields :=
  [("version", .str schema), ("identity", .obj identity), ("receipts", receipts), ("proof", proof)]

structure Row where
  slotKey : String
  brokerKey : String
  payload : Fields
  contentHash : String

/-- The table, unique in both keys. -/
structure Cache where
  table : Table Row.slotKey
  unique : (table.rows.map Row.brokerKey).Nodup

namespace Cache

def empty : Cache := ⟨.empty, List.nodup_nil⟩

def rows (c : Cache) : List Row := c.table.rows

/-- `SELECT … WHERE slot_key=? OR broker_key=?`. -/
def find (c : Cache) (slot broker : String) : List Row :=
  c.rows.filter fun row => row.slotKey = slot ∨ row.brokerKey = broker

/-- `INSERT`; `none` when one of the keys is taken. -/
def insert (c : Cache) (row : Row) : Option Cache :=
  if h : row.brokerKey ∈ c.rows.map Row.brokerKey then none
  else
    match ht : c.table.insert row with
    | none => none
    | some table => some ⟨table, by
      rw [Table.insert_rows ht, List.map_append, List.nodup_append]
      refine ⟨c.unique, List.nodup_cons.mpr ⟨List.not_mem_nil, List.nodup_nil⟩, ?_⟩
      rintro k hk _ hrow rfl
      exact h (List.mem_singleton.mp hrow ▸ hk)⟩

end Cache

/-- `except (KeyError, TypeError): raise ValueError(…)`. -/
def corruptOr {α : Type} (x : Result α) : Result α :=
  match x with
  | .error (.key _) | .error (.type _) => .error (.value "TERMINAL_CACHE_RECORD_CORRUPT")
  | x => x

/-- `_decode`. -/
def decode (row : Row) (identity : Fields) : Result Fields :=
  corruptOr do
    let body := row.payload
    require (env.sha256 (.obj body) = row.contentHash ∧ (body.at "version").eq (.str schema) = true)
      (.value "TERMINAL_CACHE_SEAL_INVALID")
    validate env (body.at "identity") (body.at "receipts") (body.at "proof")
    let stored ← (body.at "identity").fields
    let (slot, broker) ← keys env stored
    require (slot = row.slotKey ∧ broker = row.brokerKey)
      (.value "TERMINAL_CACHE_INDEX_BINDING_INVALID")
    require ((Json.obj stored).eq (.obj identity) = true)
      (.value "TERMINAL_CACHE_IMMUTABLE_DISPATCH_SCOPE_CHANGED")
    pure body

/-- The one row of a lookup, decoded; `none` when there is no row. -/
def lookup (c : Cache) (slot broker : String) (identity : Fields) : Result (Option Fields) :=
  match c.find slot broker with
  | [] => .ok none
  | [row] => do
    let body ← decode env row identity
    pure (some body)
  | _ => .error (.value "TERMINAL_CACHE_AMBIGUOUS_ATTRIBUTION")

/-- `get`. -/
def get (c : Cache) (identity : Json) : Result (Option Fields) := do
  let identity ← checkIdentity env identity
  let (slot, broker) ← keys env identity
  lookup env c slot broker identity

/-- `put`, as one transaction. -/
def put (c : Cache) (identity receipts proof : Json) : Result (Cache × Bool) := do
  let identity ← checkIdentity env identity
  validate env (.obj identity) receipts proof
  let (slot, broker) ← keys env identity
  let body := bodyOf identity receipts proof
  let found ← lookup env c slot broker identity
  match found with
  | some previous => do
    require ((Json.obj previous).eq (.obj body) = true)
      (.value "TERMINAL_CACHE_TERMINAL_RECEIPT_CHANGED")
    pure (c, false)
  | none => do
    let c' ← orRaise (.value "TERMINAL_CACHE_DATABASE_INVALID")
      (c.insert ⟨slot, broker, body, env.sha256 (.obj body)⟩)
    pure (c', true)

end LiveTrader.Terminal
