/-
# `ProgramLedger.Dispatches` — the journal of order dispatches

`order_dispatch_journal` keeps one row per order, with the whole order as a JSON document.
`checkpoint_order_dispatch` writes the row, `update_order_dispatch` replaces its document by
that of an order the caller holds in memory, and `record_verified_kis_order_identity` adds
the identity an official query has confirmed: it compares the hash of the row as it is read
with the one the caller gives, and writes one row of `kis_order_identity_verifications`,
which is never changed.

Each call is one transaction.  The texts of JSON documents, their hashes, `str` on values
that are not texts and the calendar of a time zone are left open in `Env`.
-/
import LiveTrader.Lib.JsonText
import LiveTrader.Lib.DecimalText
import LiveTrader.Lib.Runs

namespace LiveTrader.ProgramLedger.Dispatches

open Lib Lib.Py Lib.Runs

/-- What the calls use of the JSON texts, the hashes and the calendar. -/
structure Env (τ : Type) where
  /-- `json.dumps(value, sort_keys=True)`. -/
  dumps : Json → τ
  /-- `json.loads`. -/
  loads : τ → Result Json
  loads_dumps : ∀ v, loads (dumps v) = .ok v.sortKeys
  /-- `stable_sha256`. -/
  stableSha256 : Json → String
  stableSha256_isHash : ∀ v, isHash (stableSha256 v) = true
  /-- `str` on a value that is not a text. -/
  repr : Json → String
  fromisoformat : String → Option Datetime
  /-- `astimezone(ZoneInfo(zone)).strftime("%Y%m%d")`. -/
  localDay : String → Datetime → String

variable {τ : Type} (env : Env τ)

/-- `str(value)`. -/
def Env.str : Json → String
  | .str s => s
  | v => env.repr v

/-- `str(value or "")`. -/
def Env.text (value : Json) : String := env.str (value.orElse (.str ""))

/-! ## Tables -/

structure Row (τ : Type) where
  orderId : String
  idempotencyKey : String
  brokerId : String
  brokerOrderId : String
  state : String
  createdAt : String
  updatedAt : String
  orderJson : τ

/-- A row of `kis_order_identity_verifications`. -/
structure Verification (τ : Type) where
  idempotencyKey : String
  beforeHash : String
  afterHash : String
  identityJson : τ

structure Journal (τ : Type) where
  rows : List (Row τ) := []
  verifications : List (Verification τ) := []

/-- `d.setdefault(key, value)`. -/
def setDefault (d : Fields) (key : String) (value : Json) : Fields :=
  if (d.lookup key).isSome then d else d.put key value

/-- The document of a row, if it is a dictionary. -/
def Row.document (row : Row τ) : Fields :=
  match env.loads row.orderJson with
  | .ok (.obj d) => d
  | _ => []

/-- `_dispatch_order_from_row`. -/
def dispatchOrderFromRow (row : Row τ) : Fields :=
  let order := row.document env
  let order := setDefault order "order_id" (.str row.orderId)
  let order := setDefault order "idempotency_key" (.str row.idempotencyKey)
  let order := setDefault order "broker_id" (.str row.brokerId)
  let order := setDefault order "broker_order_id" (.str row.brokerOrderId)
  let order := order.put "state" (.str (orElse row.state (env.text (order.at "state"))))
  let order := setDefault order "created_at" (.str row.createdAt)
  order.put "updated_at" (.str (orElse row.updatedAt (env.text (order.at "updated_at"))))

/-- The row of an idempotency key. -/
def Journal.row? (j : Journal τ) (key : String) : Option (Row τ) :=
  j.rows.find? (·.idempotencyKey = key)

/-- `order_dispatch_for_idempotency_key`. -/
def orderDispatchForIdempotencyKey (j : Journal τ) (idempotencyKey : String) : Option Fields :=
  let normalized := strip idempotencyKey
  if normalized = "" then none else (j.row? normalized).map (dispatchOrderFromRow env)

/-! ## `checkpoint_order_dispatch` -/

/-- The row of a new order; `now` is the clock it falls back to. -/
def checkpointRow (order : Fields) (now : String) : Row τ :=
  let createdAt := orElse (env.text ((order.at "created_at").orElse (order.at "time"))) now
  { orderId := strip (env.text (order.at "order_id"))
    idempotencyKey := strip (env.text (order.at "idempotency_key"))
    brokerId := lower (strip (env.text (order.at "broker_id")))
    brokerOrderId := env.text (order.at "broker_order_id")
    state := orElse (env.text (order.at "state")) "dispatch_pending"
    createdAt
    updatedAt := orElse (env.text (order.at "updated_at")) createdAt
    orderJson := env.dumps (.obj order) }

/-- What `checkpoint_order_dispatch` returns. -/
structure Checkpoint where
  created : Bool
  order : Fields

/-- `checkpoint_order_dispatch`. -/
def checkpointOrderDispatch (j : Journal τ) (order : Fields) (now : String) :
    Result (Journal τ × Checkpoint) := do
  let row := checkpointRow env order now
  require (row.orderId ≠ "" ∧ row.idempotencyKey ≠ "" ∧ row.brokerId ≠ "")
    (.value "order_id, idempotency_key, and broker_id are required")
  match j.rows.find? fun r => r.orderId = row.orderId || r.idempotencyKey = row.idempotencyKey with
  | some existing => pure (j, ⟨false, dispatchOrderFromRow env existing⟩)
  | none => pure ({ j with rows := j.rows ++ [row] }, ⟨true, order⟩)

/-! ## `update_order_dispatch` -/

/-- The row after an update. -/
def Row.updated (row : Row τ) (order : Fields) (now : String) : Row τ :=
  { row with
    brokerOrderId := env.text (order.at "broker_order_id")
    state := env.text (order.at "state")
    updatedAt := orElse (env.text (order.at "updated_at")) now
    orderJson := env.dumps (.obj order) }

/-- `WHERE order_id = ? AND idempotency_key = ?`, with the keys of an order. -/
def Row.isOf (row : Row τ) (order : Fields) : Bool :=
  row.orderId = strip (env.text (order.at "order_id")) &&
    row.idempotencyKey = strip (env.text (order.at "idempotency_key"))

/-- `update_order_dispatch`. -/
def updateOrderDispatch (j : Journal τ) (order : Fields) (now : String) : Journal τ × Bool :=
  if strip (env.text (order.at "order_id")) = "" ∨ strip (env.text (order.at "idempotency_key")) = "" then
    (j, false)
  else
    ({ j with rows := j.rows.map fun row => if row.isOf env order then row.updated env order now else row },
      (j.rows.countP (Row.isOf env · order)) = 1)

/-! ## `record_verified_kis_order_identity` -/

/-- `RESULT` of `kis_equity_execution`. -/
def quantityResult : String := "kis-equity-operational-quantity-v2"

/-- `checked` of `kis_equity_execution`. -/
def checked (payload : Json) (version : String) : Result Fields :=
  let invalid : Error := .value "KIS_V2_SEAL_OR_VERSION_INVALID"
  match payload with
  | .obj d => do
    let body : Fields := d.filter fun e => e.1 ≠ "contentHash"
    require ((Fields.at d "version").eq (.str version) ∧
      (Fields.at d "contentHash").eq (.str (env.stableSha256 (.obj body)))) invalid
    pure d
  | _ => .error invalid

/-- `timestamp` of `kis_equity_execution`. -/
def timestamp (value : Json) : Result Datetime := do
  let parsed ← orRaise (.value "Invalid isoformat string") (env.fromisoformat (replaceZ (env.str value)))
  require (parsed.aware = true) (.value "KIS_V2_TIMEZONE_REQUIRED")
  pure parsed

/-- `fields`: what an identity consists of. -/
def identityFields : List String := ["order_date", "organization_no", "broker_order_id", "broker_order_key"]

/-- The identity is that of an official query for the dispatch with this hash. -/
def checkVerification (expectedHash : String) (identity : Fields) : Result Unit :=
  let day := env.text (identity.at "order_date")
  let branch := env.text (identity.at "organization_no")
  let number := env.text (identity.at "broker_order_id")
  require ((identity.at "broker_order_identity_verified").isTrue ∧
    (identity.at "order_date_source").eq (.str "OFFICIAL_ORDER_QUERY_EXACT_COMPOSITE_IDENTITY") ∧
    (identity.at "verifiedDispatchHash").eq (.str expectedHash) ∧
    (identity.at "querySessionDateWasProvisional").isTrue ∧
    (identity.at "orderAuthorityGranted").isFalse ∧
    isNumeral 8 8 day ∧ isNumeral 1 16 branch ∧ isNumeral 1 16 number ∧
    (identity.at "broker_order_key").eq (.str (day ++ ":" ++ branch ++ ":" ++ number)) ∧
    (identity.at "requestSessionDate").eq (.str day) ∧
    isHash (env.text (identity.at "officialReceiptHash")) ∧
    isHash (env.text (identity.at "requestSessionBoundaryHash")))
    (.value "KIS_IDENTITY_OFFICIAL_EXACT_VERIFICATION_REQUIRED")

/-- The zone of the exchange of a ticket. -/
def exchangeZone (ticket : Fields) : String :=
  if (ticket.at "exchange").eq (.str "KRX") then "Asia/Seoul" else "America/New_York"

/-- The dispatch is the one the identity was asked for, on the day of its sealed event. -/
def checkScope (brokerId brokerOrderId : String) (current identity : Fields) : Result Unit := do
  let mismatch : Error := .value "KIS_IDENTITY_CURRENT_DISPATCH_SCOPE_MISMATCH"
  let number := env.text (identity.at "broker_order_id")
  let metadata ← ((current.at "metadata").orElse (.obj [])).fields
  let ticket ← checked env (metadata.at "native_quantity_model") quantityResult
  let sealedBoundary := (metadata.at "native_open_boundary").orElse (.obj [])
  require (brokerId = "kis" ∧ (current.at "broker_id").eq (.str "kis") ∧
    brokerOrderId = number ∧ (current.at "broker_order_id").eq (.str number) ∧
    env.text (current.at "organization_no") = env.text (identity.at "organization_no") ∧
    (ticket.at "boundaryHash").eq (.str (env.stableSha256 sealedBoundary)) ∧
    (ticket.at "boundaryHash").eq (identity.at "requestSessionBoundaryHash") ∧
    (ticket.at "sourceArtifactHash").eq (metadata.at "source_artifact_hash") ∧
    (ticket.at "deploymentId").eq (metadata.at "deployment_id") ∧
    (ticket.at "accountFingerprint").eq (metadata.at "native_account_fingerprint")) mismatch
  let listed ← (ticket.at "exchange").isOneOf ["KRX", "NASD", "NYSE", "AMEX"]
  require (listed = true ∧ (ticket.at "symbol").eq (current.at "symbol") ∧
    (ticket.at "side").eq (current.at "side")) mismatch
  let boundary ← sealedBoundary.fields
  require ((boundary.at "provider").eq (.str "kis") ∧ (boundary.at "attestation").eq (.str "KIS_WEBSOCKET") ∧
    (boundary.at "recoveryOnly").isFalse ∧ (boundary.at "promotionEligible").isTrue) mismatch
  let started ← timestamp env (boundary.at "startTime")
  require (env.localDay (exchangeZone ticket) started = env.text (identity.at "order_date"))
    (.value "KIS_IDENTITY_SEALED_SESSION_DATE_MISMATCH")

/-- `broker_order_identity_verified is True`. -/
def isVerified (current : Fields) : Bool := (current.at "broker_order_identity_verified").isTrue

/-- No date or key of another identity is there, but for a provisional one. -/
def checkConflict (current identity : Fields) : Result Unit := do
  let provisional ← (current.at "order_date_source").isOneOf
    ["KST_SUBMISSION_DATE_PROVISIONAL", "MARKET_SESSION_DATE_PROVISIONAL", "AWAITING_BROKER_TRADING_DATE"]
  require (∀ field ∈ ["order_date", "broker_order_key"], env.text (current.at field) = "" ∨
      (identity.at field).eq (.str (env.text (current.at field))) ∨ (isVerified current = false ∧ provisional))
    (.value "KIS_IDENTITY_VERIFIED_OR_UNKNOWN_KEY_CONFLICT")

/-- The order with its verified identity. -/
def verifiedOrder (current identity : Fields) : Fields :=
  let order := identityFields.foldl (fun d key => d.put key (identity.at key)) current
  let order := order.put "broker_order_identity_verified" (.bool true)
  let order := order.put "order_date_source" (identity.at "order_date_source")
  order.put "broker_order_identity_receipt_hash" (identity.at "officialReceiptHash")

/-- What SQLite stores of a value in a column of texts that may not be null. -/
def bindText (column : String) : Json → Result String
  | .null => .error (.integrity column)
  | .arr _ => .error (.type "type 'list' is not supported")
  | .obj _ => .error (.type "type 'dict' is not supported")
  | .int n =>
    if -9223372036854775808 ≤ n ∧ n ≤ 9223372036854775807 then .ok (env.repr (.int n))
    else .error (.runtime "Python int too large to convert to SQLite INTEGER")
  | .str s => .ok s
  | v => .ok (env.repr v)

/-- What `record_verified_kis_order_identity` returns. -/
structure Recorded where
  applied : Bool
  alreadyVerified : Bool
  order : Fields
  orderAuthorityGranted : Bool := false

/-- The call finds the identity of an earlier verification. -/
def confirmVerification (current identity : Fields) (existing : Verification τ) : Result Recorded := do
  let conflict : Error := .value "KIS_IDENTITY_EXISTING_AUDIT_CONFLICT"
  require (isVerified current ∧ ∀ key ∈ identityFields, (current.at key).eq (identity.at key)) conflict
  let previous ← (← env.loads existing.identityJson).fields
  require (∀ key ∈ identityFields, (previous.at key).eq (identity.at key)) conflict
  pure { applied := false, alreadyVerified := true, order := current }

/-- The call writes the identity and its verification. -/
def writeVerification (j : Journal τ) (key expectedHash : String) (current identity : Fields) :
    Result (Journal τ × Recorded) := do
  let updated := verifiedOrder current identity
  let _ ← bindText env "kis_order_identity_verifications.order_id" (current.at "order_id")
  let _ ← bindText env "kis_order_identity_verifications.official_receipt_hash"
    (identity.at "officialReceiptHash")
  let verification : Verification τ := {
    idempotencyKey := key
    beforeHash := expectedHash
    afterHash := env.stableSha256 (.obj updated)
    identityJson := env.dumps (.obj identity) }
  let rows := j.rows.map fun row =>
    if row.idempotencyKey = key then { row with orderJson := env.dumps (.obj updated) } else row
  pure ({ rows, verifications := j.verifications ++ [verification] },
    { applied := true, alreadyVerified := false, order := updated })

/-- The document of a row must be a dictionary. -/
def requireDocument (row : Row τ) : Result Unit :=
  match env.loads row.orderJson with
  | .ok (.obj _) => .ok ()
  | _ => .error (.value "KIS_IDENTITY_DISPATCH_JSON_INVALID")

/-- `record_verified_kis_order_identity`. -/
def recordVerifiedKisOrderIdentity (j : Journal τ) (idempotencyKey expectedDispatchHash : String)
    (identity : Fields) : Result (Journal τ × Recorded) := do
  let normalized := strip idempotencyKey
  require (normalized ≠ "" ∧ isHash expectedDispatchHash) (.value "KIS_IDENTITY_EXACT_DISPATCH_CAS_REQUIRED")
  checkVerification env expectedDispatchHash identity
  let row ← orRaise (.value "KIS_IDENTITY_DISPATCH_NOT_FOUND") (j.row? normalized)
  requireDocument env row
  let current := dispatchOrderFromRow env row
  require (env.stableSha256 (.obj current) = expectedDispatchHash) (.value "KIS_IDENTITY_STALE_DISPATCH_CAS")
  checkScope env row.brokerId row.brokerOrderId current identity
  checkConflict env current identity
  match j.verifications.find? (·.idempotencyKey = normalized) with
  | some existing => do
    let recorded ← confirmVerification env current identity existing
    pure (j, recorded)
  | none => writeVerification env j normalized expectedDispatchHash current identity

/-! ## Runs -/

/-- A call with its arguments. -/
inductive Call where
  | checkpoint (order : Fields) (now : String)
  | update (order : Fields) (now : String)
  | record (idempotencyKey expectedDispatchHash : String) (identity : Fields)

/-- The journal after a call; one that raises is rolled back. -/
def perform (j : Journal τ) : Call → Journal τ
  | .checkpoint order now =>
    match checkpointOrderDispatch env j order now with
    | .ok (j', _) => j'
    | .error _ => j
  | .update order now => (updateOrderDispatch env j order now).1
  | .record key hash identity =>
    match recordVerifiedKisOrderIdentity env j key hash identity with
    | .ok (j', _) => j'
    | .error _ => j

/-- A call as a step; every call is possible in every journal. -/
def step (j : Journal τ) (call : Call) : Option (Journal τ) := some (perform env j call)

end LiveTrader.ProgramLedger.Dispatches
