/-
# `OrderAuthority.Boundaries` — the final mutation boundaries and their leases

An order mutation is sealed as an intent: an operation, the endpoint that the operation owns, the
hash of the payload, the account and its credentials.  `_snapshot` reads the durable authority
anew each time and raises on any that is not in order.

Five kinds of boundary seal an intent and read the durable authority before the mutation; the
first one of a thread leaves a lease with what it has read.  A transport of the thread reads
again through the lease, has to find the same owner, state, account, credentials and control
reservation, and burns the lease and its intent.

Locks are not modelled, so a thread may come between any two steps of another.  What the emergency
stop, the short-live routes, the authority reader and the state-owned readers answer is given
to each step.
-/
import LiveTrader.Lib.DecimalText

namespace LiveTrader.OrderAuthority

open Lib Lib.Py

/-- `KisOrderAuthorityError`. -/
def refused (message : String) : Error := .runtime message

/-! ## Names -/

/-- `_SHA256`. -/
def isSha256 (s : String) : Bool := isHash s

/-- `_IDENTITY`. -/
def isIdentity (s : String) : Bool :=
  match s.toList with
  | [] => false
  | c :: cs => c.isAlphanum && cs.length ≤ 127 && cs.all fun c => c.isAlphanum || "._:-".toList.contains c

/-- `_OFFICIAL_ID`. -/
def isOfficialId (s : String) : Bool := isNumeral 1 16 s

/-- `_OPERATION`. -/
def isOperation (s : String) : Bool :=
  match s.toList with
  | [] => false
  | c :: cs => c.isUpper && 2 ≤ cs.length && cs.length ≤ 63 && cs.all fun c => c.isUpper || c.isDigit || c == '_'

/-- `_ENDPOINT`. -/
def isEndpoint (s : String) : Bool :=
  "/uapi/".toList.isPrefixOf s.toList && 7 ≤ s.toList.length && s.toList.length ≤ 261 &&
    (s.toList.drop 6).all fun c => c.isAlphanum || "._~!$&'()*+,;=:@%/-".toList.contains c

/-- A text that passes a check. -/
def checkText (value : Json) (check : String → Bool) (message : String) : Result String :=
  match value with
  | .str s => do
    require (check s = true) (refused message)
    pure s
  | _ => .error (refused message)

/-- `type(value) is int` and a bound. -/
def checkInt (value : Json) (least : ℤ) (message : String) : Result ℤ :=
  match value with
  | .int n => do
    require (least ≤ n) (refused message)
    pure n
  | _ => .error (refused message)

/-- `type(value) is bool`. -/
def checkBool (value : Json) (message : String) : Result Bool :=
  match value with
  | .bool b => .ok b
  | _ => .error (refused message)

/-- A dictionary with these keys and no others. -/
def checkKeys (value : Json) (keys : List String) (message : String) : Result Fields :=
  match value with
  | .obj d => do
    require ((∀ e ∈ d, e.1 ∈ keys) ∧ ∀ key ∈ keys, (d.lookup key).isSome) (refused message)
    pure d
  | _ => .error (refused message)

/-! ## Intents -/

/-- `_OPERATION_ENDPOINTS`. -/
def operationEndpoints (operation : String) : List String :=
  if operation = "PLACE_ORDER" then
    ["/uapi/domestic-stock/v1/trading/order-cash", "/uapi/overseas-stock/v1/trading/order"]
  else if operation ∈ ["NATURAL_BUY", "CLEANUP_SELL"] then ["/uapi/domestic-stock/v1/trading/order-cash"]
  else if operation ∈ ["CANCEL_ORDER", "CLEANUP_CANCEL", "KILL_ORDINARY_CANCEL", "SCOPED_CANCEL_KR"] then
    ["/uapi/domestic-stock/v1/trading/order-rvsecncl"]
  else if operation ∈ ["OVERSEAS_CANCEL_ORDER", "SCOPED_CANCEL_US"] then
    ["/uapi/overseas-stock/v1/trading/order-rvsecncl"]
  else []

structure OwnedOrderKey where
  orderDate : String
  organizationNo : String
  orderNo : String
  deriving DecidableEq

structure Intent where
  operation : String
  claimId : String
  ownedOrderKey : OwnedOrderKey
  accountFingerprint : String
  credentialConfigurationHash : String
  endpoint : String
  payloadHash : String
  deriving DecidableEq

/-- `_validate_operation`. -/
def validateOperation (value : Json) : Result String :=
  checkText value isOperation "KIS mutation operation is invalid"

def cancelOperations : List String :=
  ["CANCEL_ORDER", "CLEANUP_CANCEL", "KILL_ORDINARY_CANCEL", "SCOPED_CANCEL_KR", "SCOPED_CANCEL_US"]

/-- The order that a cancel is about; any other operation has none. -/
def checkOwned (value : Json) (operation : String) : Result OwnedOrderKey := do
  let d ← checkKeys value ["orderDate", "organizationNo", "orderNo"] "KIS owned order key shape is invalid"
  let text (key : String) : Result String := checkText (d.at key) (fun _ => true) "KIS owned order key values are invalid"
  let owned : OwnedOrderKey := {
    orderDate := ← text "orderDate", organizationNo := ← text "organizationNo", orderNo := ← text "orderNo" }
  if operation ∈ cancelOperations then
    require (isOfficialId owned.orderDate = true ∧ isOfficialId owned.organizationNo = true ∧
      isOfficialId owned.orderNo = true) (refused "KIS cancel requires an exact owned official order key")
  else
    require (owned = ⟨"", "", ""⟩) (refused "new KIS order intent cannot claim a broker order key before ACK")
  pure owned

/-- `_normalize_intent`. -/
def normalizeIntent (value : Json) (expectedOperation : String) : Result Intent := do
  let d ← checkKeys value ["operation", "claimId", "ownedOrderKey", "accountFingerprint",
    "credentialConfigurationHash", "endpoint", "payloadHash"] "KIS mutation intent shape is invalid"
  let operation ← validateOperation (d.at "operation")
  require (operation = expectedOperation) (refused "KIS mutation intent operation changed")
  let claimId ← checkText (d.at "claimId") isIdentity "KIS mutation claim id is invalid"
  let accountFingerprint ← checkText (d.at "accountFingerprint") isSha256
    "KIS mutation account fingerprint is invalid"
  let credentialConfigurationHash ← checkText (d.at "credentialConfigurationHash") isSha256
    "KIS mutation credential configuration hash is invalid"
  let payloadHash ← checkText (d.at "payloadHash") isSha256 "KIS mutation payload hash is invalid"
  let endpoint ← checkText (d.at "endpoint") isEndpoint "KIS mutation endpoint is invalid"
  require (endpoint ∈ operationEndpoints operation) (refused "KIS mutation operation/endpoint binding is invalid")
  let ownedOrderKey ← checkOwned (d.at "ownedOrderKey") operation
  pure { operation, claimId, ownedOrderKey, accountFingerprint, credentialConfigurationHash, endpoint, payloadHash }

def OwnedOrderKey.json (k : OwnedOrderKey) : Json :=
  .obj [("orderDate", .str k.orderDate), ("organizationNo", .str k.organizationNo), ("orderNo", .str k.orderNo)]

def Intent.json (i : Intent) : Json :=
  .obj [("operation", .str i.operation), ("claimId", .str i.claimId), ("ownedOrderKey", i.ownedOrderKey.json),
    ("accountFingerprint", .str i.accountFingerprint),
    ("credentialConfigurationHash", .str i.credentialConfigurationHash), ("endpoint", .str i.endpoint),
    ("payloadHash", .str i.payloadHash)]

/-! ## Control reservations -/

structure Control where
  reservationId : String
  reservationKind : String
  reservationRevision : ℤ
  stateRevision : ℤ
  phase : String
  reservationBindingHash : String
  deriving DecidableEq

/-- `_normalize_control_reservation`; no reservation is an empty one. -/
def normalizeControl (value : Json) (stateRevision : ℤ) (functionalPhase : String) : Result (Option Control) :=
  match value with
  | .obj [] => .ok none
  | .obj d => do
    let d ← checkKeys (.obj d) ["reservationId", "reservationKind", "reservationRevision", "stateRevision", "phase",
      "reservationBindingHash"] "durable KIS control reservation shape is invalid"
    let reservationId ← checkText (d.at "reservationId") isIdentity "durable KIS control reservation id is invalid"
    let reservationKind ← checkText (d.at "reservationKind") (["START", "STOP", "KILL", "SETTINGS"].contains ·)
      "durable KIS control reservation kind is invalid"
    let reservationRevision ← checkInt (d.at "reservationRevision") 2
      "durable KIS control reservation revision is invalid"
    let reserved ← checkInt (d.at "stateRevision") reservationRevision
      "durable KIS control reservation state revision changed"
    require (reserved = stateRevision) (refused "durable KIS control reservation state revision changed")
    let phase ← checkText (d.at "phase") (· = functionalPhase) "durable KIS control reservation phase changed"
    let reservationBindingHash ← checkText (d.at "reservationBindingHash") isSha256
      "durable KIS control reservation binding is invalid"
    pure (some { reservationId, reservationKind, reservationRevision, stateRevision := reserved, phase, reservationBindingHash })
  | _ => .error (refused "durable KIS control reservation is invalid")

def Control.json : Option Control → Json
  | none => .obj []
  | some c => .obj [("reservationId", .str c.reservationId), ("reservationKind", .str c.reservationKind),
      ("reservationRevision", .int c.reservationRevision), ("stateRevision", .int c.stateRevision),
      ("phase", .str c.phase), ("reservationBindingHash", .str c.reservationBindingHash)]

/-! ## Snapshots -/

/-- `_OPEN_PHASES`. -/
def openPhases : List String :=
  ["ARMED_WAIT_PUBLIC", "BOOTSTRAP_ISSUED", "APPROVED", "ACTIVE", "CLEANUP", "FINAL_RESET", "RECONCILIATION_REQUIRED"]

/-- `_SESSION_PHASES`. -/
def sessionPhases : List String := ["ACTIVE", "CLEANUP", "FINAL_RESET", "RECONCILIATION_REQUIRED"]

/-- `_ALL_PHASES`. -/
def allPhases : List String := openPhases ++ ["IDLE", "FINALIZED"]

structure Snapshot where
  functionalAuthorityOpen : Bool
  functionalPhase : String
  functionalRevision : ℤ
  functionalSessionId : String
  functionalAccountFingerprint : String
  credentialConfigurationHash : String
  functionalMutationIntent : Json
  killOrdinaryCancelAllowed : Bool
  killOrdinaryCancelRevision : ℤ
  killOrdinaryCancelIntent : Json
  applicationInstanceLeaseHeld : Bool
  ordinaryRoutesClosed : Bool
  ownerEpochId : String
  ownerEpochHash : String
  stateRevision : ℤ
  controlReservation : Option Control

def snapshotKeys : List String :=
  ["durableAuthorityReadable", "functionalAuthorityOpen", "functionalPhase", "functionalRevision",
    "functionalSessionId", "functionalAccountFingerprint", "credentialConfigurationHash",
    "functionalMutationIntent", "killOrdinaryCancelAllowed", "killOrdinaryCancelRevision",
    "killOrdinaryCancelIntent", "applicationInstanceLeaseHeld", "ordinaryRoutesClosed", "ownerEpochId",
    "ownerEpochHash", "stateRevision", "controlReservation"]

/-- What the registered reader returns, as a dictionary. -/
def readerFields : Result Json → Result Fields
  | .ok (.obj d) => .ok d
  | _ => .error (refused "durable KIS authority is unreadable")

/-- The fields of a snapshot, each with its own check. -/
def snapshotFields (d : Fields) : Result Snapshot := do
  let flag (key : String) : Result Bool := checkBool (d.at key) "durable KIS authority booleans are invalid"
  let readable ← flag "durableAuthorityReadable"
  let functionalAuthorityOpen ← flag "functionalAuthorityOpen"
  let killOrdinaryCancelAllowed ← flag "killOrdinaryCancelAllowed"
  let applicationInstanceLeaseHeld ← flag "applicationInstanceLeaseHeld"
  let ordinaryRoutesClosed ← flag "ordinaryRoutesClosed"
  require (readable = true) (refused "durable KIS authority is not readable")
  let functionalPhase ← checkText (d.at "functionalPhase") (allPhases.contains ·) "durable KIS functional phase is invalid"
  let functionalRevision ← checkInt (d.at "functionalRevision") 0 "durable KIS functional revision is invalid"
  let functionalSessionId ← checkText (d.at "functionalSessionId") (fun s => s = "" || isIdentity s)
    "durable KIS functional session is invalid"
  let functionalAccountFingerprint ← checkText (d.at "functionalAccountFingerprint") (fun s => s = "" || isSha256 s)
    "durable KIS account fingerprint is invalid"
  let credentialConfigurationHash ← checkText (d.at "credentialConfigurationHash") (fun s => s = "" || isSha256 s)
    "durable KIS credential configuration hash is invalid"
  require ((d.at "functionalMutationIntent").isObj = true ∧ (d.at "killOrdinaryCancelIntent").isObj = true)
    (refused "durable KIS mutation intent is invalid")
  let killOrdinaryCancelRevision ← checkInt (d.at "killOrdinaryCancelRevision") 0
    "durable KIS Kill-cancel revision is invalid"
  let ownerEpochId ← checkText (d.at "ownerEpochId") isIdentity "durable KIS owner epoch id is invalid"
  let ownerEpochHash ← checkText (d.at "ownerEpochHash") isSha256 "durable KIS owner epoch hash is invalid"
  let stateRevision ← checkInt (d.at "stateRevision") 1 "durable KIS state revision is invalid"
  let controlReservation ← normalizeControl (d.at "controlReservation") stateRevision functionalPhase
  pure {
    functionalAuthorityOpen, functionalPhase, functionalRevision, functionalSessionId, functionalAccountFingerprint,
    credentialConfigurationHash, functionalMutationIntent := d.at "functionalMutationIntent",
    killOrdinaryCancelAllowed, killOrdinaryCancelRevision,
    killOrdinaryCancelIntent := d.at "killOrdinaryCancelIntent", applicationInstanceLeaseHeld, ordinaryRoutesClosed,
    ownerEpochId, ownerEpochHash, stateRevision, controlReservation }

/-- What has to hold between the fields of a snapshot. -/
def checkInvariants (s : Snapshot) : Result Unit := do
  let isOpen : Bool := s.functionalPhase ∈ openPhases
  require (s.functionalAuthorityOpen = isOpen) (refused "durable KIS authority-open/phase invariant failed")
  require (isOpen = true → 1 ≤ s.functionalRevision ∧ s.functionalAccountFingerprint ≠ "" ∧
    s.credentialConfigurationHash ≠ "" ∧ s.ordinaryRoutesClosed = true)
    (refused "durable KIS open-authority isolation invariant failed")
  require (s.functionalPhase ∈ sessionPhases → s.functionalSessionId ≠ "")
    (refused "durable KIS session authority identity is missing")
  require (s.functionalPhase ∈ ["ARMED_WAIT_PUBLIC", "BOOTSTRAP_ISSUED", "APPROVED"] → s.functionalSessionId = "")
    (refused "preactivation KIS authority cannot carry a functional session")
  require (isOpen = false → s.ordinaryRoutesClosed = false)
    (refused "durable KIS terminal authority left ordinary routes closed")

/-- `_snapshot`, of what the reader returns or raises. -/
def readSnapshot (answer : Result Json) : Result Snapshot := do
  let d ← readerFields answer
  require (∀ key ∈ snapshotKeys, (d.lookup key).isSome) (refused "durable KIS authority snapshot is incomplete")
  let s ← snapshotFields d
  checkInvariants s
  pure s

/-! ## The final mutation boundaries and their leases -/

/-- SHA-256 of the canonical text of a value, which does not collide. -/
structure Env where
  hash : Json → String
  hash_injective : Function.Injective hash

inductive Mode where
  | ordinary
  | kill
  | functionalEntry
  | functionalCleanup
  | scopedOperational
  | scopedCleanup
  deriving DecidableEq

/-- What a boundary is entered with, and what its closure keeps. -/
structure Sealed where
  mode : Mode
  intent : Intent
  /-- The session and the revision of a functional boundary, the revision of a kill. -/
  sessionId : String := ""
  expectedRevision : ℤ := 0
  emergencyActive : Bool := false
  deriving DecidableEq

namespace Sealed

def operation (b : Sealed) : String := b.intent.operation

end Sealed

def Env.intentHash (env : Env) (i : Intent) : String := env.hash i.json

def Env.controlHash (env : Env) (c : Option Control) : String := env.hash (Control.json c)

/-- `_InheritedLease`; `serial` is its identity. -/
structure Lease where
  serial : ℕ
  owner : Sealed
  nonce : String
  intentHash : String
  revision : ℤ
  stateRevision : ℤ
  ownerEpochId : String
  ownerEpochHash : String
  accountFingerprint : String
  credentialConfigurationHash : String
  controlReservationHash : String
  deriving DecidableEq

/-- What the surroundings answer in one read. -/
structure Answers where
  /-- `check_short_live_authority`. -/
  short : Result Bool := .ok false
  /-- The registered authority reader. -/
  snapshot : Result Json
  /-- The reader of the specialized writers, where one is registered. -/
  exclusion : Option (Result Json) := none
  /-- The state-owned reader of a scoped boundary; it raises without the context of a dispatch. -/
  scopedReader : Result Json := .error (refused "KIS operational state-owned dispatch context is missing")

/-! ## Readers -/

/-- An answer with `allowed`. -/
def isAllowed : Json → Bool
  | .obj d => (Fields.at d "allowed").isTrue
  | _ => false

/-- `_scoped_read` and `_cleanup_read`. -/
def scopedRead (a : Answers) : Result Unit := do
  let _ ← a.short
  let result ← a.scopedReader
  require (isAllowed result = true) (refused "KIS scoped operational authority is not active")

/-- `_require_specialized_writer_not_excluded`. -/
def requireSpecializedWriterNotExcluded (a : Answers) : Result Unit := do
  let _ ← a.short
  match a.exclusion with
  | none => pure ()
  | some (.ok (.obj d)) =>
    require ((Fields.at d "status").eq (.str "SPECIALIZED_ALLOWED") = true)
      (refused "KIS specialized writer is fenced by operational exclusion")
  | some (.ok _) => .error (refused "KIS specialized writer is fenced by operational exclusion")
  | some (.error _) => .error (refused "KIS specialized writer exclusion is unreadable")

/-- The fence of the operations that a specialized writer shares. -/
def checkExclusion (operation : String) (a : Answers) : Result Unit :=
  if operation ∈ ["NATURAL_BUY", "CLEANUP_SELL"] then requireSpecializedWriterNotExcluded a else .ok ()

/-- `_validate_transport`. -/
def validateTransport (intent : Intent) (endpoint payloadHash : String) : Result Unit :=
  require (endpoint = intent.endpoint ∧ payloadHash = intent.payloadHash)
    (refused "KIS transport endpoint/payload differs from the sealed intent")

/-- `_validate_inherited_snapshot`. -/
def validateInheritedSnapshot (env : Env) (lease : Lease) (s : Snapshot) : Result Unit :=
  require (s.stateRevision = lease.stateRevision ∧ s.ownerEpochId = lease.ownerEpochId ∧
    s.ownerEpochHash = lease.ownerEpochHash ∧ s.functionalAccountFingerprint = lease.accountFingerprint ∧
    s.credentialConfigurationHash = lease.credentialConfigurationHash ∧
    env.controlHash s.controlReservation = lease.controlReservationHash)
    (refused "KIS owner epoch/state/account/credential lease changed")

/-- The inherited snapshot, where there is a lease already. -/
def validateInherited (env : Env) (lease : Option Lease) (s : Snapshot) : Result Unit :=
  match lease with
  | some lease => validateInheritedSnapshot env lease s
  | none => .ok ()

/-- The account and the credentials of the snapshot are those of the intent. -/
def sameAccount (s : Snapshot) (intent : Intent) : Bool :=
  s.functionalAccountFingerprint = intent.accountFingerprint &&
    s.credentialConfigurationHash = intent.credentialConfigurationHash

/-- A functional phase keeps the ordinary routes closed. -/
def functionalOpen (s : Snapshot) : Bool :=
  s.functionalAuthorityOpen || s.functionalPhase ∈ openPhases || s.ordinaryRoutesClosed

/-- The reservation of a kill or a stop that lets a cleanup go on. -/
def controlAllows (kinds : List String) (s : Snapshot) : Bool :=
  match s.controlReservation with
  | none => true
  | some c => c.reservationKind ∈ kinds && c.phase = "CLEANUP"

/-- The durable intent of the snapshot is the sealed one. -/
def durableIs (env : Env) (value : Json) (intent : Intent) : Bool :=
  match normalizeIntent value intent.operation with
  | .ok durable => env.intentHash durable = env.intentHash intent
  | .error _ => false

/-- `read` of `ordinary_kis_final_mutation_boundary`. -/
def readOrdinary (env : Env) (b : Sealed) (lease : Option Lease) (a : Answers) : Result Snapshot := do
  let short ← a.short
  let s ← readSnapshot a.snapshot
  validateInherited env lease s
  require (s.applicationInstanceLeaseHeld = true)
    (refused "ordinary KIS mutation requires the official application lease")
  require (s.controlReservation = none) (refused "ordinary KIS mutation blocked by active control reservation")
  require (short = true ∨ functionalOpen s = false) (refused "ordinary KIS mutation blocked by functional authority")
  require (sameAccount s b.intent = true) (refused "ordinary KIS account/credential authority changed")
  pure s

/-- `read` of `kill_ordinary_kis_cancel_boundary`. -/
def readKill (env : Env) (b : Sealed) (lease : Option Lease) (a : Answers) : Result Snapshot := do
  let s ← readSnapshot a.snapshot
  validateInherited env lease s
  require (s.applicationInstanceLeaseHeld = true) (refused "KIS Kill-cancel requires the official application lease")
  require (controlAllows ["KILL"] s = true) (refused "KIS Kill-cancel blocked by unrelated control reservation")
  require (s.killOrdinaryCancelAllowed = true ∧ s.killOrdinaryCancelRevision = b.expectedRevision)
    (refused "durable KIS Kill-cancel authority changed")
  require (durableIs env s.killOrdinaryCancelIntent b.intent = true ∧ sameAccount s b.intent = true)
    (refused "durable KIS Kill-cancel identity/payload changed")
  pure s

/-- The phases of a functional boundary. -/
def functionalPhases : Mode → List String
  | .functionalCleanup => ["CLEANUP", "RECONCILIATION_REQUIRED"]
  | _ => ["ACTIVE"]

/-- `read` of `functional_kis_final_mutation_boundary`. -/
def readFunctional (env : Env) (b : Sealed) (lease : Option Lease) (a : Answers) : Result Snapshot := do
  let s ← readSnapshot a.snapshot
  validateInherited env lease s
  checkExclusion b.operation a
  require (s.controlReservation = none ∨ (b.mode = .functionalCleanup ∧ controlAllows ["STOP", "KILL"] s = true))
    (refused "functional KIS mutation blocked by control reservation")
  require (s.functionalAuthorityOpen = true ∧ s.applicationInstanceLeaseHeld = true ∧ s.ordinaryRoutesClosed = true ∧
    s.functionalSessionId = b.sessionId ∧ s.functionalPhase ∈ functionalPhases b.mode ∧
    s.functionalRevision = b.expectedRevision ∧ s.stateRevision = b.expectedRevision ∧ sameAccount s b.intent = true ∧
    durableIs env s.functionalMutationIntent b.intent = true ∧ (b.emergencyActive = true → b.mode = .functionalCleanup))
    (refused "functional KIS phase/session/revision authority changed")
  pure s

/-- `read` of the scoped boundaries. -/
def readScoped (env : Env) (b : Sealed) (lease : Option Lease) (a : Answers) : Result Snapshot := do
  let s ← readSnapshot a.snapshot
  validateInherited env lease s
  require (s.applicationInstanceLeaseHeld = true ∧ s.controlReservation = none)
    (refused "KIS operational lease/control changed")
  require (sameAccount s b.intent = true) (refused "KIS operational exact wire account/credentials changed")
  scopedRead a
  pure s

/-- The `read` that a boundary keeps. -/
def Sealed.read (env : Env) (b : Sealed) (lease : Option Lease) (a : Answers) (endpoint payloadHash : String) :
    Result Snapshot := do
  validateTransport b.intent endpoint payloadHash
  match b.mode with
  | .ordinary => readOrdinary env b lease a
  | .kill => readKill env b lease a
  | .functionalEntry | .functionalCleanup => readFunctional env b lease a
  | .scopedOperational | .scopedCleanup => readScoped env b lease a

/-! ## Entering a boundary -/

/-- The arguments of a boundary. -/
inductive Call where
  | ordinary (operation : Json) (intent : Json)
  | kill (intent : Json) (expectedRevision : Json)
  | functional (operation sessionId cleanupOnly expectedRevision intent : Json)
  | scopedOperational (operation : String) (intent : Json)
  | scopedCleanup (operation : String) (intent : Json)

/-- `_ENTRY_OPERATIONS` and `_CLEANUP_OPERATIONS`. -/
def functionalOperations (cleanupOnly : Bool) : List String :=
  if cleanupOnly then ["CLEANUP_CANCEL", "CLEANUP_SELL"] else ["NATURAL_BUY"]

/-- The checks of a functional boundary on its arguments. -/
def checkFunctional (a : Answers) (operation sessionId cleanupOnly expectedRevision intent : Json) : Result Sealed := do
  let operation ← validateOperation operation
  let sessionId ← checkText sessionId isIdentity "functional KIS session id is invalid"
  let cleanupOnly ← checkBool cleanupOnly "functional KIS cleanup flag is invalid"
  let expectedRevision ← checkInt expectedRevision 1 "functional KIS expected revision is invalid"
  require (operation ∈ functionalOperations cleanupOnly)
    (refused "functional KIS operation does not match entry/cleanup authority")
  let intent ← normalizeIntent intent operation
  checkExclusion operation a
  pure { mode := if cleanupOnly then .functionalCleanup else .functionalEntry, intent, sessionId, expectedRevision }

/-- What a boundary checks of its arguments before all else. -/
def Call.check (a : Answers) : Call → Result Sealed
  | .ordinary operation intent => do
    let operation ← validateOperation operation
    pure { mode := .ordinary, intent := ← normalizeIntent intent operation }
  | .kill intent expectedRevision => do
    let expectedRevision ← checkInt expectedRevision 1 "KIS Kill-cancel expected revision is invalid"
    pure { mode := .kill, intent := ← normalizeIntent intent "KILL_ORDINARY_CANCEL", expectedRevision }
  | .functional operation sessionId cleanupOnly expectedRevision intent =>
    checkFunctional a operation sessionId cleanupOnly expectedRevision intent
  | .scopedOperational operation intent => do
    require (operation = "PLACE_ORDER") (refused "KIS operational permit never grants cancellation")
    pure { mode := .scopedOperational, intent := ← normalizeIntent intent operation }
  | .scopedCleanup operation intent => do
    require (operation ∈ ["SCOPED_CANCEL_KR", "SCOPED_CANCEL_US"]) (refused "KIS STOP cleanup grants exact cancel only")
    pure { mode := .scopedCleanup, intent := ← normalizeIntent intent operation }

/-- What the emergency stop has to be. -/
def emergencyFits (mode : Mode) (active : Bool) : Bool :=
  match mode with
  | .kill => active
  | .functionalCleanup => true
  | _ => !active

/-- A nested boundary of the same authority. -/
def sameAuthority (env : Env) (b : Sealed) (lease : Lease) : Bool :=
  match b.mode with
  | .scopedOperational | .scopedCleanup => false
  | _ => lease.owner.mode = b.mode && lease.owner.operation = b.operation && lease.intentHash = env.intentHash b.intent &&
      lease.owner.sessionId = b.sessionId && (b.mode = .ordinary || lease.revision = b.expectedRevision)

/-- A lease of what the boundary has read first. -/
def Lease.of (env : Env) (b : Sealed) (serial : ℕ) (nonce : String) (s : Snapshot) : Lease where
  serial
  owner := b
  nonce
  intentHash := env.intentHash b.intent
  revision := if b.mode ∈ [.kill, .functionalEntry, .functionalCleanup] then b.expectedRevision else s.functionalRevision
  stateRevision := s.stateRevision
  ownerEpochId := s.ownerEpochId
  ownerEpochHash := s.ownerEpochHash
  accountFingerprint := s.functionalAccountFingerprint
  credentialConfigurationHash := s.credentialConfigurationHash
  controlReservationHash := env.controlHash s.controlReservation

end LiveTrader.OrderAuthority
