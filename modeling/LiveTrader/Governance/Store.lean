/-
# `Governance.Store` — the tables of the store and the calls that read them

`OperationalGovernanceStore` keeps manifests, preflight snapshots, runtime sessions and
incidents, each written once, and two logs of events, one chain per session and one per
incident.  What the lifecycle of a session or the state of an incident is, the last event
says; which preflight snapshot a session is bound to, its row says, or the last event of
type `PREFLIGHT_REBOUND`.

A column that holds a time in ISO form is the instant it stands for, a column that holds
JSON is the text `json.dumps` made.
-/
import LiveTrader.Governance.Records
import LiveTrader.Lib.EventChain

namespace LiveTrader.Governance

open Lib Lib.Py

/-! ## Enumerations -/

inductive Mode where
  | monitor | smallLive | fullLive
  deriving DecidableEq

/-- `RUNTIME_MODES`. -/
def runtimeModes : List (String × Mode) :=
  [("MONITOR", .monitor), ("SMALL_LIVE", .smallLive), ("FULL_LIVE", .fullLive)]

/-- `mode in LIVE_MODES`. -/
def Mode.isLive : Mode → Bool
  | .monitor => false
  | .smallLive => true
  | .fullLive => true

inductive Lifecycle where
  | preflight | starting | running | degraded | draining | stopping | stopped | failed
  deriving DecidableEq

def Lifecycle.text : Lifecycle → String
  | .preflight => "PREFLIGHT"
  | .starting => "STARTING"
  | .running => "RUNNING"
  | .degraded => "DEGRADED"
  | .draining => "DRAINING"
  | .stopping => "STOPPING"
  | .stopped => "STOPPED"
  | .failed => "FAILED"

/-- `RUNTIME_LIFECYCLES`. -/
def runtimeLifecycles : List (String × Lifecycle) :=
  [("PREFLIGHT", .preflight), ("STARTING", .starting), ("RUNNING", .running),
    ("DEGRADED", .degraded), ("DRAINING", .draining), ("STOPPING", .stopping), ("STOPPED", .stopped),
    ("FAILED", .failed)]

/-- `RUNTIME_TRANSITIONS.get(lifecycle, frozenset())`. -/
def runtimeTransitions : Lifecycle → List Lifecycle
  | .preflight => [.starting, .failed]
  | .starting => [.running, .degraded, .stopping, .failed]
  | .running => [.degraded, .draining, .stopping, .failed]
  | .degraded => [.running, .draining, .stopping, .failed]
  | .draining => [.stopping, .stopped, .failed]
  | .stopping => [.stopped, .failed]
  | .stopped => []
  | .failed => []

inductive IncidentState where
  | «open» | acknowledged | mitigating | resolved
  deriving DecidableEq

def IncidentState.text : IncidentState → String
  | .open => "OPEN"
  | .acknowledged => "ACKNOWLEDGED"
  | .mitigating => "MITIGATING"
  | .resolved => "RESOLVED"

/-- `INCIDENT_STATES`. -/
def incidentStates : List (String × IncidentState) :=
  [("OPEN", .open), ("ACKNOWLEDGED", .acknowledged), ("MITIGATING", .mitigating),
    ("RESOLVED", .resolved)]

/-- `INCIDENT_TRANSITIONS.get(state, frozenset())`. -/
def incidentTransitions : IncidentState → List IncidentState
  | .open => [.acknowledged, .mitigating, .resolved]
  | .acknowledged => [.mitigating, .resolved]
  | .mitigating => [.resolved]
  | .resolved => []

inductive Severity where
  | info | warning | error | critical
  deriving DecidableEq

def Severity.text : Severity → String
  | .info => "INFO"
  | .warning => "WARNING"
  | .error => "ERROR"
  | .critical => "CRITICAL"

/-- `INCIDENT_SEVERITIES`. -/
def incidentSeverities : List (String × Severity) :=
  [("INFO", .info), ("WARNING", .warning), ("ERROR", .error), ("CRITICAL", .critical)]

/-- `INCIDENT_SEVERITY_RANK`. -/
def Severity.rank : Severity → ℕ
  | .info => 0
  | .warning => 1
  | .error => 2
  | .critical => 3

inductive ScopeType where
  | global | deployment | session | route | strategy | instrument
  deriving DecidableEq

def ScopeType.text : ScopeType → String
  | .global => "GLOBAL"
  | .deployment => "DEPLOYMENT"
  | .session => "SESSION"
  | .route => "ROUTE"
  | .strategy => "STRATEGY"
  | .instrument => "INSTRUMENT"

/-- `INCIDENT_SCOPE_TYPES`. -/
def incidentScopeTypes : List (String × ScopeType) :=
  [("GLOBAL", .global), ("DEPLOYMENT", .deployment), ("SESSION", .session), ("ROUTE", .route),
    ("STRATEGY", .strategy), ("INSTRUMENT", .instrument)]

/-! ## Tables -/

variable (τ : Type)

structure ManifestRow where
  deploymentId : String
  revision : ℕ
  manifestHash : String
  previousManifestHash : String
  payloadJson : τ

structure SnapshotRow where
  snapshotId : String
  snapshotHash : String
  payloadJson : τ

structure SessionRow where
  sessionId : String
  deploymentId : String
  deploymentManifestHash : String
  preflightSnapshotId : String
  preflightSnapshotHash : String
  configRevision : ℤ
  configHash : String
  profile : String
  mode : Mode
  runtimeInstanceId : String
  createdAt : Instant
  metadataJson : τ

structure RuntimeEventRow where
  sessionId : String
  sequence : ℕ
  eventId : String
  previousHash : String
  eventHash : String
  lifecycle : Lifecycle
  eventType : String
  actor : String
  payloadJson : τ
  occurredAt : Instant

structure IncidentRow where
  incidentId : String
  dedupeKey : String
  code : String
  scopeType : ScopeType
  scopeId : String
  deploymentId : String
  sessionId : String
  accountFingerprint : String
  openedAt : Instant

structure IncidentEventRow where
  incidentId : String
  sequence : ℕ
  eventId : String
  previousHash : String
  eventHash : String
  state : IncidentState
  severity : Severity
  eventType : String
  actor : String
  evidenceHash : String
  payloadJson : τ
  occurredAt : Instant

structure Store where
  manifests : List (ManifestRow τ) := []
  snapshots : List (SnapshotRow τ) := []
  sessions : List (SessionRow τ) := []
  runtimeEvents : List (RuntimeEventRow τ) := []
  incidents : List IncidentRow := []
  incidentEvents : List (IncidentEventRow τ) := []

/-- The revisions of each deployment. -/
def manifestLog : Log (ManifestRow τ) String String where
  entity r := r.deploymentId
  sequence r := r.revision
  previous r := r.previousManifestHash
  hash r := r.manifestHash

/-- The events of each session. -/
def runtimeLog : Log (RuntimeEventRow τ) String String where
  entity r := r.sessionId
  sequence r := r.sequence
  previous r := r.previousHash
  hash r := r.eventHash

/-- The events of each incident. -/
def incidentLog : Log (IncidentEventRow τ) String String where
  entity r := r.incidentId
  sequence r := r.sequence
  previous r := r.previousHash
  hash r := r.eventHash

variable {τ}

/-- `INSERT` into a table in which no two rows may clash. -/
def insertRow {ρ : Type} (clash : ρ → ρ → Bool) (table : String) (rows : List ρ) (row : ρ) :
    Result (List ρ) := do
  require (rows.all fun r => !clash r row) (.integrity table)
  pure (rows ++ [row])

theorem insertRow_eq_ok {ρ : Type} {clash : ρ → ρ → Bool} {table : String} {rows rows' : List ρ}
    {row : ρ} : insertRow clash table rows row = .ok rows' ↔
      (∀ r ∈ rows, clash r row = false) ∧ rows ++ [row] = rows' := by
  simp only [insertRow, bind_eq_ok, require_eq_ok, pure_eq_ok, List.all_eq_true,
    Bool.not_eq_true', exists_and_left, exists_const]

/-- The primary key and the unique columns of each table. -/
def ManifestRow.clash (r r' : ManifestRow τ) : Bool :=
  r.manifestHash = r'.manifestHash || (r.deploymentId = r'.deploymentId && r.revision = r'.revision)

def SnapshotRow.clash (r r' : SnapshotRow τ) : Bool :=
  r.snapshotId = r'.snapshotId || r.snapshotHash = r'.snapshotHash

def SessionRow.clash (r r' : SessionRow τ) : Bool := r.sessionId = r'.sessionId

def RuntimeEventRow.clash (r r' : RuntimeEventRow τ) : Bool :=
  r.eventId = r'.eventId || r.eventHash = r'.eventHash ||
    (r.sessionId = r'.sessionId && r.sequence = r'.sequence)

def IncidentRow.clash (r r' : IncidentRow) : Bool := r.incidentId = r'.incidentId

def IncidentEventRow.clash (r r' : IncidentEventRow τ) : Bool :=
  r.eventId = r'.eventId || r.eventHash = r'.eventHash ||
    (r.incidentId = r'.incidentId && r.sequence = r'.sequence)

/-! ## Manifests and snapshots -/

variable (env : Env τ) (s : Store τ)

/-- `_manifest_from_row`. -/
def manifestFromRow (row : ManifestRow τ) : Result DeploymentManifest := do
  let payload ← env.loads row.payloadJson
  DeploymentManifest.fromDict env (← payload.fields)

/-- `_manifest_by_hash_conn`. -/
def manifestByHash (hash : String) : Result (Option DeploymentManifest) :=
  (s.manifests.find? (·.manifestHash = hash)).mapM (manifestFromRow env)

/-- `_latest_manifest_conn`. -/
def latestManifest (deploymentId : String) : Result (Option DeploymentManifest) :=
  ((manifestLog τ).tip s.manifests deploymentId).mapM (manifestFromRow env)

def snapshotFromRow (row : SnapshotRow τ) : Result PreflightSnapshot := do
  let payload ← env.loads row.payloadJson
  PreflightSnapshot.fromDict env (← payload.fields)

/-- `_preflight_conn`. -/
def preflight (snapshotId : String) : Result (Option PreflightSnapshot) :=
  (s.snapshots.find? (·.snapshotId = snapshotId)).mapM (snapshotFromRow env)

/-- What `preflight_validity` returns. -/
structure Validity where
  reasons : List String
  snapshot : Option PreflightSnapshot

def Validity.valid (v : Validity) : Bool := v.reasons.isEmpty

/-- The reason of the newest manifest, if it is not the one the snapshot was issued for. -/
def manifestReasons (snapshot : PreflightSnapshot) : Option DeploymentManifest → List String
  | none => ["deployment-manifest-missing"]
  | some latest =>
    if latest.manifestHash env ≠ snapshot.deploymentManifestHash.1 then ["deployment-manifest-superseded"]
    else if latest.configRevision.1 ≠ snapshot.configRevision.1 ∨
        latest.configHash.1 ≠ snapshot.configHash.1 then ["preflight-config-mismatch"]
    else []

/-- `_preflight_validity_conn`. -/
def preflightValidity (snapshotId : String) (current : Instant) : Result Validity := do
  match ← preflight env s snapshotId with
  | none => pure ⟨["preflight-snapshot-missing"], none⟩
  | some snapshot => do
    let status := if snapshot.status ≠ .pass then ["preflight-status-" ++ lower snapshot.status.text] else []
    let expired := if snapshot.isExpired current then ["preflight-expired"] else []
    let latest ← latestManifest env s snapshot.deploymentId.1
    pure ⟨status ++ expired ++ manifestReasons env snapshot latest, some snapshot⟩

/-! ## Sessions -/

structure RuntimeSession where
  sessionId : String
  deploymentId : String
  deploymentManifestHash : String
  preflightSnapshotId : String
  preflightSnapshotHash : String
  configRevision : ℤ
  configHash : String
  profile : String
  mode : Mode
  runtimeInstanceId : String
  lifecycle : Lifecycle
  createdAt : Instant
  metadata : Json

/-- A session, from its row, its binding, the lifecycle of its last event and its metadata. -/
def RuntimeSession.of (row : SessionRow τ) (bound : String × String) (lifecycle : Lifecycle)
    (metadata : Json) : RuntimeSession where
  sessionId := row.sessionId
  deploymentId := row.deploymentId
  deploymentManifestHash := row.deploymentManifestHash
  preflightSnapshotId := bound.1
  preflightSnapshotHash := bound.2
  configRevision := row.configRevision
  configHash := row.configHash
  profile := row.profile
  mode := row.mode
  runtimeInstanceId := row.runtimeInstanceId
  lifecycle := lifecycle
  createdAt := row.createdAt
  metadata := metadata

/-- The event type that rebinds a session to another preflight snapshot. -/
def preflightRebound : String := "PREFLIGHT_REBOUND"

/-- The last event of a session that rebinds it. -/
def reboundEvent (sessionId : String) : Option (RuntimeEventRow τ) :=
  (((runtimeLog τ).rowsOf s.runtimeEvents sessionId).filter (·.eventType = preflightRebound)).argmax
    (·.sequence)

/-- The snapshot named by the payload of such an event. -/
def readBinding (payload : Json) : Result (String × String) := do
  let payload ← payload.fields
  let id ← requiredText env (payload.at "preflightSnapshotId") "preflightSnapshotId"
  let hash ← requiredSha256 env (payload.at "preflightSnapshotHash") "preflightSnapshotHash"
  pure (id.1, hash.1)

/-- The snapshot a session is bound to: that of its row, or of the last rebinding event. -/
def binding (row : SessionRow τ) : Result (String × String) :=
  match reboundEvent s row.sessionId with
  | none => .ok (row.preflightSnapshotId, row.preflightSnapshotHash)
  | some event => do readBinding env (← env.loads event.payloadJson)

/-- `_runtime_session_conn`. -/
def runtimeSession (sessionId : String) : Result (Option RuntimeSession) :=
  match s.sessions.find? (·.sessionId = sessionId), (runtimeLog τ).tip s.runtimeEvents sessionId with
  | some row, some event => do
    let metadata ← env.loads row.metadataJson
    let bound ← binding env s row
    pure (some (.of row bound event.lifecycle metadata))
  | _, _ => pure none

/-! ## Incidents -/

structure Incident where
  row : IncidentRow
  state : IncidentState
  severity : Severity

/-- `_incident_conn`. -/
def incident (incidentId : String) : Option Incident := do
  let row ← s.incidents.find? (·.incidentId = incidentId)
  let event ← (incidentLog τ).tip s.incidentEvents incidentId
  pure ⟨row, event.state, event.severity⟩

/-- The incidents that are not resolved, by the state of their last event. -/
def isUnresolved (row : IncidentRow) : Bool :=
  match (incidentLog τ).tip s.incidentEvents row.incidentId with
  | some event => event.state ≠ .resolved
  | none => false

/-! ## Authorization -/

/-- `json_extract(payload_json, '$.brokerRoute')` of a manifest. -/
def brokerRouteOf (manifestHash : String) : Option String := do
  let row ← s.manifests.find? (·.manifestHash = manifestHash)
  match env.loads row.payloadJson with
  | .ok (.obj payload) =>
    match Fields.at payload "brokerRoute" with
    | .str route => some route
    | _ => none
  | _ => none

/-- The condition of `_blocking_incident_count_conn` on a row. -/
def blocks (session : RuntimeSession) (row : IncidentRow) : Bool :=
  match (incidentLog τ).tip s.incidentEvents row.incidentId with
  | none => false
  | some event =>
    event.state ≠ .resolved && event.severity = .critical &&
      (row.scopeType = .global || row.sessionId = session.sessionId ||
        row.deploymentId = session.deploymentId ||
        (row.scopeType = .session && row.scopeId = session.sessionId) ||
        (row.scopeType = .deployment && row.scopeId = session.deploymentId) ||
        (row.scopeType = .route && some row.scopeId = brokerRouteOf env s session.deploymentManifestHash))

/-- `_blocking_incident_count_conn`. -/
def blockingIncidentCount (session : RuntimeSession) : ℕ := s.incidents.countP (blocks env s session)

/-- What `runtime_authorization` returns. -/
structure Authorization where
  reasons : List String
  session : Option RuntimeSession

def Authorization.allowed (a : Authorization) : Bool := a.reasons.isEmpty

/-- The reasons of the preflight check, if it is asked for. -/
def freshReasons (session : RuntimeSession) (current : Instant) (requireFreshPreflight : Bool) :
    Result (List String) :=
  if requireFreshPreflight then do
    let validity ← preflightValidity env s session.preflightSnapshotId current
    pure validity.reasons
  else pure []

/-- `runtime_authorization`. -/
def runtimeAuthorization (sessionId : String) (time : When) (requireFreshPreflight : Bool) :
    Result Authorization := do
  let current ← utcIso env time "occurred_at"
  match ← runtimeSession env s sessionId with
  | none => pure ⟨["runtime-session-missing"], none⟩
  | some session => do
    let mode := if session.mode.isLive then [] else ["runtime-session-not-live"]
    let lifecycle := if session.lifecycle ≠ .running then ["runtime-session-" ++ lower session.lifecycle.text]
      else []
    let latest ← latestManifest env s session.deploymentId
    let superseded := if latest.map (·.manifestHash env) ≠ some session.deploymentManifestHash
      then ["deployment-manifest-superseded"] else []
    let fresh ← freshReasons env s session current requireFreshPreflight
    let count := blockingIncidentCount env s session
    let critical := if count ≠ 0 then ["critical-incidents:" ++ toString count] else []
    pure ⟨(mode ++ lifecycle ++ superseded ++ fresh ++ critical).eraseDups, some session⟩

end LiveTrader.Governance
