/-
# `Governance.Calls` — the calls that write, and the audit

Each public call of the store that writes is one transaction: its body returns the store
after it or raises, and a body that raises is rolled back.  Some calls read the row again
after the commit, with `afterCommit`; what raises there is raised by a call whose write
stands.

Identifiers that the code draws with `uuid4` are arguments here.  The last section is
`verify_integrity`.

An incident is opened under a key made of its code and its scope.  As long as one under
that key is not resolved, opening it again appends to it instead of making another.
-/
import LiveTrader.Governance.Store
import LiveTrader.Lib.Runs

namespace LiveTrader.Governance

open Lib Lib.Py Lib.Runs

variable {τ : Type}

/-! ## Transactions -/

/-- `with self._transaction()`: the store afterwards, and what is returned or raised. -/
def transaction {α : Type} (s : Store τ) (body : Result (Store τ × α)) : Store τ × Result α :=
  match body with
  | .ok (s', a) => (s', .ok a)
  | .error e => (s, .error e)

/-- What a call reads after its transaction is committed. -/
def afterCommit {α β : Type} (done : Store τ × Result α) (read : Store τ → α → Result β) :
    Store τ × Result β :=
  (done.1, done.2 >>= read done.1)

variable (env : Env τ)

/-! ## Manifests -/

structure ManifestArgs where
  deploymentId : String
  strategyArtifactHash : String
  portfolioArtifactHash : String
  accountFingerprint : String
  brokerRoute : String
  runtimeVersion : String
  buildHash : String
  executionAdapter : String
  executionAdapterVersion : String
  riskPolicyRevision : Json
  riskPolicyHash : String
  configRevision : Json
  configHash : String
  preflightTtlSeconds : Json
  metadata : Fields
  createdAt : When

/-- The arguments of the constructor, after the tip of the deployment. -/
def manifestInput (a : ManifestArgs) (deploymentId : RequiredText) (tip : Option (ManifestRow τ))
    (occurredAt : Instant) : ManifestInput where
  deploymentId := deploymentId.1
  revision := .int ((manifestLog τ).nextSequence tip)
  previousManifestHash := (manifestLog τ).nextPrevious "" tip
  strategyArtifactHash := a.strategyArtifactHash
  portfolioArtifactHash := a.portfolioArtifactHash
  accountFingerprint := a.accountFingerprint
  brokerRoute := a.brokerRoute
  runtimeVersion := a.runtimeVersion
  buildHash := a.buildHash
  executionAdapter := a.executionAdapter
  executionAdapterVersion := a.executionAdapterVersion
  riskPolicyRevision := a.riskPolicyRevision
  riskPolicyHash := a.riskPolicyHash
  configRevision := a.configRevision
  configHash := a.configHash
  preflightTtlSeconds := a.preflightTtlSeconds
  createdAt := .text (env.isoformat occurredAt)
  metadata := a.metadata
  schemaVersion := deploymentManifestSchemaVersion

/-- The row a manifest is stored in. -/
def ManifestRow.of (m : DeploymentManifest) : ManifestRow τ where
  deploymentId := m.deploymentId.1
  revision := m.revision.1.toNat
  manifestHash := m.manifestHash env
  previousManifestHash := m.previousManifestHash.1.1
  payloadJson := env.dumps (.obj (m.toDictWithHash env))

/-- The body of `create_deployment_manifest`. -/
def createDeploymentManifestBody (s : Store τ) (a : ManifestArgs) :
    Result (Store τ × DeploymentManifest) := do
  let deploymentId ← requiredText env (.str a.deploymentId) "deployment_id"
  let occurredAt ← utcIso env a.createdAt "occurred_at"
  let tip := (manifestLog τ).tip s.manifests deploymentId.1
  let manifest ← DeploymentManifest.make env (manifestInput env a deploymentId tip occurredAt)
  sqliteInt manifest.configRevision.1
  let manifests ← insertRow ManifestRow.clash "live_deployment_manifests" s.manifests (.of env manifest)
  pure ({ s with manifests }, manifest)

def createDeploymentManifest (s : Store τ) (a : ManifestArgs) : Store τ × Result DeploymentManifest :=
  transaction s (createDeploymentManifestBody env s a)

/-! ## Preflight snapshots -/

structure SnapshotArgs where
  deploymentId : String
  deploymentManifestHash : String
  checks : List Fields
  reconciliationHash : String
  brokerSnapshotHash : String
  ttlSeconds : Option ℤ
  metadata : Fields
  issuedAt : When
  snapshotId : String
  /-- The identifier drawn when none is given. -/
  newId : String

/-- The newest manifest of a deployment, named by its hash. -/
def currentManifest (s : Store τ) (deploymentId : String) (manifestHash : Sha256) :
    Result DeploymentManifest := do
  let mismatch : Error := .value "deployment manifest does not match deployment_id"
  let superseded : Error := .value "deployment manifest has been superseded"
  let manifest ← orRaise mismatch (← manifestByHash env s manifestHash.1)
  require (manifest.deploymentId.1 = strip deploymentId) mismatch
  let latest ← orRaise superseded (← latestManifest env s manifest.deploymentId.1)
  require (latest.manifestHash env = manifest.manifestHash env) superseded
  pure manifest

/-- `issued + timedelta(seconds=ttl)`. -/
def expiry (issued : Instant) (ttl : ℤ) : Result Instant :=
  if h : InRange (issued.1 + Datetime.seconds ttl) then .ok ⟨_, h⟩
  else .error (.runtime "date value out of range")

/-- The arguments of the constructor. -/
def snapshotInput (a : SnapshotArgs) (manifest : DeploymentManifest) (checks : Checks)
    (issued expires : Instant) : SnapshotInput where
  snapshotId := orElse a.snapshotId a.newId
  deploymentId := manifest.deploymentId.1
  deploymentRevision := .int manifest.revision.1
  deploymentManifestHash := manifest.manifestHash env
  accountFingerprint := manifest.accountFingerprint.1
  brokerRoute := manifest.brokerRoute.1
  configRevision := .int manifest.configRevision.1
  configHash := manifest.configHash.1
  reconciliationHash := a.reconciliationHash
  brokerSnapshotHash := a.brokerSnapshotHash
  status := (preflightStatus checks).text
  checks := checks.list.map (·.toDict)
  issuedAt := .text (env.isoformat issued)
  expiresAt := .text (env.isoformat expires)
  metadata := a.metadata
  schemaVersion := preflightSnapshotSchemaVersion

/-- The row a snapshot is stored in. -/
def SnapshotRow.of (snapshot : PreflightSnapshot) : SnapshotRow τ where
  snapshotId := snapshot.snapshotId.1
  snapshotHash := snapshot.snapshotHash env
  payloadJson := env.dumps (.obj (snapshot.toDictWithHash env))

/-- The body of `create_preflight_snapshot`. -/
def createPreflightSnapshotBody (s : Store τ) (a : SnapshotArgs) :
    Result (Store τ × PreflightSnapshot) := do
  let manifestHash ← requiredSha256 env (.str a.deploymentManifestHash) "deployment_manifest_hash"
  let issued ← utcIso env a.issuedAt "occurred_at"
  let manifest ← currentManifest env s a.deploymentId manifestHash
  let ttl := a.ttlSeconds.getD manifest.preflightTtlSeconds.1
  require (1 ≤ ttl ∧ ttl ≤ min manifest.preflightTtlSeconds.1 3600)
    (.value "preflight TTL exceeds the deployment policy")
  let checks ← normalizedPreflightChecks env a.checks
  let expires ← expiry issued ttl
  let snapshot ← PreflightSnapshot.make env (snapshotInput env a manifest checks issued expires)
  let snapshots ← insertRow SnapshotRow.clash "live_preflight_snapshots" s.snapshots (.of env snapshot)
  pure ({ s with snapshots }, snapshot)

def createPreflightSnapshot (s : Store τ) (a : SnapshotArgs) : Store τ × Result PreflightSnapshot :=
  transaction s (createPreflightSnapshotBody env s a)

/-! ## Runtime events -/

/-- `RUNTIME_EVENT_SCHEMA_VERSION`. -/
def runtimeEventSchemaVersion : String := "live-runtime-event-v1"

/-- What the hash of a runtime event is made of. -/
def RuntimeEventRow.base (r : RuntimeEventRow τ) (payload : Fields) : Fields :=
  [("schemaVersion", .str runtimeEventSchemaVersion), ("sessionId", .str r.sessionId),
    ("sequence", .int r.sequence), ("eventId", .str r.eventId), ("previousHash", .str r.previousHash),
    ("lifecycle", .str r.lifecycle.text), ("eventType", .str r.eventType), ("actor", .str r.actor),
    ("payload", .obj payload), ("occurredAt", .str (env.isoformat r.occurredAt))]

/-- The event of a session to be written, before it is numbered and hashed. -/
structure RuntimeEventArgs where
  lifecycle : Lifecycle
  eventType : String
  actor : String
  payload : Fields
  occurredAt : Instant
  /-- The identifier drawn for the event. -/
  eventId : String

/-- The row of an event after the tip of its session. -/
def runtimeEventRow (sessionId : String) (a : RuntimeEventArgs) (eventType actor : RequiredText)
    (payload : Fields) (tip : Option (RuntimeEventRow τ)) : RuntimeEventRow τ :=
  let row : RuntimeEventRow τ := {
    sessionId
    sequence := (runtimeLog τ).nextSequence tip
    eventId := a.eventId
    previousHash := (runtimeLog τ).nextPrevious "" tip
    eventHash := ""
    lifecycle := a.lifecycle
    eventType := eventType.1
    actor := actor.1
    payloadJson := env.dumps (.obj payload)
    occurredAt := a.occurredAt }
  { row with eventHash := stableSha256 env (.obj (row.base env payload)) }

/-- `_append_runtime_event_conn`. -/
def appendRuntimeEventConn (s : Store τ) (sessionId : String) (a : RuntimeEventArgs) :
    Result (Store τ × RuntimeEventRow τ) := do
  let eventType ← requiredText env (.str a.eventType) "event_type"
  let actor ← requiredText env (.str a.actor) "actor"
  let payload ← jsonObject env a.payload "payload"
  let tip := (runtimeLog τ).tip s.runtimeEvents sessionId
  require (∀ previous ∈ tip, previous.occurredAt.1 ≤ a.occurredAt.1)
    (.value "runtime event time cannot move backwards")
  let row := runtimeEventRow env sessionId a eventType actor payload tip
  let runtimeEvents ← insertRow RuntimeEventRow.clash "live_runtime_events" s.runtimeEvents row
  pure ({ s with runtimeEvents }, row)

/-! ## Runtime sessions -/

structure SessionArgs where
  deploymentId : String
  deploymentManifestHash : String
  profile : String
  mode : String
  runtimeInstanceId : String
  preflightSnapshotId : String
  actor : String
  metadata : Fields
  occurredAt : When
  sessionId : String
  /-- The identifier drawn when none is given. -/
  newId : String
  /-- The identifier drawn for the event. -/
  eventId : String

/-- The preflight snapshot a session is created with. -/
def sessionPreflight (s : Store τ) (manifest : DeploymentManifest) (mode : Mode) (snapshotId : String)
    (current : Instant) : Result (Option PreflightSnapshot) :=
  if snapshotId ≠ "" then do
    let validity ← preflightValidity env s snapshotId current
    require (validity.valid = true)
      (.value ("preflight snapshot is not valid: " ++ String.intercalate ", " validity.reasons))
    let outside : Error := .value "preflight snapshot is outside the deployment scope"
    let snapshot ← orRaise outside (← preflight env s snapshotId)
    require (snapshot.deploymentManifestHash.1 = manifest.manifestHash env) outside
    pure (some snapshot)
  else do
    require (mode.isLive = false) (.value "a valid preflight snapshot is required for live mode")
    pure none

/-- The row of a new session. -/
def sessionRow (a : SessionArgs) (manifest : DeploymentManifest) (snapshot : Option PreflightSnapshot)
    (mode : Mode) (profile runtimeInstanceId : RequiredText) (metadata : Fields) (current : Instant) :
    SessionRow τ where
  sessionId := orElse a.sessionId a.newId
  deploymentId := manifest.deploymentId.1
  deploymentManifestHash := manifest.manifestHash env
  preflightSnapshotId := (snapshot.map (·.snapshotId.1)).getD ""
  preflightSnapshotHash := (snapshot.map (·.snapshotHash env)).getD ""
  configRevision := manifest.configRevision.1
  configHash := manifest.configHash.1
  profile := profile.1
  mode := mode
  runtimeInstanceId := runtimeInstanceId.1
  createdAt := current
  metadataJson := env.dumps (.obj metadata)

/-- The first event of a session. -/
def sessionCreated (row : SessionRow τ) (actor : String) (eventId : String) : RuntimeEventArgs where
  lifecycle := .preflight
  eventType := "SESSION_CREATED"
  actor := actor
  payload := [("deploymentManifestHash", .str row.deploymentManifestHash),
    ("preflightSnapshotHash", .str row.preflightSnapshotHash)]
  occurredAt := row.createdAt
  eventId := eventId

/-- The body of `create_runtime_session`. -/
def createRuntimeSessionBody (s : Store τ) (a : SessionArgs) : Result (Store τ × String) := do
  let mode ← enumText runtimeModes a.mode "runtime mode"
  let current ← utcIso env a.occurredAt "occurred_at"
  let manifestHash ← requiredSha256 env (.str a.deploymentManifestHash) "deployment_manifest_hash"
  let manifest ← currentManifest env s a.deploymentId manifestHash
  let snapshot ← sessionPreflight env s manifest mode a.preflightSnapshotId current
  let metadata ← jsonObject env a.metadata "metadata"
  let profile ← requiredText env (.str a.profile) "profile"
  let runtimeInstanceId ← requiredText env (.str a.runtimeInstanceId) "runtime_instance_id"
  let row := sessionRow env a manifest snapshot mode profile runtimeInstanceId metadata current
  let sessions ← insertRow SessionRow.clash "live_runtime_sessions" s.sessions row
  let (s', _) ← appendRuntimeEventConn env { s with sessions } row.sessionId
    (sessionCreated row a.actor a.eventId)
  pure (s', row.sessionId)

/-- `get_runtime_session`, of a session that is there. -/
def readSession (missing : String) (s : Store τ) (sessionId : String) : Result RuntimeSession := do
  orRaise (.runtime missing) (← runtimeSession env s sessionId)

def createRuntimeSession (s : Store τ) (a : SessionArgs) : Store τ × Result RuntimeSession :=
  afterCommit (transaction s (createRuntimeSessionBody env s a))
    (readSession env "runtime session was not persisted")

structure EventArgs where
  sessionId : String
  eventType : String
  actor : String
  payload : Fields
  occurredAt : When
  eventId : String

/-- The session a call is about. -/
def knownSession (s : Store τ) (sessionId : String) : Result RuntimeSession := do
  orRaise (.value "runtime session not found") (← runtimeSession env s sessionId)

/-- The body of `transition_runtime_session`. -/
def transitionRuntimeSessionBody (s : Store τ) (lifecycle : String) (a : EventArgs) :
    Result (Store τ × String) := do
  let target ← enumText runtimeLifecycles lifecycle "runtime lifecycle"
  let current ← utcIso env a.occurredAt "occurred_at"
  let session ← knownSession env s a.sessionId
  require (target ≠ session.lifecycle) (.value "use append_runtime_event for a non-transition event")
  require (target ∈ runtimeTransitions session.lifecycle)
    (.value ("invalid runtime transition: " ++ session.lifecycle.text ++ " -> " ++ target.text))
  let (s', _) ← appendRuntimeEventConn env s session.sessionId
    ⟨target, a.eventType, a.actor, a.payload, current, a.eventId⟩
  pure (s', a.sessionId)

def transitionRuntimeSession (s : Store τ) (lifecycle : String) (a : EventArgs) :
    Store τ × Result RuntimeSession :=
  afterCommit (transaction s (transitionRuntimeSessionBody env s lifecycle a))
    (readSession env "runtime session disappeared")

structure RebindArgs where
  sessionId : String
  preflightSnapshotId : String
  actor : String
  occurredAt : When
  eventId : String

/-- The payload of the event of `rebind_runtime_preflight`. -/
def rebindPayload (session : RuntimeSession) (replacement : PreflightSnapshot) : Fields :=
  [("previousPreflightSnapshotId", .str session.preflightSnapshotId),
    ("previousPreflightSnapshotHash", .str session.preflightSnapshotHash),
    ("preflightSnapshotId", .str replacement.snapshotId.1),
    ("preflightSnapshotHash", .str (replacement.snapshotHash env)),
    ("deploymentManifestHash", .str session.deploymentManifestHash),
    ("configHash", .str session.configHash),
    ("accountFingerprint", .str replacement.accountFingerprint.1)]

/-- The valid snapshot that `rebind_runtime_preflight` accepts for a session. -/
def replacementPreflight (s : Store τ) (session : RuntimeSession) (snapshotId : String)
    (current : Instant) : Result PreflightSnapshot := do
  let validity ← preflightValidity env s snapshotId current
  require (validity.valid = true)
    (.value ("replacement preflight snapshot is not valid: " ++ String.intercalate ", " validity.reasons))
  let replacement ← orRaise (.value "replacement preflight snapshot is missing")
    (← preflight env s snapshotId)
  require (replacement.deploymentId.1 = session.deploymentId ∧
      replacement.deploymentManifestHash.1 = session.deploymentManifestHash ∧
      replacement.configRevision.1 = session.configRevision ∧
      replacement.configHash.1 = session.configHash)
    (.value "replacement preflight snapshot is outside the runtime session scope")
  let manifest ← manifestByHash env s session.deploymentManifestHash
  require (manifest.map (·.accountFingerprint) = some replacement.accountFingerprint)
    (.value "replacement preflight account fingerprint does not match the session")
  pure replacement

/-- The body of `rebind_runtime_preflight`. -/
def rebindRuntimePreflightBody (s : Store τ) (a : RebindArgs) : Result (Store τ × String) := do
  let current ← utcIso env a.occurredAt "occurred_at"
  let session ← knownSession env s a.sessionId
  require (session.lifecycle = .running ∨ session.lifecycle = .degraded)
    (.value "runtime preflight can only be rebound while RUNNING or DEGRADED")
  let replacement ← replacementPreflight env s session a.preflightSnapshotId current
  let (s', _) ← appendRuntimeEventConn env s session.sessionId
    ⟨session.lifecycle, preflightRebound, a.actor, rebindPayload env session replacement, current,
      a.eventId⟩
  pure (s', a.sessionId)

def rebindRuntimePreflight (s : Store τ) (a : RebindArgs) : Store τ × Result RuntimeSession :=
  afterCommit (transaction s (rebindRuntimePreflightBody env s a))
    (readSession env "runtime session disappeared")

/-- The body of `append_runtime_event`. -/
def appendRuntimeEventBody (s : Store τ) (a : EventArgs) : Result (Store τ × RuntimeEventRow τ) := do
  let current ← utcIso env a.occurredAt "occurred_at"
  let session ← knownSession env s a.sessionId
  appendRuntimeEventConn env s session.sessionId
    ⟨session.lifecycle, a.eventType, a.actor, a.payload, current, a.eventId⟩

def appendRuntimeEvent (s : Store τ) (a : EventArgs) : Store τ × Result (RuntimeEventRow τ) :=
  transaction s (appendRuntimeEventBody env s a)

end LiveTrader.Governance

namespace LiveTrader.Governance

open Lib Lib.Py

/-! ## The calls on incidents -/

variable {τ : Type} (env : Env τ)

/-! ## Events -/

/-- `INCIDENT_EVENT_SCHEMA_VERSION`. -/
def incidentEventSchemaVersion : String := "live-incident-event-v1"

/-- What the hash of an incident event is made of. -/
def IncidentEventRow.base (r : IncidentEventRow τ) (payload : Fields) : Fields :=
  [("schemaVersion", .str incidentEventSchemaVersion), ("incidentId", .str r.incidentId),
    ("sequence", .int r.sequence), ("eventId", .str r.eventId), ("previousHash", .str r.previousHash),
    ("state", .str r.state.text), ("severity", .str r.severity.text), ("eventType", .str r.eventType),
    ("actor", .str r.actor), ("evidenceHash", .str r.evidenceHash), ("payload", .obj payload),
    ("occurredAt", .str (env.isoformat r.occurredAt))]

/-- The event of an incident to be written, before it is numbered and hashed. -/
structure IncidentEventArgs where
  state : IncidentState
  severity : String
  eventType : String
  actor : String
  evidenceHash : OptionalSha256
  payload : Fields
  occurredAt : Instant
  /-- The identifier drawn for the event. -/
  eventId : String

/-- The row of an event after the tip of its incident. -/
def incidentEventRow (incidentId : String) (a : IncidentEventArgs) (severity : Severity)
    (eventType actor : RequiredText) (payload : Fields) (tip : Option (IncidentEventRow τ)) :
    IncidentEventRow τ :=
  let row : IncidentEventRow τ := {
    incidentId
    sequence := (incidentLog τ).nextSequence tip
    eventId := a.eventId
    previousHash := (incidentLog τ).nextPrevious "" tip
    eventHash := ""
    state := a.state
    severity := severity
    eventType := eventType.1
    actor := actor.1
    evidenceHash := a.evidenceHash.1
    payloadJson := env.dumps (.obj payload)
    occurredAt := a.occurredAt }
  { row with eventHash := stableSha256 env (.obj (row.base env payload)) }

/-- `_append_incident_event_conn`. -/
def appendIncidentEventConn (s : Store τ) (incidentId : String) (a : IncidentEventArgs) :
    Result (Store τ × IncidentEventRow τ) := do
  let severity ← enumText incidentSeverities a.severity "incident severity"
  let eventType ← requiredText env (.str a.eventType) "event_type"
  let actor ← requiredText env (.str a.actor) "actor"
  let payload ← jsonObject env a.payload "payload"
  let tip := (incidentLog τ).tip s.incidentEvents incidentId
  require (∀ previous ∈ tip, previous.occurredAt.1 ≤ a.occurredAt.1)
    (.value "incident event time cannot move backwards")
  require (∀ previous ∈ tip, previous.severity.rank ≤ severity.rank)
    (.value "incident severity cannot be downgraded")
  let row := incidentEventRow env incidentId a severity eventType actor payload tip
  let incidentEvents ← insertRow IncidentEventRow.clash "live_incident_events" s.incidentEvents row
  pure ({ s with incidentEvents }, row)

/-! ## Opening -/

structure OpenArgs where
  code : String
  scopeType : String
  scopeId : String
  severity : String
  actor : String
  deploymentId : String
  sessionId : String
  accountFingerprint : String
  evidenceHash : String
  payload : Fields
  occurredAt : When
  incidentId : String
  /-- The identifier drawn when none is given. -/
  newId : String
  /-- The identifier drawn for the event. -/
  eventId : String

/-- The row of a new incident. -/
def incidentRow (a : OpenArgs) (code : String) (scopeType : ScopeType) (scopeId : RequiredText)
    (account : OptionalSha256) (current : Instant) : IncidentRow where
  incidentId := orElse a.incidentId a.newId
  dedupeKey := stableSha256 env (.obj
    [("code", .str code), ("scopeType", .str scopeType.text), ("scopeId", .str scopeId.1),
      ("deploymentId", .str (strip a.deploymentId)), ("sessionId", .str (strip a.sessionId))])
  code := code
  scopeType := scopeType
  scopeId := scopeId.1
  deploymentId := strip a.deploymentId
  sessionId := strip a.sessionId
  accountFingerprint := account.1
  openedAt := current

/-- The newest incident under a key that is not resolved. -/
def activeIncident (s : Store τ) (dedupeKey : String) : Option IncidentRow :=
  (s.incidents.filter fun row => row.dedupeKey = dedupeKey && isUnresolved s row).argmax
    fun row => (env.isoformat row.openedAt).toList

/-- An incident that a row was found for. -/
def readIncident (missing : String) (s : Store τ) (incidentId : String) : Result Incident :=
  orRaise (.runtime missing) (incident s incidentId)

/-- `open_incident` where an incident under the key is not resolved. -/
def observeIncident (s : Store τ) (row : IncidentRow) (a : IncidentState → IncidentEventArgs) :
    Result (Store τ × Incident × Bool) := do
  let existing ← readIncident "active incident disappeared" s row.incidentId
  let (s', _) ← appendIncidentEventConn env s existing.row.incidentId (a existing.state)
  let updated ← readIncident "incident disappeared" s' existing.row.incidentId
  pure (s', updated, false)

/-- `open_incident` where there is none. -/
def insertIncident (s : Store τ) (row : IncidentRow) (a : IncidentState → IncidentEventArgs) :
    Result (Store τ × Incident × Bool) := do
  let incidents ← insertRow IncidentRow.clash "live_incidents" s.incidents row
  let (s', _) ← appendIncidentEventConn env { s with incidents } row.incidentId (a .open)
  let created ← readIncident "incident was not persisted" s' row.incidentId
  pure (s', created, true)

/-- The body of `open_incident`. -/
def openIncidentBody (s : Store τ) (a : OpenArgs) : Result (Store τ × Incident × Bool) := do
  let code ← requiredText env (.str a.code) "code"
  let scopeType ← enumText incidentScopeTypes a.scopeType "incident scope"
  let scopeId ← requiredText env (.str a.scopeId) "scope_id"
  let severity ← enumText incidentSeverities a.severity "incident severity"
  let account ← optionalSha256 env (.str a.accountFingerprint) "account_fingerprint"
  let evidence ← optionalSha256 env (.str a.evidenceHash) "evidence_hash"
  let current ← utcIso env a.occurredAt "occurred_at"
  let payload ← jsonObject env a.payload "payload"
  let row := incidentRow env a (env.upper code.1) scopeType scopeId account current
  let event (eventType : String) (state : IncidentState) : IncidentEventArgs :=
    ⟨state, severity.text, eventType, a.actor, evidence, payload, current, a.eventId⟩
  match activeIncident env s row.dedupeKey with
  | some existing => observeIncident env s existing (event "INCIDENT_OBSERVED")
  | none => insertIncident env s row (event "INCIDENT_OPENED")

def openIncident (s : Store τ) (a : OpenArgs) : Store τ × Result (Incident × Bool) :=
  transaction s (openIncidentBody env s a)

/-! ## Changes -/

structure IncidentArgs where
  incidentId : String
  eventType : String
  actor : String
  severity : Option String
  evidenceHash : String
  payload : Fields
  occurredAt : When
  eventId : String

/-- The incident a call is about. -/
def knownIncident (s : Store τ) (incidentId : String) : Result Incident :=
  orRaise (.value "incident not found") (incident s incidentId)

/-- The body of `transition_incident`. -/
def transitionIncidentBody (s : Store τ) (state : String) (a : IncidentArgs) :
    Result (Store τ × String) := do
  let target ← enumText incidentStates state "incident state"
  let current ← utcIso env a.occurredAt "occurred_at"
  let known ← knownIncident s a.incidentId
  require (target ≠ known.state) (.value "use append_incident_event for a non-transition event")
  require (target ∈ incidentTransitions known.state)
    (.value ("invalid incident transition: " ++ known.state.text ++ " -> " ++ target.text))
  let evidence ← optionalSha256 env (.str a.evidenceHash) "evidence_hash"
  let (s', _) ← appendIncidentEventConn env s known.row.incidentId
    ⟨target, a.severity.getD known.severity.text, a.eventType, a.actor, evidence, a.payload, current,
      a.eventId⟩
  pure (s', a.incidentId)

def transitionIncident (s : Store τ) (state : String) (a : IncidentArgs) : Store τ × Result Incident :=
  afterCommit (transaction s (transitionIncidentBody env s state a)) (readIncident "incident disappeared")

/-- `resolve_incident`; it takes no severity and no event type. -/
def resolveIncident (s : Store τ) (a : IncidentArgs) : Store τ × Result Incident :=
  transitionIncident env s "RESOLVED" { a with severity := none, eventType := "INCIDENT_RESOLVED" }

/-- The body of `append_incident_event`. -/
def appendIncidentEventBody (s : Store τ) (a : IncidentArgs) :
    Result (Store τ × IncidentEventRow τ) := do
  let current ← utcIso env a.occurredAt "occurred_at"
  let known ← knownIncident s a.incidentId
  require (known.state ≠ .resolved) (.value "resolved incidents are terminal")
  let evidence ← optionalSha256 env (.str a.evidenceHash) "evidence_hash"
  appendIncidentEventConn env s known.row.incidentId
    ⟨known.state, orElse (a.severity.getD "") known.severity.text, a.eventType, a.actor, evidence,
      a.payload, current, a.eventId⟩

def appendIncidentEvent (s : Store τ) (a : IncidentArgs) : Store τ × Result (IncidentEventRow τ) :=
  transaction s (appendIncidentEventBody env s a)

end LiveTrader.Governance
