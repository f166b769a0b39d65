/-
# `Governance.Steps` — the audit of a store, its runs, and what a call can do

`verify_integrity` reads every table again: it parses each manifest and each snapshot,
follows the chain of every deployment, session and incident, and compares every hash with
the one it computes itself.  `Action` lists the public calls that write; a run is any list
of them with any arguments, raising or not.

`Change env s act s'` lists the ways a call takes a store to another: it raises and leaves
the store alone, or it appends one manifest, one snapshot, one session with its first
event, one event of a session, one incident with its first event, or one event of an
incident.  `perform_change` says that every call is one of these; nothing after it unfolds
a call.
-/
import LiveTrader.Governance.Calls

namespace LiveTrader.Governance

open Lib Lib.Py Lib.Runs

variable {τ : Type} (env : Env τ)

/-! ## `verify_integrity` -/

/-- What a loop over the rows of a table keeps: the number and the hash it saw last of
each entity, and the issues it found. -/
structure Audit where
  sequences : Dict String ℕ := []
  hashes : Dict String String := []
  issues : List String

/-- `issues.append(text)` where the condition fails. -/
def noting (condition : Prop) [Decidable condition] (text : String) : List String :=
  if condition then [] else [text]

/-- One round of the loop over the manifests. -/
def auditManifest (audit : Audit) (row : ManifestRow τ) : Result Audit :=
  let name := "deployment:" ++ row.deploymentId
  match manifestFromRow env row with
  | .error (.value text) =>
    .ok { audit with issues := audit.issues ++ [name ++ ":" ++ toString row.revision ++ ":" ++ text] }
  | .error e => .error e
  | .ok manifest =>
    let found :=
      noting (manifest.revision.1 = (audit.sequences.get row.deploymentId 0 + 1 : ℕ))
        (name ++ ":revision-gap") ++
      noting (manifest.previousManifestHash.1.1 = audit.hashes.get row.deploymentId "")
        (name ++ ":previous-hash-mismatch") ++
      noting (manifest.manifestHash env = row.manifestHash) (name ++ ":row-hash-mismatch")
    .ok {
      sequences := audit.sequences.set row.deploymentId manifest.revision.1.toNat
      hashes := audit.hashes.set row.deploymentId (manifest.manifestHash env)
      issues := audit.issues ++ found }

/-- One round of the loop over the snapshots. -/
def auditSnapshot (issues : List String) (row : SnapshotRow τ) : Result (List String) :=
  let name := "preflight:" ++ row.snapshotId
  match snapshotFromRow env row with
  | .error (.value text) => .ok (issues ++ [name ++ ":" ++ text])
  | .error e => .error e
  | .ok snapshot =>
    .ok (issues ++ noting (snapshot.snapshotHash env = row.snapshotHash) (name ++ ":row-hash-mismatch"))

/-- How `_verify_event_rows` reads the rows of a log of events. -/
structure EventKind (τ ρ : Type) where
  log : Log ρ String String
  payloadJson : ρ → τ
  /-- What the hash of a row is made of. -/
  base : ρ → Json → Fields
  label : String

/-- One round of the loop of `_verify_event_rows`. -/
def auditEvent {ρ : Type} (kind : EventKind τ ρ) (audit : Audit) (row : ρ) : Result Audit :=
  let entity := kind.log.entity row
  let name := kind.label ++ ":" ++ entity ++ ":" ++ toString (kind.log.sequence row)
  match env.loads (kind.payloadJson row) with
  | .error (.value _) => .ok { audit with issues := audit.issues ++ [name ++ ":payload-json"] }
  | .error e => .error e
  | .ok payload =>
    let found :=
      noting (kind.log.sequence row = audit.sequences.get entity 0 + 1) (name ++ ":sequence-gap") ++
      noting (kind.log.previous row = audit.hashes.get entity "") (name ++ ":previous-hash-mismatch") ++
      noting (stableSha256 env (.obj (kind.base row payload)) = kind.log.hash row)
        (name ++ ":event-hash-mismatch")
    .ok {
      sequences := audit.sequences.set entity (kind.log.sequence row)
      hashes := audit.hashes.set entity (kind.log.hash row)
      issues := audit.issues ++ found }

/-- `_verify_event_rows`, on the rows in the order of entity and sequence. -/
def verifyEventRows {ρ : Type} (kind : EventKind τ ρ) (rows : List ρ) (issues : List String) :
    Result (List String) := do
  let audit ← (kind.log.sorted rows).foldlM (auditEvent env kind) { issues }
  pure audit.issues

def runtimeKind : EventKind τ (RuntimeEventRow τ) where
  log := runtimeLog τ
  payloadJson r := r.payloadJson
  base r payload :=
    [("schemaVersion", .str runtimeEventSchemaVersion), ("sessionId", .str r.sessionId),
      ("sequence", .int r.sequence), ("eventId", .str r.eventId),
      ("previousHash", .str r.previousHash), ("lifecycle", .str r.lifecycle.text),
      ("eventType", .str r.eventType), ("actor", .str r.actor), ("payload", payload),
      ("occurredAt", .str (env.isoformat r.occurredAt))]
  label := "runtime"

def incidentKind : EventKind τ (IncidentEventRow τ) where
  log := incidentLog τ
  payloadJson r := r.payloadJson
  base r payload :=
    [("schemaVersion", .str incidentEventSchemaVersion), ("incidentId", .str r.incidentId),
      ("sequence", .int r.sequence), ("eventId", .str r.eventId),
      ("previousHash", .str r.previousHash), ("state", .str r.state.text),
      ("eventType", .str r.eventType), ("actor", .str r.actor), ("payload", payload),
      ("occurredAt", .str (env.isoformat r.occurredAt)), ("severity", .str r.severity.text),
      ("evidenceHash", .str r.evidenceHash)]
  label := "incident"

/-- The `counts` of `verify_integrity`. -/
structure Counts where
  deploymentManifests : ℕ
  preflightSnapshots : ℕ
  runtimeSessions : ℕ
  runtimeEvents : ℕ
  incidents : ℕ
  incidentEvents : ℕ

/-- What `verify_integrity` returns. -/
structure Integrity where
  issues : List String
  counts : Counts

def Integrity.ok (i : Integrity) : Bool := i.issues.isEmpty

/-- `verify_integrity`. -/
def verifyIntegrity (s : Store τ) : Result Integrity := do
  let audit ← ((manifestLog τ).sorted s.manifests).foldlM (auditManifest env) { issues := [] }
  let issues ← s.snapshots.foldlM (auditSnapshot env) audit.issues
  let issues ← verifyEventRows env (runtimeKind env) s.runtimeEvents issues
  let issues ← verifyEventRows env (incidentKind env) s.incidentEvents issues
  pure {
    issues
    counts := {
      deploymentManifests := s.manifests.length
      preflightSnapshots := s.snapshots.length
      runtimeSessions := s.sessions.length
      runtimeEvents := s.runtimeEvents.length
      incidents := s.incidents.length
      incidentEvents := s.incidentEvents.length } }

/-! ## Runs -/

/-- A public call that writes, with its arguments. -/
inductive Action where
  | createDeploymentManifest (a : ManifestArgs)
  | createPreflightSnapshot (a : SnapshotArgs)
  | createRuntimeSession (a : SessionArgs)
  | transitionRuntimeSession (lifecycle : String) (a : EventArgs)
  | rebindRuntimePreflight (a : RebindArgs)
  | appendRuntimeEvent (a : EventArgs)
  | openIncident (a : OpenArgs)
  | transitionIncident (state : String) (a : IncidentArgs)
  | resolveIncident (a : IncidentArgs)
  | appendIncidentEvent (a : IncidentArgs)

/-- The store after a call, and whether it raised. -/
def perform (s : Store τ) : Action → Store τ × Result Unit
  | .createDeploymentManifest a => (createDeploymentManifest env s a).map id (·.map fun _ => ())
  | .createPreflightSnapshot a => (createPreflightSnapshot env s a).map id (·.map fun _ => ())
  | .createRuntimeSession a => (createRuntimeSession env s a).map id (·.map fun _ => ())
  | .transitionRuntimeSession lifecycle a =>
    (transitionRuntimeSession env s lifecycle a).map id (·.map fun _ => ())
  | .rebindRuntimePreflight a => (rebindRuntimePreflight env s a).map id (·.map fun _ => ())
  | .appendRuntimeEvent a => (appendRuntimeEvent env s a).map id (·.map fun _ => ())
  | .openIncident a => (openIncident env s a).map id (·.map fun _ => ())
  | .transitionIncident state a => (transitionIncident env s state a).map id (·.map fun _ => ())
  | .resolveIncident a => (resolveIncident env s a).map id (·.map fun _ => ())
  | .appendIncidentEvent a => (appendIncidentEvent env s a).map id (·.map fun _ => ())

/-- A call as a step; every call is possible in every store. -/
def step (s : Store τ) (a : Action) : Option (Store τ) := some (perform env s a).1

/-- A store that any list of calls leads to from the empty one. -/
def Reachable (s : Store τ) : Prop := ∃ acts, Run (step env) Free {} acts s

end LiveTrader.Governance

namespace LiveTrader.Governance

open Lib Lib.Py Lib.Runs

/-! ## What a call can do -/

variable {τ : Type} {env : Env τ} {s s' : Store τ}

/-! ## Appended events -/

variable (env) in
/-- The next event of a session, with the payload it stores. -/
structure NextRuntimeEvent (rows : List (RuntimeEventRow τ)) (sessionId : String) (row : RuntimeEventRow τ) (payload : Fields) : Prop where
  session : row.sessionId = sessionId
  normal : IsNormal env payload
  stored : row.payloadJson = env.dumps (.obj payload)
  hash : row.eventHash = stableSha256 env (.obj (row.base env payload))
  sequence : row.sequence = (runtimeLog τ).nextSequence ((runtimeLog τ).tip rows sessionId)
  previous : row.previousHash = (runtimeLog τ).nextPrevious "" ((runtimeLog τ).tip rows sessionId)
  time : ∀ last, (runtimeLog τ).tip rows sessionId = some last →
    last.occurredAt.1 ≤ row.occurredAt.1

theorem requiredText_str {value label : String} {t : RequiredText}
    (h : requiredText env (.str value) label = .ok t) : t.1 = strip value := by
  simp only [requiredText, text_str] at h
  split at h
  · cases h
  · split at h
    · cases h
    · cases h
      rfl

theorem appendRuntimeEventConn_eq_ok {sessionId : String} {a : RuntimeEventArgs}
    {row : RuntimeEventRow τ} (h : appendRuntimeEventConn env s sessionId a = .ok (s', row)) :
    NextRuntimeEvent env s.runtimeEvents sessionId row a.payload.sorted ∧ row.lifecycle = a.lifecycle ∧
      row.eventType = strip a.eventType ∧
      s' = { s with runtimeEvents := s.runtimeEvents ++ [row] } := by
  simp only [appendRuntimeEventConn, bind_eq_ok, require_eq_ok, pure_eq_ok, insertRow_eq_ok] at h
  obtain ⟨eventType, htype, actor, -, payload, hpayload, -, htime, rows, ⟨-, rfl⟩, hdone⟩ := h
  cases hdone
  obtain ⟨-, rfl⟩ := (jsonObject_eq_ok env).mp hpayload
  refine ⟨⟨rfl, jsonObject_normal env hpayload, rfl, rfl, rfl, rfl, fun last hlast => ?_⟩, rfl,
    requiredText_str htype, rfl⟩
  exact htime last hlast

variable (env) in
/-- The next event of an incident, with the payload it stores. -/
structure NextIncidentEvent (rows : List (IncidentEventRow τ)) (incidentId : String)
    (row : IncidentEventRow τ) (payload : Fields) : Prop where
  incident : row.incidentId = incidentId
  normal : IsNormal env payload
  stored : row.payloadJson = env.dumps (.obj payload)
  hash : row.eventHash = stableSha256 env (.obj (row.base env payload))
  sequence : row.sequence = (incidentLog τ).nextSequence ((incidentLog τ).tip rows incidentId)
  previous : row.previousHash = (incidentLog τ).nextPrevious "" ((incidentLog τ).tip rows incidentId)
  time : ∀ last, (incidentLog τ).tip rows incidentId = some last →
    last.occurredAt.1 ≤ row.occurredAt.1
  severity : ∀ last, (incidentLog τ).tip rows incidentId = some last →
    last.severity.rank ≤ row.severity.rank

theorem appendIncidentEventConn_eq_ok {incidentId : String} {a : IncidentEventArgs}
    {row : IncidentEventRow τ} (h : appendIncidentEventConn env s incidentId a = .ok (s', row)) :
    NextIncidentEvent env s.incidentEvents incidentId row a.payload.sorted ∧ row.state = a.state ∧
      s' = { s with incidentEvents := s.incidentEvents ++ [row] } := by
  simp only [appendIncidentEventConn, bind_eq_ok, require_eq_ok, pure_eq_ok, insertRow_eq_ok] at h
  obtain ⟨severity, -, eventType, -, actor, -, payload, hpayload, -, htime, -, hseverity, rows,
    ⟨-, rfl⟩, hdone⟩ := h
  cases hdone
  obtain ⟨-, rfl⟩ := (jsonObject_eq_ok env).mp hpayload
  refine ⟨⟨rfl, jsonObject_normal env hpayload, rfl, rfl, rfl, rfl, fun last hlast => ?_,
    fun last hlast => ?_⟩, rfl, rfl⟩
  · exact htime last hlast
  · exact hseverity last hlast

/-! ## Sessions and incidents that are found -/

variable (env s) in
/-- What a call finds of a session that is there. -/
structure KnownSession (sessionId : String) (session : RuntimeSession) : Prop where
  id : session.sessionId = sessionId
  row : ∃ row, s.sessions.find? (·.sessionId = sessionId) = some row ∧
    session.deploymentId = row.deploymentId ∧
    session.deploymentManifestHash = row.deploymentManifestHash ∧ session.mode = row.mode ∧
    (∃ metadata, env.loads row.metadataJson = .ok metadata) ∧
    binding env s row = .ok (session.preflightSnapshotId, session.preflightSnapshotHash)
  tip : ∃ last, (runtimeLog τ).tip s.runtimeEvents sessionId = some last ∧
    session.lifecycle = last.lifecycle

theorem runtimeSession_eq_ok {sessionId : String} {session : RuntimeSession}
    (h : runtimeSession env s sessionId = .ok (some session)) : KnownSession env s sessionId session := by
  unfold runtimeSession at h
  split at h
  · next row event hrow hevent =>
    simp only [bind_eq_ok, pure_eq_ok] at h
    obtain ⟨metadata, hmeta, bound, hbinding, hdone⟩ := h
    cases hdone
    have hid : row.sessionId = sessionId := by simpa using List.find?_some hrow
    exact ⟨hid, ⟨row, hrow, rfl, rfl, rfl, ⟨metadata, hmeta⟩, hbinding⟩, ⟨event, hevent, rfl⟩⟩
  · cases h

theorem knownSession_eq_ok {sessionId : String} {session : RuntimeSession}
    (h : knownSession env s sessionId = .ok session) : KnownSession env s sessionId session := by
  simp only [knownSession, bind_eq_ok, orRaise_eq_ok] at h
  obtain ⟨found, hfound, rfl⟩ := h
  exact runtimeSession_eq_ok hfound

variable (s) in
/-- What a call finds of an incident that is there. -/
structure KnownIncident (incidentId : String) (found : Incident) : Prop where
  row : s.incidents.find? (·.incidentId = incidentId) = some found.row
  id : found.row.incidentId = incidentId
  tip : ∃ last, (incidentLog τ).tip s.incidentEvents incidentId = some last ∧
    found.state = last.state ∧ found.severity = last.severity

theorem incident_eq_some {incidentId : String} {found : Incident}
    (h : incident s incidentId = some found) : KnownIncident s incidentId found := by
  simp only [incident, Option.bind_eq_bind, Option.bind_eq_some_iff, Option.pure_def,
    Option.some.injEq] at h
  obtain ⟨row, hrow, event, hevent, rfl⟩ := h
  have hid : row.incidentId = incidentId := by simpa using List.find?_some hrow
  exact ⟨hrow, hid, event, hevent, rfl, rfl⟩

/-! ## Changes -/

variable (env s) in
/-- How a call takes a store to another. -/
inductive Change : Action → Store τ → Prop
  | raised (act : Action) : Change act s
  | manifest {a : ManifestArgs} {id : RequiredText} {created : Instant} {m : DeploymentManifest} :
      DeploymentManifest.make env
        (manifestInput env a id ((manifestLog τ).tip s.manifests id.1) created) = .ok m →
      (∀ r ∈ s.manifests, r.clash (.of env m) = false) →
      Change (.createDeploymentManifest a) { s with manifests := s.manifests ++ [.of env m] }
  | snapshot {a : SnapshotArgs} {hash : Sha256} {m : DeploymentManifest} {checks : Checks}
      {issued expires : Instant} {p : PreflightSnapshot} :
      requiredSha256 env (.str a.deploymentManifestHash) "deployment_manifest_hash" = .ok hash →
      currentManifest env s a.deploymentId hash = .ok m →
      PreflightSnapshot.make env (snapshotInput env a m checks issued expires) = .ok p →
      (∀ r ∈ s.snapshots, r.clash (.of env p) = false) →
      Change (.createPreflightSnapshot a) { s with snapshots := s.snapshots ++ [.of env p] }
  | session {a : SessionArgs} {hash : Sha256} {m : DeploymentManifest} {mode : Mode}
      {current : Instant} {p : Option PreflightSnapshot} {profile instanceId : RequiredText}
      {metadata : Fields} {row : SessionRow τ} {event : RuntimeEventRow τ} {payload : Fields} :
      currentManifest env s a.deploymentId hash = .ok m →
      sessionPreflight env s m mode a.preflightSnapshotId current = .ok p →
      row = sessionRow env a m p mode profile instanceId metadata current →
      (∀ r ∈ s.sessions, r.clash row = false) →
      NextRuntimeEvent env s.runtimeEvents row.sessionId event payload →
      event.lifecycle = .preflight → event.eventType = "SESSION_CREATED" →
      Change (.createRuntimeSession a)
        { s with sessions := s.sessions ++ [row], runtimeEvents := s.runtimeEvents ++ [event] }
  | event {act : Action} {a : EventArgs} {session : RuntimeSession} {row : RuntimeEventRow τ} :
      (act = .appendRuntimeEvent a ∨ ∃ lifecycle, act = .transitionRuntimeSession lifecycle a) →
      KnownSession env s a.sessionId session →
      NextRuntimeEvent env s.runtimeEvents a.sessionId row a.payload.sorted →
      (row.lifecycle = session.lifecycle ∨ row.lifecycle ∈ runtimeTransitions session.lifecycle) →
      row.eventType = strip a.eventType →
      Change act { s with runtimeEvents := s.runtimeEvents ++ [row] }
  | rebound {a : RebindArgs} {current : Instant} {session : RuntimeSession} {p : PreflightSnapshot}
      {row : RuntimeEventRow τ} :
      KnownSession env s a.sessionId session →
      replacementPreflight env s session a.preflightSnapshotId current = .ok p →
      NextRuntimeEvent env s.runtimeEvents a.sessionId row (rebindPayload env session p).sorted →
      row.lifecycle = session.lifecycle → row.eventType = preflightRebound →
      Change (.rebindRuntimePreflight a) { s with runtimeEvents := s.runtimeEvents ++ [row] }
  | incident {a : OpenArgs} {row : IncidentRow} {event : IncidentEventRow τ} {payload : Fields} :
      activeIncident env s row.dedupeKey = none →
      (∀ r ∈ s.incidents, r.clash row = false) →
      NextIncidentEvent env s.incidentEvents row.incidentId event payload → event.state = .open →
      Change (.openIncident a)
        { s with incidents := s.incidents ++ [row], incidentEvents := s.incidentEvents ++ [event] }
  | incidentEvent {act : Action} {incidentId : String} {found : Incident} {row : IncidentEventRow τ}
      {payload : Fields} :
      KnownIncident s incidentId found → found.state ≠ .resolved →
      NextIncidentEvent env s.incidentEvents incidentId row payload →
      (row.state = found.state ∨ row.state ∈ incidentTransitions found.state) →
      Change act { s with incidentEvents := s.incidentEvents ++ [row] }

/-- A transaction leaves the store its body returns, or the store it began with. -/
theorem transaction_change {α : Type} {act : Action} {body : Result (Store τ × α)}
    (h : ∀ s' a, body = .ok (s', a) → Change env s act s') : Change env s act (transaction s body).1 := by
  cases body with
  | error e => exact .raised act
  | ok done => exact h done.1 done.2 rfl

theorem createDeploymentManifest_change {a : ManifestArgs} {m : DeploymentManifest}
    (h : createDeploymentManifestBody env s a = .ok (s', m)) :
    Change env s (.createDeploymentManifest a) s' := by
  simp only [createDeploymentManifestBody, bind_eq_ok, pure_eq_ok, insertRow_eq_ok] at h
  obtain ⟨id, -, t, -, manifest, hmake, -, -, rows, ⟨hfresh, rfl⟩, hdone⟩ := h
  cases hdone
  exact .manifest hmake hfresh

theorem createPreflightSnapshot_change {a : SnapshotArgs} {p : PreflightSnapshot}
    (h : createPreflightSnapshotBody env s a = .ok (s', p)) :
    Change env s (.createPreflightSnapshot a) s' := by
  simp only [createPreflightSnapshotBody, bind_eq_ok, require_eq_ok, pure_eq_ok, insertRow_eq_ok] at h
  obtain ⟨hash, hhash, issued, -, m, hm, -, -, checks, -, expires, -, snapshot, hmake, rows,
    ⟨hfresh, rfl⟩, hdone⟩ := h
  cases hdone
  exact .snapshot hhash hm hmake hfresh

theorem strip_sessionCreated : strip "SESSION_CREATED" = "SESSION_CREATED" := by decide

theorem strip_preflightRebound : strip preflightRebound = preflightRebound := by decide

/-- What `create_runtime_session` writes. -/
theorem createRuntimeSessionBody_eq_ok {a : SessionArgs} {id : String}
    (h : createRuntimeSessionBody env s a = .ok (s', id)) :
    ∃ hash m mode current p profile instanceId metadata,
      ∃ (row : SessionRow τ) (event : RuntimeEventRow τ) (payload : Fields),
      currentManifest env s a.deploymentId hash = .ok m ∧
      sessionPreflight env s m mode a.preflightSnapshotId current = .ok p ∧
      row = sessionRow env a m p mode profile instanceId metadata current ∧ row.sessionId = id ∧
      (∀ r ∈ s.sessions, r.clash row = false) ∧
      NextRuntimeEvent env s.runtimeEvents row.sessionId event payload ∧
      event.lifecycle = .preflight ∧ event.eventType = "SESSION_CREATED" ∧
      s' = { s with sessions := s.sessions ++ [row], runtimeEvents := s.runtimeEvents ++ [event] } := by
  simp only [createRuntimeSessionBody, bind_eq_ok, pure_eq_ok, insertRow_eq_ok, Prod.exists] at h
  obtain ⟨mode, -, current, -, hash, -, m, hm, p, hp, metadata, -, profile, -, instanceId, -, rows,
    ⟨hfresh, rfl⟩, s₁, event, hevent, hdone⟩ := h
  cases hdone
  obtain ⟨hnext, hlifecycle, htype, rfl⟩ := appendRuntimeEventConn_eq_ok hevent
  exact ⟨hash, m, mode, current, p, profile, instanceId, metadata, _, event, _, hm, hp, rfl, rfl, hfresh,
    hnext, hlifecycle, htype.trans strip_sessionCreated, rfl⟩

theorem createRuntimeSession_change {a : SessionArgs} {id : String}
    (h : createRuntimeSessionBody env s a = .ok (s', id)) : Change env s (.createRuntimeSession a) s' := by
  obtain ⟨_, _, _, _, _, _, _, _, _, _, _, hm, hp, hrow, -, hfresh, hnext, hlifecycle, htype, rfl⟩ :=
    createRuntimeSessionBody_eq_ok h
  exact .session hm hp hrow hfresh hnext hlifecycle htype

/-- What `transition_runtime_session` writes. -/
theorem transitionRuntimeSessionBody_eq_ok {lifecycle : String} {a : EventArgs} {id : String}
    (h : transitionRuntimeSessionBody env s lifecycle a = .ok (s', id)) :
    ∃ (session : RuntimeSession) (row : RuntimeEventRow τ),
      KnownSession env s a.sessionId session ∧
      NextRuntimeEvent env s.runtimeEvents a.sessionId row a.payload.sorted ∧
      row.lifecycle ∈ runtimeTransitions session.lifecycle ∧ row.eventType = strip a.eventType ∧
      a.sessionId = id ∧ s' = { s with runtimeEvents := s.runtimeEvents ++ [row] } := by
  simp only [transitionRuntimeSessionBody, bind_eq_ok, require_eq_ok, pure_eq_ok, Prod.exists] at h
  obtain ⟨target, -, current, -, session, hsession, -, -, -, htarget, s₁, event, hevent, hdone⟩ := h
  cases hdone
  have hknown := knownSession_eq_ok hsession
  obtain ⟨hnext, hlifecycle, htype, rfl⟩ := appendRuntimeEventConn_eq_ok hevent
  rw [hknown.id] at hnext
  exact ⟨session, event, hknown, hnext, hlifecycle ▸ htarget, htype, rfl, rfl⟩

theorem transitionRuntimeSession_change {lifecycle : String} {a : EventArgs} {id : String}
    (h : transitionRuntimeSessionBody env s lifecycle a = .ok (s', id)) :
    Change env s (.transitionRuntimeSession lifecycle a) s' := by
  obtain ⟨session, row, hknown, hnext, hlifecycle, htype, -, rfl⟩ := transitionRuntimeSessionBody_eq_ok h
  exact .event (.inr ⟨lifecycle, rfl⟩) hknown hnext (.inr hlifecycle) htype

theorem appendRuntimeEvent_change {a : EventArgs} {row : RuntimeEventRow τ}
    (h : appendRuntimeEventBody env s a = .ok (s', row)) : Change env s (.appendRuntimeEvent a) s' := by
  simp only [appendRuntimeEventBody, bind_eq_ok] at h
  obtain ⟨current, -, session, hsession, hevent⟩ := h
  have hknown := knownSession_eq_ok hsession
  obtain ⟨hnext, hlifecycle, htype, rfl⟩ := appendRuntimeEventConn_eq_ok hevent
  rw [hknown.id] at hnext
  exact .event (.inl rfl) hknown hnext (.inl hlifecycle) htype

/-- What `rebind_runtime_preflight` writes. -/
theorem rebindRuntimePreflightBody_eq_ok {a : RebindArgs} {id : String}
    (h : rebindRuntimePreflightBody env s a = .ok (s', id)) :
    ∃ current, ∃ (session : RuntimeSession) (p : PreflightSnapshot) (row : RuntimeEventRow τ),
      KnownSession env s a.sessionId session ∧
      replacementPreflight env s session a.preflightSnapshotId current = .ok p ∧
      NextRuntimeEvent env s.runtimeEvents a.sessionId row (rebindPayload env session p).sorted ∧
      row.lifecycle = session.lifecycle ∧ row.eventType = preflightRebound ∧ a.sessionId = id ∧
      s' = { s with runtimeEvents := s.runtimeEvents ++ [row] } := by
  simp only [rebindRuntimePreflightBody, bind_eq_ok, require_eq_ok, pure_eq_ok, Prod.exists] at h
  obtain ⟨current, -, session, hsession, -, -, p, hp, s₁, event, hevent, hdone⟩ := h
  cases hdone
  have hknown := knownSession_eq_ok hsession
  obtain ⟨hnext, hlifecycle, htype, rfl⟩ := appendRuntimeEventConn_eq_ok hevent
  rw [hknown.id] at hnext
  exact ⟨current, session, p, event, hknown, hp, hnext, hlifecycle,
    htype.trans strip_preflightRebound, rfl, rfl⟩

theorem rebindRuntimePreflight_change {a : RebindArgs} {id : String}
    (h : rebindRuntimePreflightBody env s a = .ok (s', id)) :
    Change env s (.rebindRuntimePreflight a) s' := by
  obtain ⟨current, session, p, row, hknown, hp, hnext, hlifecycle, htype, -, rfl⟩ :=
    rebindRuntimePreflightBody_eq_ok h
  exact .rebound hknown hp hnext hlifecycle htype

theorem openIncident_change {a : OpenArgs} {result : Incident × Bool}
    (h : openIncidentBody env s a = .ok (s', result)) : Change env s (.openIncident a) s' := by
  simp only [openIncidentBody, bind_eq_ok] at h
  obtain ⟨code, -, scopeType, -, scopeId, -, severity, -, account, -, evidence, -, current, -, payload,
    -, h⟩ := h
  split at h
  · next existing hactive =>
    simp only [observeIncident, readIncident, bind_eq_ok, pure_eq_ok, orRaise_eq_ok, Prod.exists] at h
    obtain ⟨found, hfound, s₁, row, hrow, updated, -, hdone⟩ := h
    cases hdone
    have hknown := incident_eq_some hfound
    obtain ⟨hnext, hstate, rfl⟩ := appendIncidentEventConn_eq_ok hrow
    rw [hknown.id] at hnext
    -- the row that was found is one whose last event is not resolved
    have hopen := (List.mem_filter.mp (List.argmax_mem hactive)).2
    obtain ⟨last, hlast, hlastState, -⟩ := hknown.tip
    simp only [Bool.and_eq_true, isUnresolved, hlast, decide_eq_true_eq] at hopen
    exact .incidentEvent hknown (hlastState ▸ hopen.2) hnext (.inl hstate)
  · next hactive =>
    simp only [insertIncident, readIncident, bind_eq_ok, pure_eq_ok, orRaise_eq_ok, insertRow_eq_ok,
      Prod.exists] at h
    obtain ⟨rows, ⟨hfresh, rfl⟩, s₁, event, hevent, created, -, hdone⟩ := h
    cases hdone
    obtain ⟨hnext, hstate, rfl⟩ := appendIncidentEventConn_eq_ok hevent
    exact .incident hactive hfresh hnext hstate

/-- What `transition_incident` writes. -/
theorem transitionIncidentBody_eq_ok {state : String} {a : IncidentArgs} {id : String}
    (h : transitionIncidentBody env s state a = .ok (s', id)) :
    ∃ (found : Incident) (row : IncidentEventRow τ), KnownIncident s a.incidentId found ∧
      NextIncidentEvent env s.incidentEvents a.incidentId row a.payload.sorted ∧
      row.state ∈ incidentTransitions found.state ∧ a.incidentId = id ∧
      s' = { s with incidentEvents := s.incidentEvents ++ [row] } := by
  simp only [transitionIncidentBody, knownIncident, bind_eq_ok, require_eq_ok, pure_eq_ok,
    orRaise_eq_ok, Prod.exists] at h
  obtain ⟨target, -, current, -, found, hfound, -, -, -, htarget, evidence, -, s₁, row, hrow, hdone⟩ := h
  cases hdone
  have hknown := incident_eq_some hfound
  obtain ⟨hnext, hstate, rfl⟩ := appendIncidentEventConn_eq_ok hrow
  rw [hknown.id] at hnext
  exact ⟨found, row, hknown, hnext, hstate ▸ htarget, rfl, rfl⟩

theorem transitionIncident_change {act : Action} {state : String} {a : IncidentArgs} {id : String}
    (h : transitionIncidentBody env s state a = .ok (s', id)) : Change env s act s' := by
  obtain ⟨found, row, hknown, hnext, hstate, -, rfl⟩ := transitionIncidentBody_eq_ok h
  refine .incidentEvent hknown ?_ hnext (.inr hstate)
  intro hresolved
  rw [hresolved] at hstate
  cases hstate

theorem appendIncidentEvent_change {a : IncidentArgs} {row : IncidentEventRow τ}
    (h : appendIncidentEventBody env s a = .ok (s', row)) : Change env s (.appendIncidentEvent a) s' := by
  simp only [appendIncidentEventBody, knownIncident, bind_eq_ok, require_eq_ok, orRaise_eq_ok] at h
  obtain ⟨current, -, found, hfound, -, hopen, evidence, -, hrow⟩ := h
  have hknown := incident_eq_some hfound
  obtain ⟨hnext, hstate, rfl⟩ := appendIncidentEventConn_eq_ok hrow
  rw [hknown.id] at hnext
  exact .incidentEvent hknown hopen hnext (.inl hstate)

theorem afterCommit_fst {α β : Type} (done : Store τ × Result α) (read : Store τ → α → Result β) :
    (afterCommit done read).1 = done.1 := rfl

/-- **Every call** is one of the changes. -/
theorem perform_change (act : Action) : Change env s act (perform env s act).1 := by
  cases act with
  | createDeploymentManifest a =>
    rw [perform, Prod.map_fst, id, createDeploymentManifest]
    exact transaction_change fun _ _ h => createDeploymentManifest_change h
  | createPreflightSnapshot a =>
    rw [perform, Prod.map_fst, id, createPreflightSnapshot]
    exact transaction_change fun _ _ h => createPreflightSnapshot_change h
  | createRuntimeSession a =>
    rw [perform, Prod.map_fst, id, createRuntimeSession, afterCommit_fst]
    exact transaction_change fun _ _ h => createRuntimeSession_change h
  | transitionRuntimeSession lifecycle a =>
    rw [perform, Prod.map_fst, id, transitionRuntimeSession, afterCommit_fst]
    exact transaction_change fun _ _ h => transitionRuntimeSession_change h
  | rebindRuntimePreflight a =>
    rw [perform, Prod.map_fst, id, rebindRuntimePreflight, afterCommit_fst]
    exact transaction_change fun _ _ h => rebindRuntimePreflight_change h
  | appendRuntimeEvent a =>
    rw [perform, Prod.map_fst, id, appendRuntimeEvent]
    exact transaction_change fun _ _ h => appendRuntimeEvent_change h
  | openIncident a =>
    rw [perform, Prod.map_fst, id, openIncident]
    exact transaction_change fun _ _ h => openIncident_change h
  | transitionIncident state a =>
    rw [perform, Prod.map_fst, id, transitionIncident, afterCommit_fst]
    exact transaction_change fun _ _ h => transitionIncident_change h
  | resolveIncident a =>
    rw [perform, Prod.map_fst, id, resolveIncident, transitionIncident, afterCommit_fst]
    exact transaction_change fun _ _ h => transitionIncident_change h
  | appendIncidentEvent a =>
    rw [perform, Prod.map_fst, id, appendIncidentEvent]
    exact transaction_change fun _ _ h => appendIncidentEvent_change h

end LiveTrader.Governance
