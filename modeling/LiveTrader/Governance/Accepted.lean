/-
# `Governance.Accepted` — calls that succeed

The other half of `Governance.Steps`: under which conditions a call does not raise, and
what it then writes.  A manifest or a snapshot is written as it is when the call is given
its fields; a session that is there takes the next event of any type but for the limits on
texts, payload and time.
-/
import LiveTrader.Governance.Sound

namespace LiveTrader.Governance

open Lib Lib.Py Lib.Runs

variable {τ : Type} {env : Env τ} {s : Store τ}

/-! ## Manifests and snapshots -/

variable (env) in
/-- The fields of a manifest, as arguments. -/
def ManifestArgs.of (m : DeploymentManifest) : ManifestArgs where
  deploymentId := m.deploymentId.1
  strategyArtifactHash := m.strategyArtifactHash.1
  portfolioArtifactHash := m.portfolioArtifactHash.1
  accountFingerprint := m.accountFingerprint.1
  brokerRoute := m.brokerRoute.1
  runtimeVersion := m.runtimeVersion.1
  buildHash := m.buildHash.1
  executionAdapter := m.executionAdapter.1
  executionAdapterVersion := m.executionAdapterVersion.1
  riskPolicyRevision := .int m.riskPolicyRevision.1
  riskPolicyHash := m.riskPolicyHash.1
  configRevision := .int m.configRevision.1
  configHash := m.configHash.1
  preflightTtlSeconds := .int m.preflightTtlSeconds.1
  metadata := m.metadata
  createdAt := .text (env.isoformat m.createdAt)

/-- The next manifest of a deployment is written as it is. -/
theorem createDeploymentManifest_of {m : DeploymentManifest} (hm : IsNormal env m.metadata)
    (hrevision : m.revision.1 =
      (manifestLog τ).nextSequence ((manifestLog τ).tip s.manifests m.deploymentId.1))
    (hprevious : m.previousManifestHash.1.1 =
      (manifestLog τ).nextPrevious "" ((manifestLog τ).tip s.manifests m.deploymentId.1))
    (hconfig : m.configRevision.1 ≤ 9223372036854775807)
    (hfresh : ∀ r ∈ s.manifests, r.clash (.of env m) = false) :
    (perform env s (.createDeploymentManifest (.of env m))).1 =
      { s with manifests := s.manifests ++ [.of env m] } := by
  have hinput : manifestInput env (.of env m) m.deploymentId
      ((manifestLog τ).tip s.manifests m.deploymentId.1) m.createdAt = m.storedInput env := by
    simp only [manifestInput, ManifestArgs.of, DeploymentManifest.storedInput, hrevision, hprevious]
  have hint : sqliteInt m.configRevision.1 = .ok () := by
    have := m.configRevision.2
    exact require_true ⟨by omega, hconfig⟩
  have hbody : createDeploymentManifestBody env s (.of env m) =
      .ok ({ s with manifests := s.manifests ++ [.of env m] }, m) := by
    simp only [createDeploymentManifestBody, show (ManifestArgs.of env m).deploymentId = m.deploymentId.1
      from rfl, show (ManifestArgs.of env m).createdAt = .text (env.isoformat m.createdAt) from rfl,
      requiredText_self, utcIso_isoformat, ok_bind, hinput, DeploymentManifest.make_storedInput env hm,
      hint, insertRow_eq_ok.mpr ⟨hfresh, rfl⟩]
    rfl
  simp only [perform, Prod.map_fst, id, createDeploymentManifest, hbody, transaction]

variable (env s) in
/-- The newest manifest of its deployment. -/
structure Newest (m : DeploymentManifest) : Prop where
  normal : IsNormal env m.metadata
  tip : (manifestLog τ).tip s.manifests m.deploymentId.1 = some (.of env m)
  find : s.manifests.find? (·.manifestHash = m.manifestHash env) = some (.of env m)

theorem manifestFromRow_of {m : DeploymentManifest} (h : IsNormal env m.metadata) :
    manifestFromRow env (.of env m) = .ok m := by
  simp only [manifestFromRow, ManifestRow.of, env.loads_dumps, Json.sortKeys_obj, Json.fields, ok_bind]
  exact DeploymentManifest.fromDict_stored env h

theorem Newest.latest {m : DeploymentManifest} (h : Newest env s m) :
    latestManifest env s m.deploymentId.1 = .ok (some m) := by
  simp only [latestManifest, h.tip, Option.mapM_some, manifestFromRow_of h.normal]
  rfl

theorem Newest.byHash {m : DeploymentManifest} (h : Newest env s m) :
    manifestByHash env s (m.manifestHash env) = .ok (some m) := by
  simp only [manifestByHash, h.find, Option.mapM_some, manifestFromRow_of h.normal]
  rfl

variable (env) in
/-- The hash of a manifest. -/
def DeploymentManifest.sha256 (m : DeploymentManifest) : Sha256 :=
  ⟨m.manifestHash env, env.sha256_isHash _⟩

theorem Newest.current {m : DeploymentManifest} (h : Newest env s m) :
    currentManifest env s m.deploymentId.1 (m.sha256 env) = .ok m := by
  simp only [currentManifest, show (m.sha256 env).1 = m.manifestHash env from rfl, h.byHash, h.latest,
    ok_bind, orRaise, require_true m.deploymentId.2.1.symm, require_true]
  rfl

variable (env) in
/-- The snapshot is made from this manifest, for as long as the manifest allows. -/
structure PreflightSnapshot.MadeFrom (p : PreflightSnapshot) (m : DeploymentManifest) : Prop where
  normal : IsNormal env p.metadata
  deployment : p.deploymentId = m.deploymentId
  revision : p.deploymentRevision = m.revision
  hash : p.deploymentManifestHash = m.sha256 env
  account : p.accountFingerprint = m.accountFingerprint
  route : p.brokerRoute = m.brokerRoute
  configRevision : p.configRevision = m.configRevision
  configHash : p.configHash = m.configHash
  expiry : p.expiresAt.1 = p.issuedAt.1 + Datetime.seconds m.preflightTtlSeconds.1

variable (env) in
/-- The fields of a snapshot, as arguments. -/
def SnapshotArgs.of (p : PreflightSnapshot) : SnapshotArgs where
  deploymentId := p.deploymentId.1
  deploymentManifestHash := p.deploymentManifestHash.1
  checks := p.checks.list.map (·.toDict)
  reconciliationHash := p.reconciliationHash.1
  brokerSnapshotHash := p.brokerSnapshotHash.1
  ttlSeconds := none
  metadata := p.metadata
  issuedAt := .text (env.isoformat p.issuedAt)
  snapshotId := p.snapshotId.1
  newId := p.snapshotId.1

/-- A snapshot made from the newest manifest of its deployment is written as it is. -/
theorem createPreflightSnapshot_of {p : PreflightSnapshot} {m : DeploymentManifest}
    (hm : Newest env s m) (hp : p.MadeFrom env m)
    (hfresh : ∀ r ∈ s.snapshots, r.clash (.of env p) = false) :
    (perform env s (.createPreflightSnapshot (.of env p))).1 =
      { s with snapshots := s.snapshots ++ [.of env p] } := by
  have hcurrent : currentManifest env s p.deploymentId.1 p.deploymentManifestHash = .ok m := by
    rw [hp.deployment, hp.hash, hm.current]
  have hexpiry : expiry p.issuedAt m.preflightTtlSeconds.1 = .ok p.expiresAt := by
    rw [expiry, dif_pos (hp.expiry ▸ p.expiresAt.2)]
    exact congrArg _ (Subtype.ext hp.expiry.symm)
  have hchecks := normalizedPreflightChecks_written env (PreflightCheck.writes_toDict env) p.checks
  have hid : orElse p.snapshotId.1 p.snapshotId.1 = p.snapshotId.1 := by rw [orElse, ite_self]
  have hmake : PreflightSnapshot.make env
      (snapshotInput env (.of env p) m p.checks p.issuedAt p.expiresAt) = .ok p := by
    simp only [PreflightSnapshot.make, snapshotInput, SnapshotArgs.of, hid, ← hp.deployment, ← hp.revision,
      ← show (m.sha256 env).1 = m.manifestHash env from rfl, ← hp.hash, ← hp.account, ← hp.route,
      ← hp.configRevision, ← hp.configHash, requiredText_self, positiveRevision_self,
      requiredSha256_self, utcIso_isoformat, enumText_preflightStatus, hchecks, hp.normal.jsonObject,
      require_true, ok_bind, dif_pos p.expires]
    rfl
  have hbody : createPreflightSnapshotBody env s (.of env p) =
      .ok ({ s with snapshots := s.snapshots ++ [.of env p] }, p) := by
    have httl := m.preflightTtlSeconds.2
    simp only [createPreflightSnapshotBody]
    simp only [show (SnapshotArgs.of env p).deploymentManifestHash = p.deploymentManifestHash.1 from rfl,
      show (SnapshotArgs.of env p).issuedAt = .text (env.isoformat p.issuedAt) from rfl,
      show (SnapshotArgs.of env p).deploymentId = p.deploymentId.1 from rfl,
      show (SnapshotArgs.of env p).ttlSeconds = none from rfl,
      show (SnapshotArgs.of env p).checks = p.checks.list.map (·.toDict) from rfl,
      requiredSha256_self, utcIso_isoformat, hcurrent, hchecks, Option.getD_none, hexpiry, hmake, ok_bind,
      insertRow_eq_ok.mpr ⟨hfresh, rfl⟩,
      require_true (show 1 ≤ m.preflightTtlSeconds.1 ∧
        m.preflightTtlSeconds.1 ≤ min m.preflightTtlSeconds.1 3600 from ⟨httl.1, le_min le_rfl httl.2⟩)]
    rfl
  simp only [perform, Prod.map_fst, id, createPreflightSnapshot, hbody, transaction]

variable (env s) in
/-- A snapshot that is stored, passed its checks and has not expired, made from the newest
manifest of its deployment. -/
structure Usable (p : PreflightSnapshot) (m : DeploymentManifest) (now : Instant) : Prop where
  newest : Newest env s m
  made : p.MadeFrom env m
  find : s.snapshots.find? (·.snapshotId = p.snapshotId.1) = some (.of env p)
  passed : p.status = .pass
  fresh : now.1 < p.expiresAt.1

theorem Usable.preflight {p : PreflightSnapshot} {m : DeploymentManifest} {now : Instant}
    (h : Usable env s p m now) : preflight env s p.snapshotId.1 = .ok (some p) := by
  have hread : snapshotFromRow env (.of env p) = .ok p := by
    simp only [snapshotFromRow, SnapshotRow.of, env.loads_dumps, Json.sortKeys_obj, Json.fields, ok_bind]
    exact PreflightSnapshot.fromDict_stored env h.made.normal
  simp only [Governance.preflight, h.find, Option.mapM_some, hread]
  rfl

theorem Usable.valid {p : PreflightSnapshot} {m : DeploymentManifest} {now : Instant}
    (h : Usable env s p m now) :
    preflightValidity env s p.snapshotId.1 now = .ok ⟨[], some p⟩ := by
  have hhash : m.manifestHash env = p.deploymentManifestHash.1 := by rw [h.made.hash]; rfl
  have hexpired : p.isExpired now = false := by
    simp only [PreflightSnapshot.isExpired, decide_eq_false_iff_not]
    exact not_le.mpr h.fresh
  have hreasons : manifestReasons env p (some m) = [] := by
    simp [manifestReasons, hhash, h.made.configRevision, h.made.configHash]
  have hlatest : latestManifest env s p.deploymentId.1 = .ok (some m) := by
    rw [h.made.deployment, h.newest.latest]
  simp only [preflightValidity, h.preflight, ok_bind, h.passed, ne_eq, not_true_eq_false, if_false,
    hexpired, Bool.false_eq_true, hlatest, hreasons, List.append_nil]
  rfl

/-! ## Sessions and their events -/

theorem appendRuntimeEventConn_of {id : String} {a : RuntimeEventArgs} {eventType actor : RequiredText}
    (htype : requiredText env (.str a.eventType) "event_type" = .ok eventType)
    (hactor : requiredText env (.str a.actor) "actor" = .ok actor)
    (hclean : Clean env (.obj a.payload))
    (htime : ∀ last ∈ (runtimeLog τ).tip s.runtimeEvents id, last.occurredAt.1 ≤ a.occurredAt.1)
    (hfresh : ∀ row, NextRuntimeEvent env s.runtimeEvents id row a.payload.sorted →
      row.eventId = a.eventId → ∀ r ∈ s.runtimeEvents, r.clash row = false) :
    ∃ row, NextRuntimeEvent env s.runtimeEvents id row a.payload.sorted ∧ row.eventId = a.eventId ∧
      row.lifecycle = a.lifecycle ∧ row.occurredAt = a.occurredAt ∧ row.eventType = eventType.1 ∧
      appendRuntimeEventConn env s id a =
        .ok ({ s with runtimeEvents := s.runtimeEvents ++ [row] }, row) := by
  let row := runtimeEventRow env id a eventType actor a.payload.sorted
    ((runtimeLog τ).tip s.runtimeEvents id)
  have hpayload : jsonObject env a.payload "payload" = .ok a.payload.sorted :=
    (jsonObject_eq_ok env).mpr ⟨hclean, rfl⟩
  have hnext : NextRuntimeEvent env s.runtimeEvents id row a.payload.sorted :=
    ⟨rfl, jsonObject_normal env hpayload, rfl, rfl, rfl, rfl, fun last hlast => htime last hlast⟩
  refine ⟨row, hnext, rfl, rfl, rfl, rfl, ?_⟩
  simp only [appendRuntimeEventConn, htype, hactor, hpayload, require_true htime, ok_bind]
  rw [show runtimeEventRow env id a eventType actor a.payload.sorted
    ((runtimeLog τ).tip s.runtimeEvents id) = row from rfl, insertRow_eq_ok.mpr ⟨hfresh row hnext rfl, rfl⟩]
  rfl

variable (env s) in
/-- A session that is there, with its binding and its last event. -/
structure Held (id : String) (row : SessionRow τ) (bound : String × String)
    (last : RuntimeEventRow τ) (metadata : Json) : Prop where
  find : s.sessions.find? (·.sessionId = id) = some row
  tip : (runtimeLog τ).tip s.runtimeEvents id = some last
  metadata : env.loads row.metadataJson = .ok metadata
  binding : binding env s row = .ok bound

variable {id : String} {row : SessionRow τ} {bound : String × String} {last : RuntimeEventRow τ}
  {metadata : Json}

theorem Held.id_eq (h : Held env s id row bound last metadata) : row.sessionId = id := by
  simpa using List.find?_some h.find

theorem Held.session (h : Held env s id row bound last metadata) :
    runtimeSession env s id = .ok (some (.of row bound last.lifecycle metadata)) := by
  simp only [runtimeSession, h.find, h.tip, h.metadata, h.binding, ok_bind]
  rfl

theorem Held.known (h : Held env s id row bound last metadata) :
    knownSession env s id = .ok (.of row bound last.lifecycle metadata) := by
  simp only [knownSession, h.session, ok_bind, orRaise]

/-- A session after its next event, if that does not rebind it. -/
theorem Held.after {event : RuntimeEventRow τ} {payload : Fields}
    (h : Held env s id row bound last metadata)
    (hnext : NextRuntimeEvent env s.runtimeEvents id event payload)
    (hlinked : (runtimeLog τ).Linked "" (s.runtimeEvents ++ [event]))
    (htype : event.eventType ≠ preflightRebound) :
    Held env { s with runtimeEvents := s.runtimeEvents ++ [event] } id row bound event metadata where
  find := h.find
  tip := by
    rw [hlinked.tip_append, if_pos]
    exact hnext.session
  metadata := h.metadata
  binding := by
    refine (binding_congr ?_).trans h.binding
    rw [reboundEvent_append rfl hlinked, if_neg fun hrebound => htype hrebound.2]

/-- A session after an event that rebinds it. -/
theorem Held.rebound {event : RuntimeEventRow τ} {payload : Fields} {named : String × String}
    (h : Held env s id row bound last metadata)
    (hnext : NextRuntimeEvent env s.runtimeEvents id event payload)
    (hlinked : (runtimeLog τ).Linked "" (s.runtimeEvents ++ [event]))
    (htype : event.eventType = preflightRebound)
    (hnamed : readBinding env (.obj payload) = .ok named) :
    Held env { s with runtimeEvents := s.runtimeEvents ++ [event] } id row named event metadata where
  find := h.find
  tip := by
    rw [hlinked.tip_append, if_pos]
    exact hnext.session
  metadata := h.metadata
  binding := by
    have hlast : reboundEvent { s with runtimeEvents := s.runtimeEvents ++ [event] } row.sessionId = _ :=
      reboundEvent_append rfl hlinked row.sessionId
    rw [if_pos ⟨hnext.session.trans h.id_eq.symm, htype⟩] at hlast
    rw [binding_of_some hlast hnext.stored hnext.normal, hnamed]

/-- What a call with these arguments may append is new to the log. -/
def FreshEvent (env : Env τ) (s : Store τ) (id eventId : String) : Prop :=
  ∀ row payload, NextRuntimeEvent env s.runtimeEvents id row payload → row.eventId = eventId →
    ∀ r ∈ s.runtimeEvents, r.clash row = false

/-- A transition that `RUNTIME_TRANSITIONS` allows is written. -/
theorem transitionRuntimeSession_of {lifecycle : String} {target : Lifecycle} {a : EventArgs}
    {now : Instant} {eventType actor : RequiredText} (h : Held env s a.sessionId row bound last metadata)
    (htarget : enumText runtimeLifecycles lifecycle "runtime lifecycle" = .ok target)
    (hne : target ≠ last.lifecycle) (hmem : target ∈ runtimeTransitions last.lifecycle)
    (hnow : utcIso env a.occurredAt "occurred_at" = .ok now) (htime : last.occurredAt.1 ≤ now.1)
    (htype : requiredText env (.str a.eventType) "event_type" = .ok eventType)
    (hactor : requiredText env (.str a.actor) "actor" = .ok actor)
    (hclean : Clean env (.obj a.payload)) (hfresh : FreshEvent env s a.sessionId a.eventId) :
    ∃ event, NextRuntimeEvent env s.runtimeEvents a.sessionId event a.payload.sorted ∧
      event.eventId = a.eventId ∧ event.lifecycle = target ∧ event.occurredAt = now ∧
      event.eventType = eventType.1 ∧ transitionRuntimeSessionBody env s lifecycle a =
        .ok ({ s with runtimeEvents := s.runtimeEvents ++ [event] }, a.sessionId) := by
  obtain ⟨event, hnext, hid, hlifecycle, hat, heventType, hevent⟩ := appendRuntimeEventConn_of
    (a := ⟨target, a.eventType, a.actor, a.payload, now, a.eventId⟩) htype hactor hclean
    (fun last' hlast' => by
      rw [h.tip] at hlast'
      cases hlast'
      exact htime) (fun row => hfresh row _)
  refine ⟨event, hnext, hid, hlifecycle, hat, heventType, ?_⟩
  simp only [transitionRuntimeSessionBody, htarget, hnow, h.known, ok_bind, RuntimeSession.of,
    require_true hne, require_true hmem, h.id_eq, hevent]
  rfl

theorem perform_transition {lifecycle : String} {a : EventArgs} {s' : Store τ}
    (h : transitionRuntimeSessionBody env s lifecycle a = .ok (s', a.sessionId)) :
    (perform env s (.transitionRuntimeSession lifecycle a)).1 = s' ∧
      (perform env s (.transitionRuntimeSession lifecycle a)).2 =
        (readSession env "runtime session disappeared" s' a.sessionId).map fun _ => () := by
  simp only [perform, Prod.map_fst, Prod.map_snd, id, transitionRuntimeSession, afterCommit, h,
    transaction, ok_bind, and_self]

theorem appendRuntimeEvent_of {a : EventArgs} {now : Instant} {eventType actor : RequiredText}
    (h : Held env s a.sessionId row bound last metadata)
    (hnow : utcIso env a.occurredAt "occurred_at" = .ok now) (htime : last.occurredAt.1 ≤ now.1)
    (htype : requiredText env (.str a.eventType) "event_type" = .ok eventType)
    (hactor : requiredText env (.str a.actor) "actor" = .ok actor)
    (hclean : Clean env (.obj a.payload)) (hfresh : FreshEvent env s a.sessionId a.eventId) :
    ∃ event, NextRuntimeEvent env s.runtimeEvents a.sessionId event a.payload.sorted ∧
      event.lifecycle = last.lifecycle ∧ event.eventType = eventType.1 ∧
      (perform env s (.appendRuntimeEvent a)).1 =
        { s with runtimeEvents := s.runtimeEvents ++ [event] } := by
  obtain ⟨event, hnext, -, hlifecycle, -, heventType, hevent⟩ := appendRuntimeEventConn_of
    (a := ⟨last.lifecycle, a.eventType, a.actor, a.payload, now, a.eventId⟩) htype hactor hclean
    (fun last' hlast' => by
      rw [h.tip] at hlast'
      cases hlast'
      exact htime) (fun row => hfresh row _)
  have hbody : appendRuntimeEventBody env s a =
      .ok ({ s with runtimeEvents := s.runtimeEvents ++ [event] }, event) := by
    simp only [appendRuntimeEventBody, hnow, h.known, ok_bind, RuntimeSession.of, h.id_eq, hevent]
  refine ⟨event, hnext, hlifecycle, heventType, ?_⟩
  simp only [perform, Prod.map_fst, id, appendRuntimeEvent, hbody, transaction]

theorem sessionCreated_isRequiredText : IsRequiredText "SESSION_CREATED" := by decide

theorem sessionCreated_clean (row : SessionRow τ) (actor eventId : String) :
    Clean env (.obj (sessionCreated row actor eventId).payload) := by
  refine ⟨?_, trivial, ?_, trivial, trivial⟩ <;> rfl

variable (env) in
/-- The arguments of a live session over a snapshot. -/
structure SessionArgs.Over (a : SessionArgs) (p : PreflightSnapshot) (m : DeploymentManifest)
    (mode : Mode) (now : Instant) : Prop where
  deployment : a.deploymentId = m.deploymentId.1
  hash : a.deploymentManifestHash = m.manifestHash env
  snapshot : a.preflightSnapshotId = p.snapshotId.1
  mode : enumText runtimeModes a.mode "runtime mode" = .ok mode
  now : utcIso env a.occurredAt "occurred_at" = .ok now
  profile : ∃ profile, requiredText env (.str a.profile) "profile" = .ok profile
  instanceId : ∃ instanceId, requiredText env (.str a.runtimeInstanceId) "runtime_instance_id" = .ok instanceId
  actor : ∃ actor, requiredText env (.str a.actor) "actor" = .ok actor
  clean : Clean env (.obj a.metadata)

/-- A session over a usable snapshot is written, with its first event. -/
theorem createRuntimeSession_of {a : SessionArgs} {p : PreflightSnapshot} {m : DeploymentManifest}
    {mode : Mode} {now : Instant} (hs : Sound env s) (hp : Usable env s p m now) (ha : a.Over env p m mode now)
    (hnew : ∀ r ∈ s.sessions, r.sessionId ≠ orElse a.sessionId a.newId)
    (hfresh : FreshEvent env s (orElse a.sessionId a.newId) a.eventId) :
    ∃ (row : SessionRow τ) (event : RuntimeEventRow τ) (payload metadata : Fields),
      row.sessionId = orElse a.sessionId a.newId ∧ row.deploymentId = m.deploymentId.1 ∧
      row.deploymentManifestHash = m.manifestHash env ∧ row.mode = mode ∧
      row.preflightSnapshotId = p.snapshotId.1 ∧ row.preflightSnapshotHash = p.snapshotHash env ∧
      row.metadataJson = env.dumps (.obj metadata) ∧
      NextRuntimeEvent env s.runtimeEvents row.sessionId event payload ∧ event.eventId = a.eventId ∧
      event.lifecycle = .preflight ∧ event.occurredAt = now ∧ event.eventType = "SESSION_CREATED" ∧
      (perform env s (.createRuntimeSession a)).1 =
        { s with sessions := s.sessions ++ [row], runtimeEvents := s.runtimeEvents ++ [event] } := by
  obtain ⟨profile, hprofile⟩ := ha.profile
  obtain ⟨instanceId, hinstance⟩ := ha.instanceId
  obtain ⟨actor, hactor⟩ := ha.actor
  let row := sessionRow env a m (some p) mode profile instanceId a.metadata.sorted now
  have htip : (runtimeLog τ).tip s.runtimeEvents row.sessionId = none := hs.runtime.tip_none hnew
  obtain ⟨event, hnext, hid, hlifecycle, hat, htype, hevent⟩ :=
    @appendRuntimeEventConn_of _ env { s with sessions := s.sessions ++ [row] } row.sessionId
      (sessionCreated row a.actor a.eventId) _ _
      (requiredText_self env ⟨_, sessionCreated_isRequiredText⟩ _) hactor
      (sessionCreated_clean row a.actor a.eventId)
      (fun last hlast => by
        rw [show (runtimeLog τ).tip _ row.sessionId = none from htip] at hlast
        cases hlast) (fun event => hfresh event _)
  refine ⟨row, event, _, a.metadata.sorted, rfl, rfl, rfl, rfl, rfl, rfl, rfl, hnext, hid, hlifecycle, hat,
    htype, ?_⟩
  have hpreflight : sessionPreflight env s m mode p.snapshotId.1 now = .ok (some p) := by
    rw [sessionPreflight, if_pos p.snapshotId.2.2.1]
    simp only [hp.valid, hp.preflight, ok_bind, orRaise,
      require_true (show (Validity.mk [] (some p)).valid = true from rfl),
      require_true (show p.deploymentManifestHash.1 = m.manifestHash env by rw [hp.made.hash]; rfl)]
    rfl
  have hmanifest : requiredSha256 env (.str (m.manifestHash env)) "deployment_manifest_hash" =
      .ok (m.sha256 env) := requiredSha256_self env (m.sha256 env) _
  have hinsert : insertRow SessionRow.clash "live_runtime_sessions" s.sessions row =
      .ok (s.sessions ++ [row]) := by
    refine insertRow_eq_ok.mpr ⟨fun r hr => ?_, rfl⟩
    simp only [SessionRow.clash, decide_eq_false_iff_not]
    exact hnew r hr
  have hbody : createRuntimeSessionBody env s a = .ok ({ s with
      sessions := s.sessions ++ [row], runtimeEvents := s.runtimeEvents ++ [event] }, row.sessionId) := by
    simp only [createRuntimeSessionBody, ha.mode, ha.now, ha.deployment, ha.hash, ha.snapshot, hmanifest,
      hp.newest.current, hpreflight, (jsonObject_eq_ok env).mpr ⟨ha.clean, rfl⟩, hprofile, hinstance,
      ok_bind]
    rw [show sessionRow env a m (some p) mode profile instanceId a.metadata.sorted now = row from rfl,
      hinsert, ok_bind, hevent]
    rfl
  simp only [perform, Prod.map_fst, id, createRuntimeSession, afterCommit, hbody, transaction]

/-! ## Authorization -/

/-- A live running session of the newest manifest, bound to a usable snapshot, is authorized
while nothing blocks it. -/
theorem runtimeAuthorization_of {time : When} {now : Instant} {p : PreflightSnapshot}
    {m m' : DeploymentManifest} (h : Held env s id row bound last metadata)
    (hnow : utcIso env time "occurred_at" = .ok now) (hlive : row.mode.isLive = true)
    (hrunning : last.lifecycle = .running) (hm : Newest env s m) (hdeployment : row.deploymentId = m.deploymentId.1)
    (hhash : row.deploymentManifestHash = m.manifestHash env) (hbound : bound.1 = p.snapshotId.1)
    (hp : Usable env s p m' now) (hblocked : s.incidents = []) :
    ∃ a, runtimeAuthorization env s id time true = .ok a ∧ a.allowed = true := by
  have hcount : ∀ session, blockingIncidentCount env s session = 0 := by
    intro session
    rw [blockingIncidentCount, hblocked, List.countP_nil]
  simp only [runtimeAuthorization, hnow, h.session, ok_bind, RuntimeSession.of, hlive, hrunning, hdeployment,
    hm.latest, freshReasons, hbound, hp.valid, hcount, hhash, if_true]
  refine ⟨_, rfl, ?_⟩
  simp [Authorization.allowed]

end LiveTrader.Governance
