/-
# `Governance.Authorized` — what an authorization says

`runtime_authorization` finds the snapshot a session is bound to by its identifier, and
checks that its own manifest is the newest one of its own deployment; that this is the
manifest of the session it does not ask.  `create_runtime_session` and
`rebind_runtime_preflight` bind no other, so the binding is `Faithful` as long as no event
of the type `PREFLIGHT_REBOUND` is written through `append_runtime_event` or
`transition_runtime_session` with the snapshot of another manifest, and no snapshot is
created under an identifier that such an event has named before.
-/
import LiveTrader.Governance.Verified

namespace LiveTrader.Governance

open Lib Lib.Py Lib.Runs

variable {τ : Type} {env : Env τ} {s s' : Store τ}

/-! ## What an authorization should say -/

/-- The scope of an incident takes in a session of a deployment and a broker route. -/
def IncidentRow.Covers (i : IncidentRow) (sessionId deploymentId route : String) : Prop :=
  i.scopeType = .global ∨ (i.scopeType = .deployment ∧ i.scopeId = deploymentId) ∨
    (i.scopeType = .session ∧ i.scopeId = sessionId) ∨ (i.scopeType = .route ∧ i.scopeId = route)

variable (env s) in
/-- A session may trade at a time, under a manifest and on a snapshot. -/
structure Cleared (id : String) (now : Instant) (row : SessionRow τ) (m : DeploymentManifest)
    (p : PreflightSnapshot) : Prop where
  session : s.sessions.find? (·.sessionId = id) = some row
  live : row.mode = .smallLive ∨ row.mode = .fullLive
  running : ∃ last, (runtimeLog τ).tip s.runtimeEvents id = some last ∧ last.lifecycle = .running
  lifecycles : History (fun e => e.lifecycle = .preflight)
    (fun e e' => e'.lifecycle = e.lifecycle ∨ e'.lifecycle ∈ runtimeTransitions e.lifecycle)
    ((runtimeLog τ).rowsOf s.runtimeEvents id)
  manifest : row.deploymentId = m.deploymentId.1 ∧ row.deploymentManifestHash = m.manifestHash env
  newest : ManifestRow.of env m ∈ s.manifests ∧
    ∀ r ∈ s.manifests, r.deploymentId = row.deploymentId → r.revision ≤ m.revision.1.toNat
  bound : ∃ named, binding env s row = .ok named ∧ preflight env s named.1 = .ok (some p)
  issued : p.IssuedFor env m
  passed : p.status = .pass
  fresh : now.1 < p.expiresAt.1
  unblocked : ∀ i ∈ s.incidents, ∀ event, (incidentLog τ).tip s.incidentEvents i.incidentId = some event →
    event.state ≠ .resolved → event.severity = .critical → ¬ i.Covers id row.deploymentId m.brokerRoute.1

/-! ## Faithful bindings -/

variable (env) in
/-- No stored snapshot of another manifest has the identifier a session is bound to. -/
def Faithful (s : Store τ) : Prop :=
  ∀ row ∈ s.sessions, ∀ named, binding env s row = .ok named →
    ∀ p, SnapshotRow.of env p ∈ s.snapshots → IsNormal env p.metadata → p.snapshotId.1 = named.1 →
      p.deploymentManifestHash.1 = row.deploymentManifestHash

variable (env s) in
/-- A rebinding event of a session names no stored snapshot of another manifest. -/
def RebindsFaithfully (a : EventArgs) : Prop :=
  strip a.eventType = preflightRebound →
    ∀ row ∈ s.sessions, row.sessionId = a.sessionId →
      ∀ named, readBinding env (.obj a.payload.sorted) = .ok named →
        ∀ p, SnapshotRow.of env p ∈ s.snapshots → IsNormal env p.metadata → p.snapshotId.1 = named.1 →
          p.deploymentManifestHash.1 = row.deploymentManifestHash

variable (env) in
/-- A call does not bind a session to a snapshot of another manifest. -/
def BindsFaithfully (s : Store τ) : Action → Prop
  | .appendRuntimeEvent a => RebindsFaithfully env s a
  | .transitionRuntimeSession _ a => RebindsFaithfully env s a
  | .createPreflightSnapshot a =>
    ∀ row ∈ s.sessions, ∀ named, binding env s row = .ok named →
      named.1 = strip (orElse a.snapshotId a.newId) →
      ∀ hash, requiredSha256 env (.str a.deploymentManifestHash) "deployment_manifest_hash" = .ok hash →
        hash.1 = row.deploymentManifestHash
  | _ => True

theorem SnapshotRow.of_injective {p p' : PreflightSnapshot} (hp : IsNormal env p.metadata)
    (hp' : IsNormal env p'.metadata) (h : SnapshotRow.of env p = SnapshotRow.of env p') : p = p' := by
  have hread : snapshotFromRow env (.of env p) = .ok p := SnapshotRow.Stores.read ⟨hp, rfl⟩
  have hread' : snapshotFromRow env (.of env p') = .ok p' := SnapshotRow.Stores.read ⟨hp', rfl⟩
  rw [h, hread'] at hread
  exact (Except.ok.inj hread).symm

/-- A stored snapshot is the only one of its identifier. -/
theorem SnapshotsSound.unique (hs : SnapshotsSound env s.manifests s.snapshots) {p p' : PreflightSnapshot}
    (hp : SnapshotRow.of env p ∈ s.snapshots) (hp' : SnapshotRow.of env p' ∈ s.snapshots)
    (hnormal : IsNormal env p.metadata) (hnormal' : IsNormal env p'.metadata)
    (hid : p.snapshotId.1 = p'.snapshotId.1) : p = p' :=
  SnapshotRow.of_injective hnormal hnormal' (List.inj_on_of_nodup_map hs.distinct hp hp' hid)

/-- The snapshot that `_preflight_conn` finds is stored. -/
theorem SnapshotsSound.found (hs : SnapshotsSound env s.manifests s.snapshots) {id : String}
    {p : PreflightSnapshot} (h : preflight env s id = .ok (some p)) :
    SnapshotRow.of env p ∈ s.snapshots ∧ IsNormal env p.metadata ∧ p.snapshotId.1 = id := by
  obtain ⟨r, hr, ⟨hnormal, rfl⟩, hid⟩ := hs.find h
  exact ⟨hr, hnormal, hid⟩

/-- The manifest that a call is made for has the hash it was given. -/
theorem currentManifest_hash (hs : ManifestsSound env s.manifests) {deployment : String} {hash : Sha256}
    {m : DeploymentManifest} (h : currentManifest env s deployment hash = .ok m) :
    m.manifestHash env = hash.1 := by
  simp only [currentManifest, bind_eq_ok, orRaise_eq_ok, require_eq_ok, pure_eq_ok] at h
  obtain ⟨_, hfound, _, rfl, -, -, _, -, _, -, -, -, rfl⟩ := h
  obtain ⟨r, -, ⟨-, rfl⟩, hhash⟩ := hs.byHash hfound
  exact hhash

theorem sessionPreflight_eq_ok {m : DeploymentManifest} {mode : Mode} {id : String} {current : Instant}
    {p : Option PreflightSnapshot} (h : sessionPreflight env s m mode id current = .ok p) :
    p = none ∨ ∃ q, p = some q ∧ preflight env s id = .ok (some q) ∧
      q.deploymentManifestHash.1 = m.manifestHash env := by
  rw [sessionPreflight] at h
  split at h
  · simp only [bind_eq_ok, require_eq_ok, pure_eq_ok, orRaise_eq_ok] at h
    obtain ⟨_, -, -, -, _, hfound, q, rfl, -, hhash, rfl⟩ := h
    exact .inr ⟨q, rfl, hfound, hhash⟩
  · simp only [bind_eq_ok, require_eq_ok, pure_eq_ok] at h
    obtain ⟨-, -, rfl⟩ := h
    exact .inl rfl

/-! ### One step -/

/-- A binding depends on the events of its own session only. -/
theorem binding_other {row : SessionRow τ} {event : RuntimeEventRow τ}
    (hevents : s'.runtimeEvents = s.runtimeEvents ++ [event])
    (hlinked : (runtimeLog τ).Linked "" s'.runtimeEvents) (hne : event.sessionId ≠ row.sessionId) :
    binding env s' row = binding env s row :=
  binding_congr ((reboundEvent_append hevents hlinked row.sessionId).trans (if_neg fun h => hne h.1))

/-- One more event of a session keeps the bindings faithful, if it binds the session faithfully. -/
theorem Faithful.event {id : String} {event : RuntimeEventRow τ} {payload : Fields} (h : Faithful env s)
    (hnext : NextRuntimeEvent env s.runtimeEvents id event payload)
    (hlinked : (runtimeLog τ).Linked "" (s.runtimeEvents ++ [event]))
    (hbinds : event.eventType = preflightRebound → ∀ row ∈ s.sessions, row.sessionId = id →
      ∀ named, readBinding env (.obj payload) = .ok named → ∀ p, SnapshotRow.of env p ∈ s.snapshots →
        IsNormal env p.metadata → p.snapshotId.1 = named.1 →
          p.deploymentManifestHash.1 = row.deploymentManifestHash) :
    Faithful env { s with runtimeEvents := s.runtimeEvents ++ [event] } := by
  intro row hrow named hbinding
  have hlast : reboundEvent { s with runtimeEvents := s.runtimeEvents ++ [event] } row.sessionId = _ :=
    reboundEvent_append rfl hlinked row.sessionId
  by_cases hrebound : event.sessionId = row.sessionId ∧ event.eventType = preflightRebound
  · rw [if_pos hrebound] at hlast
    rw [binding_of_some hlast hnext.stored hnext.normal] at hbinding
    exact hbinds hrebound.2 row hrow (hrebound.1.symm.trans hnext.session) named hbinding
  · rw [if_neg hrebound] at hlast
    exact h row hrow named ((binding_congr hlast).symm.trans hbinding)

/-- A new session is bound to a snapshot of its own manifest. -/
theorem Faithful.session {a : SessionArgs} {m : DeploymentManifest} {mode : Mode} {current : Instant}
    {p : Option PreflightSnapshot} {profile instanceId : RequiredText} {metadata payload : Fields}
    {row : SessionRow τ} {event : RuntimeEventRow τ} (h : Faithful env s) (hs : Sound env s)
    (hp : sessionPreflight env s m mode a.preflightSnapshotId current = .ok p)
    (hrow : row = sessionRow env a m p mode profile instanceId metadata current)
    (hnew : ∀ r ∈ s.sessions, r.sessionId ≠ row.sessionId)
    (hnext : NextRuntimeEvent env s.runtimeEvents row.sessionId event payload)
    (hlinked : (runtimeLog τ).Linked "" (s.runtimeEvents ++ [event]))
    (htype : event.eventType = "SESSION_CREATED") :
    Faithful env { s with sessions := s.sessions ++ [row], runtimeEvents := s.runtimeEvents ++ [event] } := by
  intro r hr named hbinding q hq hnormal hid
  rcases List.mem_append.mp hr with hr | hr
  · have hother : binding env
        { s with sessions := s.sessions ++ [row], runtimeEvents := s.runtimeEvents ++ [event] } r =
          binding env s r := by
      refine binding_other rfl hlinked fun heq => hnew r hr ?_
      exact heq.symm.trans hnext.session
    exact h r hr named (hother.symm.trans hbinding) q hq hnormal hid
  · obtain rfl := List.mem_singleton.mp hr
    have hnone : reboundEvent s r.sessionId = none := by
      have htip := hs.runtime.tip_none hnew
      rw [Log.tip_eq_none] at htip
      rw [reboundEvent, htip]
      rfl
    have hlast : reboundEvent
        { s with sessions := s.sessions ++ [r], runtimeEvents := s.runtimeEvents ++ [event] } r.sessionId = _ :=
      reboundEvent_append rfl hlinked r.sessionId
    rw [if_neg, hnone] at hlast
    · rw [binding_of_none hlast] at hbinding
      obtain rfl := Except.ok.inj hbinding
      rcases sessionPreflight_eq_ok hp with rfl | ⟨q', rfl, hfound, hhash⟩
      · -- a session without a snapshot names none
        rw [hrow] at hid
        exact absurd hid q.snapshotId.2.2.1
      · obtain ⟨hq', hnormal', -⟩ := hs.snapshots.found hfound
        rw [hrow] at hid
        obtain rfl := hs.snapshots.unique hq hq' hnormal hnormal' hid
        rw [hhash, hrow]
        rfl
    · rintro ⟨-, hrebound⟩
      rw [htype] at hrebound
      exact absurd hrebound (by decide)

/-- A replacement is a stored snapshot of the manifest of the session. -/
theorem replacementPreflight_eq_ok {session : RuntimeSession} {id : String} {current : Instant}
    {p : PreflightSnapshot} (h : replacementPreflight env s session id current = .ok p) :
    preflight env s id = .ok (some p) ∧ p.deploymentManifestHash.1 = session.deploymentManifestHash := by
  simp only [replacementPreflight, bind_eq_ok, require_eq_ok, pure_eq_ok, orRaise_eq_ok] at h
  obtain ⟨_, -, -, -, _, hfound, q, rfl, -, hscope, _, -, -, -, rfl⟩ := h
  exact ⟨hfound, hscope.2.1⟩

/-- **One step** keeps the bindings faithful. -/
theorem Change.faithful {act : Action} (h : Change env s act s') (hs : Sound env s)
    (hok : BindsFaithfully env s act) (hf : Faithful env s) : Faithful env s' := by
  have hlinked := (h.sound hs).runtime.linked
  cases h with
  | raised => exact hf
  | manifest => exact hf
  | snapshot hhash hm hmake hfresh =>
    intro row hrow named hbinding q hq hnormal hid
    rcases List.mem_append.mp hq with hq | hq
    · exact hf row hrow named hbinding q hq hnormal hid
    · obtain ⟨hnormal', hissued, hname⟩ := snapshotInput_eq_ok hmake
      obtain rfl := SnapshotRow.of_injective hnormal hnormal' (List.mem_singleton.mp hq)
      rw [hissued.hash, currentManifest_hash hs.manifests hm]
      exact hok row hrow named hbinding (hid.symm.trans hname) _ hhash
  | session hm hp hrow hfresh hnext hfirst htype =>
    refine hf.session hs hp hrow (fun r hr => ?_) hnext hlinked htype
    simpa [SessionRow.clash] using hfresh r hr
  | event hact hknown hnext hlifecycle htype =>
    refine hf.event hnext hlinked fun hrebound => ?_
    rcases hact with rfl | ⟨_, rfl⟩ <;> exact hok (htype.symm.trans hrebound)
  | @rebound a _ _ _ _ hknown hp hnext hlifecycle htype =>
    refine hf.event hnext hlinked fun _ row hrow hid named hnamed q hq hnormal hname => ?_
    rw [readBinding_rebindPayload] at hnamed
    obtain rfl := Except.ok.inj hnamed
    obtain ⟨hfound, hhash⟩ := replacementPreflight_eq_ok hp
    obtain ⟨hp', hnormal', -⟩ := hs.snapshots.found hfound
    obtain rfl := hs.snapshots.unique hq hp' hnormal hnormal' hname
    obtain ⟨found, hrow', -, hmanifest, -⟩ := hknown.row
    have hfoundId : found.sessionId = a.sessionId := by simpa using List.find?_some hrow'
    obtain rfl := List.inj_on_of_nodup_map hs.runtime.distinct hrow (List.mem_of_find?_eq_some hrow')
      (hid.trans hfoundId.symm)
    exact hhash.trans hmanifest
  | incident => exact hf
  | incidentEvent => exact hf

/-- **Every run** of calls that bind faithfully keeps the bindings faithful. -/
theorem faithful_of_run {acts : List Action} (h : Run (step env) (BindsFaithfully env) {} acts s) :
    Sound env s ∧ Faithful env s := by
  refine h.invariant (P := fun s => Sound env s ∧ Faithful env s) ?_
    ⟨sound_empty, fun _ hrow => (nomatch hrow)⟩
  rintro s act s' hok hstep ⟨hs, hf⟩
  obtain rfl := Option.some.inj hstep
  exact ⟨(perform_change act).sound hs, (perform_change act).faithful hs hok hf⟩

/-! ## Authorization -/

/-- A validity without a reason is one of a snapshot that passed and has not expired. -/
theorem preflightValidity_eq_ok {id : String} {current : Instant} {v : Validity}
    (h : preflightValidity env s id current = .ok v) (hvalid : v.reasons = []) :
    ∃ p, preflight env s id = .ok (some p) ∧ p.status = .pass ∧ current.1 < p.expiresAt.1 := by
  simp only [preflightValidity, bind_eq_ok] at h
  obtain ⟨found, hfound, h⟩ := h
  cases found with
  | none =>
    obtain rfl := Except.ok.inj h
    cases hvalid
  | some p =>
    simp only [bind_eq_ok, pure_eq_ok] at h
    obtain ⟨latest, -, rfl⟩ := h
    simp only [List.append_eq_nil_iff] at hvalid
    obtain ⟨⟨hstatus, hexpired⟩, -⟩ := hvalid
    refine ⟨p, hfound, ?_, ?_⟩
    · by_contra hne
      rw [if_pos hne] at hstatus
      cases hstatus
    · by_contra hle
      rw [PreflightSnapshot.isExpired, if_pos (decide_eq_true (not_lt.mp hle))] at hexpired
      cases hexpired

/-- What `runtime_authorization` has found where it allows. -/
theorem runtimeAuthorization_eq_ok {id : String} {time : When} {a : Authorization}
    (h : runtimeAuthorization env s id time true = .ok a) (hallowed : a.allowed = true) :
    ∃ current session m p, utcIso env time "occurred_at" = .ok current ∧ KnownSession env s id session ∧
      session.mode.isLive = true ∧ session.lifecycle = .running ∧
      latestManifest env s session.deploymentId = .ok (some m) ∧
      m.manifestHash env = session.deploymentManifestHash ∧
      preflight env s session.preflightSnapshotId = .ok (some p) ∧ p.status = .pass ∧
      current.1 < p.expiresAt.1 ∧ blockingIncidentCount env s session = 0 := by
  simp only [runtimeAuthorization, bind_eq_ok] at h
  obtain ⟨current, hcurrent, found, hfound, h⟩ := h
  cases found with
  | none =>
    obtain rfl := Except.ok.inj h
    cases hallowed
  | some session =>
    simp only [freshReasons, if_true, bind_eq_ok, pure_eq_ok] at h
    obtain ⟨latest, hlatest, _, ⟨v, hv, rfl⟩, rfl⟩ := h
    simp only [Authorization.allowed, List.isEmpty_iff, eraseDups_eq_nil, List.append_eq_nil_iff] at hallowed
    obtain ⟨⟨⟨⟨hlive, hrunning⟩, hsuperseded⟩, hvalid⟩, hcritical⟩ := hallowed
    obtain ⟨p, hp, hpass, hfresh⟩ := preflightValidity_eq_ok hv hvalid
    have hhash : latest.map (·.manifestHash env) = some session.deploymentManifestHash := by
      by_contra hne
      rw [if_pos hne] at hsuperseded
      cases hsuperseded
    obtain ⟨m, rfl, hm⟩ := Option.map_eq_some_iff.mp hhash
    refine ⟨current, session, m, p, hcurrent, runtimeSession_eq_ok hfound, ?_, ?_, hlatest, hm, hp, hpass,
      hfresh, ?_⟩
    · by_contra hne
      rw [if_neg hne] at hlive
      cases hlive
    · by_contra hne
      rw [if_pos hne] at hrunning
      cases hrunning
    · by_contra hne
      rw [if_pos hne] at hcritical
      cases hcritical

/-- The newest manifest that is read is stored, and no revision of its deployment is newer. -/
theorem ManifestsSound.latest (hs : ManifestsSound env s.manifests) {id : String} {m : DeploymentManifest}
    (h : latestManifest env s id = .ok (some m)) :
    ManifestRow.of env m ∈ s.manifests ∧ IsNormal env m.metadata ∧ m.deploymentId.1 = id ∧
      ∀ r ∈ s.manifests, r.deploymentId = id → r.revision ≤ m.revision.1.toNat := by
  simp only [latestManifest] at h
  cases htip : (manifestLog τ).tip s.manifests id with
  | none => simp [htip] at h
  | some r =>
    obtain ⟨hr, hid⟩ := Log.tip_mem htip
    obtain ⟨m', hm'⟩ := hs.stored r hr
    simp [htip, hm'.read] at h
    subst h
    obtain ⟨hnormal, rfl⟩ := hm'
    refine ⟨hr, hnormal, hid, fun r' hr' hid' => ?_⟩
    exact List.le_of_mem_argmax (Log.mem_rowsOf.mpr ⟨hr', hid'⟩) htip

/-- Two stored manifests of one hash are the same. -/
theorem ManifestsSound.unique (hs : ManifestsSound env s.manifests) {m m' : DeploymentManifest}
    (hm : ManifestRow.of env m ∈ s.manifests) (hm' : ManifestRow.of env m' ∈ s.manifests)
    (hnormal : IsNormal env m.metadata) (hnormal' : IsNormal env m'.metadata)
    (hhash : m.manifestHash env = m'.manifestHash env) : m = m' := by
  have heq : ManifestRow.of env m = ManifestRow.of env m' :=
    List.inj_on_of_nodup_map hs.distinct hm hm' hhash
  have hread : manifestFromRow env (.of env m) = .ok m := ManifestRow.Stores.read ⟨hnormal, rfl⟩
  have hread' : manifestFromRow env (.of env m') = .ok m' := ManifestRow.Stores.read ⟨hnormal', rfl⟩
  rw [heq, hread'] at hread
  exact (Except.ok.inj hread).symm

/-- A stored snapshot of the hash of a stored manifest was issued for it. -/
theorem Sound.issuedFor (hs : Sound env s) {p : PreflightSnapshot} {m : DeploymentManifest}
    (hp : SnapshotRow.of env p ∈ s.snapshots) (hpn : IsNormal env p.metadata)
    (hm : ManifestRow.of env m ∈ s.manifests) (hmn : IsNormal env m.metadata)
    (hhash : p.deploymentManifestHash.1 = m.manifestHash env) : p.IssuedFor env m := by
  obtain ⟨p', m', ⟨hpn', hrow⟩, hissued, _, hmr, hmn', rfl⟩ := hs.snapshots.stored _ hp
  obtain rfl := SnapshotRow.of_injective hpn hpn' hrow
  obtain rfl := hs.manifests.unique hm hmr hmn hmn' (hhash.symm.trans hissued.hash)
  exact hissued

/-- The route of a stored manifest, as the count of the blocking incidents reads it. -/
theorem ManifestsSound.brokerRouteOf (hs : ManifestsSound env s.manifests) {m : DeploymentManifest}
    (hm : ManifestRow.of env m ∈ s.manifests) :
    brokerRouteOf env s (m.manifestHash env) = some m.brokerRoute.1 := by
  have hfind : s.manifests.find? (·.manifestHash = m.manifestHash env) = some (.of env m) := by
    cases hfind : s.manifests.find? (·.manifestHash = m.manifestHash env) with
    | none => exact absurd (decide_eq_true rfl) (List.find?_eq_none.mp hfind _ hm)
    | some r =>
      have hhash : r.manifestHash = m.manifestHash env := by simpa using List.find?_some hfind
      exact congrArg some
        (List.inj_on_of_nodup_map hs.distinct (List.mem_of_find?_eq_some hfind) hm hhash)
  have hroute : (m.toDictWithHash env).sorted.at "brokerRoute" = .str m.brokerRoute.1 := by
    simp [DeploymentManifest.toDictWithHash, DeploymentManifest.toDict, Fields.at, List.lookup_cons]
  simp only [Governance.brokerRouteOf, hfind, Option.bind_eq_bind, Option.bind_some, ManifestRow.of,
    env.loads_dumps, Json.sortKeys_obj, hroute]

/-- An incident that blocks nothing does not cover the session. -/
theorem not_covers_of_count {session : RuntimeSession} {m : DeploymentManifest}
    (hcount : blockingIncidentCount env s session = 0)
    (hroute : brokerRouteOf env s session.deploymentManifestHash = some m.brokerRoute.1) :
    ∀ i ∈ s.incidents, ∀ event, (incidentLog τ).tip s.incidentEvents i.incidentId = some event →
      event.state ≠ .resolved → event.severity = .critical →
        ¬ i.Covers session.sessionId session.deploymentId m.brokerRoute.1 := by
  intro i hi event htip hstate hseverity hcovers
  rw [blockingIncidentCount, List.countP_eq_zero] at hcount
  refine hcount i hi ?_
  rw [blocks, htip]
  simp only [hroute, Bool.and_eq_true, Bool.or_eq_true, decide_eq_true_eq, Option.some.injEq]
  refine ⟨⟨hstate, hseverity⟩, ?_⟩
  rcases hcovers with h | h | h | h
  · exact .inl (.inl (.inl (.inl (.inl h))))
  · exact .inl (.inr h)
  · exact .inl (.inl (.inr h))
  · exact .inr h

/-- **Authorization is sound** in every run whose calls bind faithfully. -/
theorem cleared_of_run {acts : List Action} (h : Run (step env) (BindsFaithfully env) {} acts s)
    {id : String} {time : When} {a : Authorization}
    (ha : runtimeAuthorization env s id time true = .ok a) (hallowed : a.allowed = true) :
    ∃ now row m p, utcIso env time "occurred_at" = .ok now ∧ Cleared env s id now row m p := by
  obtain ⟨hs, hf⟩ := faithful_of_run h
  obtain ⟨now, session, m, p, hnow, hknown, hlive, hrunning, hlatest, hhash, hp, hpass, hfresh, hcount⟩ :=
    runtimeAuthorization_eq_ok ha hallowed
  obtain ⟨row, hrow, hdeployment, hmanifest, hmode, -, hbinding⟩ := hknown.row
  obtain ⟨last, htip, hlast⟩ := hknown.tip
  obtain ⟨hm, hmn, hmid, hnewest⟩ := hs.manifests.latest hlatest
  obtain ⟨hpmem, hpn, hpid⟩ := hs.snapshots.found hp
  have hsame : p.deploymentManifestHash.1 = row.deploymentManifestHash :=
    hf row (List.mem_of_find?_eq_some hrow) _ hbinding p hpmem hpn hpid
  have hroute : brokerRouteOf env s session.deploymentManifestHash = some m.brokerRoute.1 := by
    rw [← hhash]
    exact hs.manifests.brokerRouteOf hm
  refine ⟨now, row, m, p, hnow, ?_⟩
  constructor
  · exact hrow
  · rw [hmode] at hlive
    cases hmode' : row.mode with
    | monitor => simp [hmode', Mode.isLive] at hlive
    | smallLive => exact .inl rfl
    | fullLive => exact .inr rfl
  · exact ⟨last, htip, hlast.symm.trans hrunning⟩
  · exact (hs.runtime.history id).imp (fun _ h => h) fun _ _ h => h.lifecycle
  · exact ⟨hdeployment.symm.trans hmid.symm, hmanifest.symm.trans hhash.symm⟩
  · exact ⟨hm, fun r hr hid => hnewest r hr (hid.trans hdeployment.symm)⟩
  · exact ⟨_, hbinding, hp⟩
  · exact hs.issuedFor hpmem hpn hm hmn (hsame.trans (hmanifest.symm.trans hhash.symm))
  · exact hpass
  · exact hfresh
  · rw [← hknown.id, ← hdeployment]
    exact not_covers_of_count hcount hroute

/-! ## Runs -/

/-- The transitions of the sample session to `STARTING` and `RUNNING`. -/
def sampleStart : List Action :=
  [.transitionRuntimeSession "STARTING" (sampleEvent 2 "A" []),
    .transitionRuntimeSession "RUNNING" (sampleEvent 3 "A" [])]

theorem SampleSession.advance {s : Store Json} {n : ℕ} {lifecycle : Lifecycle} {row : SessionRow Json}
    {bound : String × String} (h : SampleSession s n lifecycle row bound) (hs : Sound Env.sample s)
    (text : String) (target : Lifecycle) (hn : n < 4)
    (htarget : enumText runtimeLifecycles text "runtime lifecycle" = .ok target) (hne : target ≠ lifecycle)
    (hmem : target ∈ runtimeTransitions lifecycle) :
    ∃ event, (perform Env.sample s (.transitionRuntimeSession text (sampleEvent (n + 1) "A" []))).1 =
        { s with runtimeEvents := s.runtimeEvents ++ [event] } ∧
      SampleSession { s with runtimeEvents := s.runtimeEvents ++ [event] } (n + 1) target row bound := by
  obtain ⟨event, hnext, hid, rfl, hat, htype, hbody⟩ :=
    h.transition text target [] sampleA hn htarget hne hmem trivial
  have hchange : Change Env.sample s _ _ := transitionRuntimeSession_change hbody
  have hplain : event.eventType ≠ preflightRebound := by
    rw [htype]
    decide
  refine ⟨event, (perform_transition hbody).1, h.next hnext hid hat fun last metadata hheld => ?_⟩
  exact hheld.after hnext (hchange.sound hs).runtime.linked hplain

theorem sample_running {ok : Store Json → Action → Prop}
    (hok : ∀ s, s.sessions = [] → ∀ act ∈ sampleActs, ok s act) (hstart : ∀ s, ∀ act ∈ sampleStart, ok s act) :
    ∃ s row bound, Run (step Env.sample) ok {} (sampleActs ++ sampleStart) s ∧
    s.manifests = [.of Env.sample sampleManifestA] ∧
    s.snapshots = [.of Env.sample (samplePreflight sampleManifestA)] ∧ s.incidents = [] ∧
    row.deploymentId = "A" ∧ row.deploymentManifestHash = sampleHash 1 ∧ row.mode = .smallLive ∧
    bound.1 = "A" ∧ SampleSession s 3 .running row bound := by
  obtain ⟨s, row, bound, hrun, hm, hp, hi, hdeployment, hhash, hmode, hbound, -, hsession⟩ := sample_created hok
  obtain ⟨e₂, he₂, hsession₂⟩ := hsession.advance (sound_of_run hrun) "STARTING" .starting (by decide)
    (by decide) (by decide) (by decide)
  have hrun₂ := hrun.snoc (hstart _ _ List.mem_cons_self) (congrArg some he₂)
  obtain ⟨e₃, he₃, hsession₃⟩ := hsession₂.advance (sound_of_run hrun₂) "RUNNING" .running (by decide)
    (by decide) (by decide) (by decide)
  have hrun₃ := hrun₂.snoc (hstart _ _ (List.mem_cons_of_mem _ List.mem_cons_self)) (congrArg some he₃)
  rw [List.append_assoc] at hrun₃
  exact ⟨_, row, bound, hrun₃, hm, hp, hi, hdeployment, hhash, hmode, hbound, hsession₃⟩

/-- The running sample session is authorized. -/
theorem cleared_of_run_sample : ∃ s a, Run (step Env.sample) (BindsFaithfully Env.sample) {}
    (sampleActs ++ sampleStart) s ∧
    runtimeAuthorization Env.sample s "S" (.datetime ⟨0, true⟩) true = .ok a ∧ a.allowed = true ∧
    ∃ now row m p, utcIso Env.sample (.datetime ⟨0, true⟩) "occurred_at" = .ok now ∧
      Cleared Env.sample s "S" now row m p := by
  obtain ⟨s, row, bound, hrun, hm, hp, hi, hdeployment, hhash, hmode, hbound, hsession⟩ :=
    @sample_running (BindsFaithfully Env.sample)
      (fun s hnone act hact => by
        simp only [sampleActs, List.mem_cons, List.not_mem_nil, or_false] at hact
        rcases hact with rfl | rfl | rfl
        · trivial
        · intro row hrow
          rw [hnone] at hrow
          cases hrow
        · trivial)
      (fun s act hact => by
        simp only [sampleStart, List.mem_cons, List.not_mem_nil, or_false] at hact
        rcases hact with rfl | rfl <;> exact fun h => absurd h (by decide))
  obtain ⟨last, metadata, hheld, hrunning, -, -⟩ := hsession.held
  have hnewest : Newest Env.sample s sampleManifestA := sample_newestA hm fun _ h => absurd h List.not_mem_nil
  have husable := sample_usable hnewest rfl (by
    rw [hp, List.find?_cons_of_pos]
    rfl)
  obtain ⟨a, ha, hallowed⟩ := runtimeAuthorization_of hheld utcIso_sampleNow (by rw [hmode]; rfl) hrunning
    hnewest hdeployment (hhash.trans sampleManifestA_hash.symm) hbound husable hi
  exact ⟨s, a, hrun, ha, hallowed, cleared_of_run hrun ha hallowed⟩

/-- The manifest of another deployment and account. -/
def sampleManifestB : DeploymentManifest := sampleManifest ⟨"B", by decide⟩ (sampleDigest 2)

theorem sampleManifestB_hash : sampleManifestB.manifestHash Env.sample = sampleHash 2 :=
  sample_manifestHash _ (sampleDigest 2)

theorem sample_snapshotHash (deployment : RequiredText) (account : Sha256) :
    (samplePreflight (sampleManifest deployment account)).snapshotHash Env.sample =
      sampleHash (if deployment.1 = "A" then 1 else 2) := by
  have hsequence : ((samplePreflight (sampleManifest deployment account)).toDict Env.sample).lookup
      "sequence" = none := rfl
  have hid : ((samplePreflight (sampleManifest deployment account)).toDict Env.sample).lookup
      "deploymentId" = some (.str deployment.1) := rfl
  rw [PreflightSnapshot.snapshotHash, sample_sha256, Json.sortKeys_obj]
  simp only [sampleMark, Fields.lookup_sorted, hsequence, hid, Option.map_some, Option.map_none,
    Json.sortKeys_str]

/-- An event that names the snapshot of the other manifest. -/
def sampleForeign : EventArgs :=
  sampleEvent 4 preflightRebound
    [("preflightSnapshotId", .str "B"), ("preflightSnapshotHash", .str (sampleHash 1))]

/-- The other manifest, its snapshot and the event that names it. -/
def sampleRebind : List Action :=
  [.createDeploymentManifest (.of Env.sample sampleManifestB),
    .createPreflightSnapshot (.of Env.sample (samplePreflight sampleManifestB)),
    .appendRuntimeEvent sampleForeign]

theorem readBinding_sampleForeign :
    readBinding Env.sample (.obj sampleForeign.payload.sorted) = .ok ("B", sampleHash 1) := by
  decide

theorem sampleRows_differ : ManifestRow.clash (.of Env.sample sampleManifestA)
      (.of Env.sample sampleManifestB) = false ∧
    SnapshotRow.clash (.of Env.sample (samplePreflight sampleManifestA))
      (.of Env.sample (samplePreflight sampleManifestB)) = false := by
  have hne : sampleHash 1 ≠ sampleHash 2 := sampleHash_ne (le_refl 1) (by decide) (by decide)
  have hids : sampleManifestA.deploymentId.1 ≠ sampleManifestB.deploymentId.1 := by decide
  have hA : (samplePreflight sampleManifestA).snapshotHash Env.sample = sampleHash 1 :=
    sample_snapshotHash sampleA (sampleDigest 1)
  have hB : (samplePreflight sampleManifestB).snapshotHash Env.sample = sampleHash 2 :=
    sample_snapshotHash _ (sampleDigest 2)
  constructor
  · simp only [ManifestRow.clash, ManifestRow.of, sampleManifestA_hash, sampleManifestB_hash, decide_eq_false hne,
      decide_eq_false hids, Bool.false_or, Bool.false_and]
  · simp only [SnapshotRow.clash, SnapshotRow.of, hA, hB, decide_eq_false hne, Bool.or_false]
    exact decide_eq_false hids

/-- A store with the sample manifest and snapshot only, and the second ones after them. -/
def withForeign (s : Store Json) : Store Json := { s with
  manifests := s.manifests ++ [.of Env.sample sampleManifestB]
  snapshots := s.snapshots ++ [.of Env.sample (samplePreflight sampleManifestB)] }

variable {s : Store Json}

theorem sample_newestB (hm : s.manifests = [.of Env.sample sampleManifestA, .of Env.sample sampleManifestB]) :
    Newest Env.sample s sampleManifestB := by
  have hdiffer := sampleRows_differ.1
  simp only [ManifestRow.clash, Bool.or_eq_false_iff, decide_eq_false_iff_not] at hdiffer
  refine newest_of_alone isNormal_nil ?_ ?_
  · rw [hm]
    rfl
  · rw [hm, List.find?_cons_of_neg, List.find?_cons_of_pos]
    · exact decide_eq_true rfl
    · exact fun h => hdiffer.1 (of_decide_eq_true h)

/-- The second manifest and its snapshot are written. -/
theorem sample_withForeign {ok : Store Json → Action → Prop} {acts : List Action}
    (hrun : Run (step Env.sample) ok {} acts s) (hok : ∀ s, ∀ act ∈ sampleRebind, ok s act)
    (hm : s.manifests = [.of Env.sample sampleManifestA])
    (hp : s.snapshots = [.of Env.sample (samplePreflight sampleManifestA)]) :
    Run (step Env.sample) ok {} (acts ++ sampleRebind.take 2) (withForeign s) := by
  have hmanifest : (perform Env.sample s (.createDeploymentManifest (.of Env.sample sampleManifestB))).1 =
      { s with manifests := s.manifests ++ [.of Env.sample sampleManifestB] } := by
    refine createDeploymentManifest_of isNormal_nil ?_ ?_ (by decide) fun r hr => ?_
    · rw [hm]
      rfl
    · rw [hm]
      rfl
    · rw [hm] at hr
      obtain rfl := List.mem_singleton.mp hr
      exact sampleRows_differ.1
  have hsnapshot : (perform Env.sample { s with manifests := s.manifests ++ [.of Env.sample sampleManifestB] }
      (.createPreflightSnapshot (.of Env.sample (samplePreflight sampleManifestB)))).1 = withForeign s := by
    refine createPreflightSnapshot_of (sample_newestB ?_) (samplePreflight_madeFrom rfl) fun r hr => ?_
    · rw [hm]
      rfl
    · rw [hp] at hr
      obtain rfl := List.mem_singleton.mp hr
      exact sampleRows_differ.2
  exact hrun.trans (.cons (hok _ _ (by simp [sampleRebind])) (congrArg some hmanifest)
    (.cons (hok _ _ (by simp [sampleRebind])) (congrArg some hsnapshot) (.nil _)))

/-- The running session bound to the snapshot of another account is authorized. -/
theorem foreign_snapshot_authorized : ∃ s a, Run (step Env.sample) Free {}
    (sampleActs ++ sampleStart ++ sampleRebind) s ∧
    runtimeAuthorization Env.sample s "S" (.datetime ⟨0, true⟩) true = .ok a ∧ a.allowed = true ∧
    ∀ now row m p, ¬ Cleared Env.sample s "S" now row m p := by
  obtain ⟨s, row, bound, hrun, hm, hp, hi, hdeployment, hhash, hmode, -, hsession⟩ :=
    @sample_running Free (fun _ _ _ _ => trivial) fun _ _ _ => trivial
  have hrun₂ := sample_withForeign hrun (fun _ _ _ => trivial) hm hp
  obtain ⟨last, metadata, hheld, hrunning, hlast, hsequence⟩ := hsession.held
  have hheld₂ : Held Env.sample (withForeign s) "S" row bound last metadata :=
    ⟨hheld.find, hheld.tip, hheld.metadata, hheld.binding⟩
  have hsession₂ : SampleSession (withForeign s) 3 .running row bound :=
    ⟨hsession.numbered, last, metadata, hheld₂, hrunning, hlast, hsequence⟩
  obtain ⟨event, hnext, hlifecycle, htype, hevent⟩ := appendRuntimeEvent_of (a := sampleForeign) hheld₂
    utcIso_sampleNow (by rw [hlast]) (requiredText_self _ ⟨preflightRebound, by decide⟩ _)
    (requiredText_sample _) ⟨rfl, trivial, rfl, trivial, trivial⟩ (hsession₂.freshEvent (by decide))
  have hrun₃ := hrun₂.snoc trivial (congrArg some hevent)
  rw [List.append_assoc (sampleActs ++ sampleStart)] at hrun₃
  have hheld₃ := hheld₂.rebound hnext (sound_of_run hrun₃).runtime.linked htype readBinding_sampleForeign
  let s₃ : Store Json := { withForeign s with runtimeEvents := (withForeign s).runtimeEvents ++ [event] }
  have hmanifests : s₃.manifests = [.of Env.sample sampleManifestA, .of Env.sample sampleManifestB] := by
    change s.manifests ++ _ = _
    rw [hm]
    rfl
  have hsnapshots : s₃.snapshots.find? (·.snapshotId = "B") =
      some (.of Env.sample (samplePreflight sampleManifestB)) := by
    change (s.snapshots ++ _).find? _ = _
    rw [hp]
    rfl
  have hnewest : Newest Env.sample s₃ sampleManifestA := by
    refine sample_newestA hmanifests fun r hr => ?_
    obtain rfl := List.mem_singleton.mp hr
    exact show ("B" : String) ≠ "A" by decide
  have husable : Usable Env.sample s₃ (samplePreflight sampleManifestB) sampleManifestB sampleNow :=
    sample_usable (sample_newestB hmanifests) rfl hsnapshots
  obtain ⟨a, ha, hallowed⟩ := runtimeAuthorization_of hheld₃ utcIso_sampleNow (by rw [hmode]; rfl)
    (hlifecycle.trans hrunning) hnewest hdeployment (hhash.trans sampleManifestA_hash.symm) rfl husable hi
  refine ⟨s₃, a, hrun₃, ha, hallowed, fun now row' m p hcleared => ?_⟩
  -- the snapshot it is bound to was issued for the other manifest
  obtain rfl : row' = row := Option.some.inj (hcleared.session.symm.trans hheld₃.find)
  obtain ⟨named, hnamed, hpreflight⟩ := hcleared.bound
  obtain rfl := Except.ok.inj (hheld₃.binding.symm.trans hnamed)
  obtain rfl := Option.some.inj (Except.ok.inj (husable.preflight.symm.trans hpreflight))
  have hsame : sampleHash 2 = sampleHash 1 := by
    rw [← hhash, hcleared.manifest.2, ← hcleared.issued.hash, ← sampleManifestB_hash]
    rfl
  exact sampleHash_ne (le_refl 1) (by decide) (by decide) hsame.symm

end LiveTrader.Governance
