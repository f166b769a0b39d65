/-
# `Governance.Sound` — what every store keeps

`Sound env s` collects, table by table, what holds of the rows whatever calls were made:
every row stores a record that can be read back and hashes to what the row says, every
deployment, session and incident has one chain, consecutive events of a session follow
`RUNTIME_TRANSITIONS`, those of an incident `INCIDENT_TRANSITIONS`, and no key has two
unresolved incidents.  `Change.sound` is the one step lemma.
-/
import LiveTrader.Governance.Steps

namespace LiveTrader.Governance

open Lib Lib.Py Lib.Runs

variable {τ : Type} {env : Env τ} {s s' : Store τ}

/-! ## Manifests -/

variable (env) in
/-- A row that stores a manifest. -/
def ManifestRow.Stores (r : ManifestRow τ) (m : DeploymentManifest) : Prop :=
  IsNormal env m.metadata ∧ r = .of env m

variable (env) in
structure ManifestsSound (rows : List (ManifestRow τ)) : Prop where
  stored : ∀ r ∈ rows, ∃ m, r.Stores env m
  linked : (manifestLog τ).Linked "" rows
  distinct : (rows.map (·.manifestHash)).Nodup

theorem ManifestRow.Stores.read {r : ManifestRow τ} {m : DeploymentManifest} (h : r.Stores env m) :
    manifestFromRow env r = .ok m := by
  obtain ⟨hnormal, rfl⟩ := h
  simp only [manifestFromRow, of, env.loads_dumps, Json.sortKeys_obj, Json.fields, ok_bind]
  exact DeploymentManifest.fromDict_stored env hnormal

theorem ManifestRow.Stores.hash_isHash {r : ManifestRow τ} {m : DeploymentManifest}
    (h : r.Stores env m) : isHash r.manifestHash = true := by
  rw [h.2]
  exact env.sha256_isHash _

theorem manifestInput_eq_ok {a : ManifestArgs} {id : RequiredText} {tip : Option (ManifestRow τ)}
    {created : Instant} {m : DeploymentManifest}
    (h : DeploymentManifest.make env (manifestInput env a id tip created) = .ok m) :
    IsNormal env m.metadata ∧ m.deploymentId = id ∧
      m.revision.1 = (manifestLog τ).nextSequence tip ∧
      optionalSha256 env (.str ((manifestLog τ).nextPrevious "" tip)) "previous_manifest_hash" =
        .ok m.previousManifestHash.1 := by
  simp only [DeploymentManifest.make, bind_eq_ok, require_eq_ok, pure_eq_ok] at h
  obtain ⟨id', hid, revision, hrevision, previous, hprevious, linked, hlinked, h⟩ := h
  obtain ⟨_, -, _, -, _, -, _, -, _, -, _, -, _, -, _, -, _, -, _, -, _, -, _, -, _, -, _, -, metadata, hmeta,
    -, -, rfl⟩ := h
  refine ⟨jsonObject_normal env hmeta, ?_, ?_, ?_⟩
  · rw [manifestInput, requiredText_self] at hid
    exact (Except.ok.inj hid).symm
  · simp only [manifestInput, positiveRevision, Env.int?, orRaise, ok_bind] at hrevision
    split at hrevision
    · cases hrevision
      rfl
    · cases hrevision
  · rw [DeploymentManifest.readPrevious] at hlinked
    split at hlinked
    · cases hlinked
      exact hprevious
    · split at hlinked <;> cases hlinked

theorem nodup_concat {α : Type} {l : List α} {a : α} (h : l.Nodup) (hnew : a ∉ l) :
    (l ++ [a]).Nodup := by
  rw [List.nodup_append]
  refine ⟨h, List.nodup_cons.mpr ⟨List.not_mem_nil, .nil⟩, ?_⟩
  rintro b hb _ hmem rfl
  exact hnew (List.mem_singleton.mp hmem ▸ hb)

theorem ManifestsSound.append {rows : List (ManifestRow τ)} (hs : ManifestsSound env rows)
    {a : ManifestArgs} {id : RequiredText} {created : Instant} {m : DeploymentManifest}
    (h : DeploymentManifest.make env
      (manifestInput env a id ((manifestLog τ).tip rows id.1) created) = .ok m)
    (hfresh : ∀ r ∈ rows, r.clash (.of env m) = false) :
    ManifestsSound env (rows ++ [.of env m]) := by
  obtain ⟨hnormal, rfl, hrevision, hprevious⟩ := manifestInput_eq_ok h
  constructor
  · intro r hr
    rcases List.mem_append.mp hr with hr | hr
    · exact hs.stored r hr
    · exact ⟨m, hnormal, List.mem_singleton.mp hr⟩
  · refine hs.linked.append ?_ ?_
    · change m.revision.1.toNat = _
      rw [hrevision, Int.toNat_natCast]
      rfl
    · change m.previousManifestHash.1.1 = (manifestLog τ).nextPrevious "" ((manifestLog τ).tip rows _)
      -- the hash of a stored row is a fingerprint, so it is read as it is
      have htip : (manifestLog τ).nextPrevious "" ((manifestLog τ).tip rows m.deploymentId.1) = "" ∨
          isHash ((manifestLog τ).nextPrevious "" ((manifestLog τ).tip rows m.deploymentId.1)) = true := by
        cases htip : (manifestLog τ).tip rows m.deploymentId.1 with
        | none => exact .inl rfl
        | some r =>
          obtain ⟨m', hm'⟩ := hs.stored r (Log.tip_mem htip).1
          exact .inr hm'.hash_isHash
      have hread := optionalSha256_self env ⟨_, htip⟩ "previous_manifest_hash"
      rw [hprevious] at hread
      exact congrArg Subtype.val (Except.ok.inj hread)
  · rw [List.map_append]
    refine nodup_concat hs.distinct fun hmem => ?_
    obtain ⟨r, hr, heq⟩ := List.mem_map.mp hmem
    have hclash := hfresh r hr
    simp only [ManifestRow.clash, Bool.or_eq_false_iff, decide_eq_false_iff_not] at hclash
    exact hclash.1 heq

/-- A manifest that a call finds by its hash. -/
theorem ManifestsSound.byHash (hs : ManifestsSound env s.manifests) {hash : String}
    {m : DeploymentManifest} (h : manifestByHash env s hash = .ok (some m)) :
    ∃ r ∈ s.manifests, r.Stores env m ∧ r.manifestHash = hash := by
  simp only [manifestByHash] at h
  cases hfind : s.manifests.find? (·.manifestHash = hash) with
  | none => simp [hfind] at h
  | some r =>
    obtain ⟨m', hm'⟩ := hs.stored r (List.mem_of_find?_eq_some hfind)
    simp [hfind, hm'.read] at h
    subst h
    exact ⟨r, List.mem_of_find?_eq_some hfind, hm', by simpa using List.find?_some hfind⟩

/-! ## Snapshots -/

variable (env) in
/-- A row that stores a snapshot. -/
def SnapshotRow.Stores (r : SnapshotRow τ) (p : PreflightSnapshot) : Prop :=
  IsNormal env p.metadata ∧ r = .of env p

variable (env) in
/-- The snapshot was issued for this manifest. -/
structure PreflightSnapshot.IssuedFor (p : PreflightSnapshot) (m : DeploymentManifest) : Prop where
  deployment : p.deploymentId = m.deploymentId
  hash : p.deploymentManifestHash.1 = m.manifestHash env
  account : p.accountFingerprint = m.accountFingerprint

variable (env) in
structure SnapshotsSound (manifests : List (ManifestRow τ)) (rows : List (SnapshotRow τ)) : Prop where
  stored : ∀ r ∈ rows, ∃ p m, r.Stores env p ∧ p.IssuedFor env m ∧ ∃ mr ∈ manifests, mr.Stores env m
  distinct : (rows.map (·.snapshotId)).Nodup

theorem SnapshotRow.Stores.read {r : SnapshotRow τ} {p : PreflightSnapshot} (h : r.Stores env p) :
    snapshotFromRow env r = .ok p := by
  obtain ⟨hnormal, rfl⟩ := h
  simp only [snapshotFromRow, of, env.loads_dumps, Json.sortKeys_obj, Json.fields, ok_bind]
  exact PreflightSnapshot.fromDict_stored env hnormal

theorem snapshotInput_eq_ok {a : SnapshotArgs} {m : DeploymentManifest} {checks : Checks}
    {issued expires : Instant} {p : PreflightSnapshot}
    (h : PreflightSnapshot.make env (snapshotInput env a m checks issued expires) = .ok p) :
    IsNormal env p.metadata ∧ p.IssuedFor env m ∧ p.snapshotId.1 = strip (orElse a.snapshotId a.newId) := by
  simp only [PreflightSnapshot.make, bind_eq_ok] at h
  obtain ⟨id, hid, deployment, hdeployment, _, -, _, -, _, -, hash, hhash, account, haccount, _, -, _, -,
    _, -, _, -, _, -, _, -, issuedAt, -, expiresAt, -, h⟩ := h
  split at h
  · simp only [bind_eq_ok, require_eq_ok, pure_eq_ok] at h
    obtain ⟨metadata, hmeta, -, -, rfl⟩ := h
    refine ⟨jsonObject_normal env hmeta, ⟨?_, ?_, ?_⟩, requiredText_str hid⟩
    · rw [snapshotInput, requiredText_self] at hdeployment
      exact (Except.ok.inj hdeployment).symm
    · have hself := requiredSha256_self env ⟨m.manifestHash env, env.sha256_isHash _⟩
        "deployment_manifest_hash"
      rw [snapshotInput] at hhash
      rw [hself] at hhash
      exact (congrArg Subtype.val (Except.ok.inj hhash)).symm
    · rw [snapshotInput, requiredSha256_self] at haccount
      exact (Except.ok.inj haccount).symm
  · cases h

/-- The manifest a snapshot or a session is made for is stored, and the newest. -/
theorem ManifestsSound.current (hs : ManifestsSound env s.manifests) {deployment : String} {hash : Sha256}
    {m : DeploymentManifest} (h : currentManifest env s deployment hash = .ok m) :
    ∃ r ∈ s.manifests, r.Stores env m := by
  simp only [currentManifest, bind_eq_ok, orRaise_eq_ok, require_eq_ok, pure_eq_ok] at h
  obtain ⟨_, hfound, _, rfl, -, -, _, -, _, -, -, -, rfl⟩ := h
  obtain ⟨r, hr, hm, -⟩ := hs.byHash hfound
  exact ⟨r, hr, hm⟩

theorem SnapshotsSound.append {rows : List (SnapshotRow τ)} (hs : SnapshotsSound env s.manifests rows)
    (hmanifests : ManifestsSound env s.manifests) {a : SnapshotArgs} {hash : Sha256}
    {m : DeploymentManifest} {checks : Checks} {issued expires : Instant} {p : PreflightSnapshot}
    (hm : currentManifest env s a.deploymentId hash = .ok m)
    (h : PreflightSnapshot.make env (snapshotInput env a m checks issued expires) = .ok p)
    (hfresh : ∀ r ∈ rows, r.clash (.of env p) = false) :
    SnapshotsSound env s.manifests (rows ++ [.of env p]) := by
  obtain ⟨hnormal, hissued, -⟩ := snapshotInput_eq_ok h
  constructor
  · intro r hr
    rcases List.mem_append.mp hr with hr | hr
    · exact hs.stored r hr
    · exact ⟨p, m, ⟨hnormal, List.mem_singleton.mp hr⟩, hissued, hmanifests.current hm⟩
  · rw [List.map_append]
    refine nodup_concat hs.distinct fun hmem => ?_
    obtain ⟨r, hr, heq⟩ := List.mem_map.mp hmem
    have hclash := hfresh r hr
    simp only [SnapshotRow.clash, Bool.or_eq_false_iff, decide_eq_false_iff_not] at hclash
    exact hclash.1 heq

theorem SnapshotsSound.mono {manifests : List (ManifestRow τ)} {rows : List (SnapshotRow τ)}
    (hs : SnapshotsSound env manifests rows) (new : ManifestRow τ) :
    SnapshotsSound env (manifests ++ [new]) rows where
  stored r hr := by
    obtain ⟨p, m, hp, hissued, mr, hmr, hm⟩ := hs.stored r hr
    exact ⟨p, m, hp, hissued, mr, List.mem_append_left _ hmr, hm⟩
  distinct := hs.distinct

theorem SnapshotsSound.find (hs : SnapshotsSound env s.manifests s.snapshots) {id : String}
    {p : PreflightSnapshot} (h : preflight env s id = .ok (some p)) :
    ∃ r ∈ s.snapshots, r.Stores env p ∧ r.snapshotId = id := by
  simp only [preflight] at h
  cases hfind : s.snapshots.find? (·.snapshotId = id) with
  | none => simp [hfind] at h
  | some r =>
    obtain ⟨p', -, hp', -⟩ := hs.stored r (List.mem_of_find?_eq_some hfind)
    simp [hfind, hp'.read] at h
    subst h
    exact ⟨r, List.mem_of_find?_eq_some hfind, hp', by simpa using List.find?_some hfind⟩

/-! ## Sessions and their events -/

/-- An event may follow another of its session. -/
structure RuntimeEventRow.Follows (last row : RuntimeEventRow τ) : Prop where
  lifecycle : row.lifecycle = last.lifecycle ∨ row.lifecycle ∈ runtimeTransitions last.lifecycle
  time : last.occurredAt.1 ≤ row.occurredAt.1

variable (env) in
/-- A row whose hash is that of what it stores. -/
def RuntimeEventRow.Stores (r : RuntimeEventRow τ) (payload : Fields) : Prop :=
  IsNormal env payload ∧ r.payloadJson = env.dumps (.obj payload) ∧
    r.eventHash = stableSha256 env (.obj (r.base env payload))

variable (env) in
/-- The log of the events of sessions. -/
structure RuntimeEventsSound (events : List (RuntimeEventRow τ)) : Prop where
  stored : ∀ e ∈ events, ∃ payload, e.Stores env payload
  linked : (runtimeLog τ).Linked "" events
  history : ∀ id, History (fun e => e.lifecycle = .preflight) RuntimeEventRow.Follows
    ((runtimeLog τ).rowsOf events id)

variable (env) in
structure RuntimeSound (sessions : List (SessionRow τ)) (events : List (RuntimeEventRow τ)) : Prop
    extends RuntimeEventsSound env events where
  distinct : (sessions.map (·.sessionId)).Nodup
  known : ∀ e ∈ events, ∃ row ∈ sessions, row.sessionId = e.sessionId
  begun : ∀ row ∈ sessions, ∃ e ∈ events, e.sessionId = row.sessionId

variable {sessions : List (SessionRow τ)} {events : List (RuntimeEventRow τ)}

theorem RuntimeEventsSound.append (hs : RuntimeEventsSound env events) {id : String}
    {row : RuntimeEventRow τ} {payload : Fields} (h : NextRuntimeEvent env events id row payload)
    (hfirst : (runtimeLog τ).tip events id = none → row.lifecycle = .preflight)
    (hnext : ∀ last, (runtimeLog τ).tip events id = some last →
      row.lifecycle = last.lifecycle ∨ row.lifecycle ∈ runtimeTransitions last.lifecycle) :
    RuntimeEventsSound env (events ++ [row]) := by
  obtain rfl := h.session
  constructor
  · intro e he
    rcases List.mem_append.mp he with he | he
    · exact hs.stored e he
    · obtain rfl := List.mem_singleton.mp he
      exact ⟨payload, h.normal, h.stored, h.hash⟩
  · exact hs.linked.append h.sequence h.previous
  · exact Log.history_append hs.linked hs.history hfirst fun last hlast =>
      ⟨hnext last hlast, h.time last hlast⟩

theorem RuntimeSound.event (hs : RuntimeSound env sessions events) {id : String}
    {row last : RuntimeEventRow τ} {payload : Fields} (h : NextRuntimeEvent env events id row payload)
    (htip : (runtimeLog τ).tip events id = some last)
    (hnext : row.lifecycle = last.lifecycle ∨ row.lifecycle ∈ runtimeTransitions last.lifecycle) :
    RuntimeSound env sessions (events ++ [row]) where
  toRuntimeEventsSound := by
    refine hs.toRuntimeEventsSound.append h (fun hnone => ?_) fun last' hlast' => ?_
    · rw [htip] at hnone
      cases hnone
    · rw [htip] at hlast'
      cases hlast'
      exact hnext
  distinct := hs.distinct
  known e he := by
    rcases List.mem_append.mp he with he | he
    · exact hs.known e he
    · obtain rfl := List.mem_singleton.mp he
      obtain ⟨hlast, hid⟩ := Log.tip_mem htip
      obtain ⟨session, hsession, heq⟩ := hs.known last hlast
      exact ⟨session, hsession, heq.trans (hid.trans h.session.symm)⟩
  begun session hsession := by
    obtain ⟨e, he, heq⟩ := hs.begun session hsession
    exact ⟨e, List.mem_append_left _ he, heq⟩

/-- A session that is not there has no event. -/
theorem RuntimeSound.tip_none (hs : RuntimeSound env sessions events) {id : String}
    (h : ∀ r ∈ sessions, r.sessionId ≠ id) : (runtimeLog τ).tip events id = none := by
  cases htip : (runtimeLog τ).tip events id with
  | none => rfl
  | some e =>
    obtain ⟨he, hid⟩ := Log.tip_mem htip
    obtain ⟨session, hsession, heq⟩ := hs.known e he
    exact absurd (heq.trans hid) (h session hsession)

theorem RuntimeSound.session (hs : RuntimeSound env sessions events) {row : SessionRow τ}
    {event : RuntimeEventRow τ} {payload : Fields}
    (h : NextRuntimeEvent env events row.sessionId event payload)
    (hnew : ∀ r ∈ sessions, r.sessionId ≠ row.sessionId) (hfirst : event.lifecycle = .preflight) :
    RuntimeSound env (sessions ++ [row]) (events ++ [event]) where
  toRuntimeEventsSound := by
    refine hs.toRuntimeEventsSound.append h (fun _ => hfirst) fun last hlast => ?_
    rw [hs.tip_none hnew] at hlast
    cases hlast
  distinct := by
    rw [List.map_append]
    refine nodup_concat hs.distinct fun hmem => ?_
    obtain ⟨r, hr, heq⟩ := List.mem_map.mp hmem
    exact hnew r hr heq
  known e he := by
    rcases List.mem_append.mp he with he | he
    · obtain ⟨r, hr, heq⟩ := hs.known e he
      exact ⟨r, List.mem_append_left _ hr, heq⟩
    · obtain rfl := List.mem_singleton.mp he
      exact ⟨row, List.mem_append_right _ (List.mem_singleton_self row), h.session.symm⟩
  begun r hr := by
    rcases List.mem_append.mp hr with hr | hr
    · obtain ⟨e, he, heq⟩ := hs.begun r hr
      exact ⟨e, List.mem_append_left _ he, heq⟩
    · obtain rfl := List.mem_singleton.mp hr
      exact ⟨event, List.mem_append_right _ (List.mem_singleton_self event), h.session⟩

/-! ### The binding of a session -/

/-- The last rebinding event of a session, after an append. -/
theorem reboundEvent_append {row : RuntimeEventRow τ}
    (hevents : s'.runtimeEvents = s.runtimeEvents ++ [row])
    (h : (runtimeLog τ).Linked "" s'.runtimeEvents) (id : String) :
    reboundEvent s' id =
      if row.sessionId = id ∧ row.eventType = preflightRebound then some row else reboundEvent s id := by
  rw [hevents] at h
  have hlast := h.argmax_filter_append (fun r => r.eventType = preflightRebound) id
  simp only [decide_eq_true_eq] at hlast
  rw [reboundEvent, hevents]
  exact hlast

theorem binding_of_none {row : SessionRow τ} (h : reboundEvent s row.sessionId = none) :
    binding env s row = .ok (row.preflightSnapshotId, row.preflightSnapshotHash) := by
  rw [binding, h]

theorem binding_of_some {row : SessionRow τ} {event : RuntimeEventRow τ} {payload : Fields}
    (h : reboundEvent s row.sessionId = some event) (hstored : event.payloadJson = env.dumps (.obj payload))
    (hnormal : IsNormal env payload) : binding env s row = readBinding env (.obj payload) := by
  rw [binding, h]
  simp only [hstored, env.loads_dumps, Json.sortKeys_obj, hnormal.sorted, ok_bind]

/-- A binding depends on the last rebinding event only. -/
theorem binding_congr {row : SessionRow τ} (h : reboundEvent s' row.sessionId = reboundEvent s row.sessionId) :
    binding env s' row = binding env s row := by
  rw [binding, binding, h]

/-! ## Incidents and their events -/

/-- An event may follow another of its incident. -/
structure IncidentEventRow.Follows (last row : IncidentEventRow τ) : Prop where
  «open» : last.state ≠ .resolved
  state : row.state = last.state ∨ row.state ∈ incidentTransitions last.state
  severity : last.severity.rank ≤ row.severity.rank
  time : last.occurredAt.1 ≤ row.occurredAt.1

variable (env) in
/-- A row whose hash is that of what it stores. -/
def IncidentEventRow.Stores (r : IncidentEventRow τ) (payload : Fields) : Prop :=
  IsNormal env payload ∧ r.payloadJson = env.dumps (.obj payload) ∧
    r.eventHash = stableSha256 env (.obj (r.base env payload))

variable (env) in
structure IncidentsSound (s : Store τ) : Prop where
  distinct : (s.incidents.map (·.incidentId)).Nodup
  known : ∀ e ∈ s.incidentEvents, ∃ row ∈ s.incidents, row.incidentId = e.incidentId
  stored : ∀ e ∈ s.incidentEvents, ∃ payload, e.Stores env payload
  linked : (incidentLog τ).Linked "" s.incidentEvents
  history : ∀ id, History (fun e => e.state = .open) IncidentEventRow.Follows
    ((incidentLog τ).rowsOf s.incidentEvents id)
  unique : ∀ row ∈ s.incidents, ∀ row' ∈ s.incidents, isUnresolved s row = true →
    isUnresolved s row' = true → row.dedupeKey = row'.dedupeKey → row = row'

theorem isUnresolved_iff {row : IncidentRow} : isUnresolved s row = true ↔
    ∃ last, (incidentLog τ).tip s.incidentEvents row.incidentId = some last ∧ last.state ≠ .resolved := by
  rw [isUnresolved]
  cases (incidentLog τ).tip s.incidentEvents row.incidentId <;> simp

/-- An event of an incident that is there and not resolved. -/
theorem IncidentsSound.event (hs : IncidentsSound env s) {id : String} {row last : IncidentEventRow τ}
    {payload : Fields} (h : NextIncidentEvent env s.incidentEvents id row payload)
    (htip : (incidentLog τ).tip s.incidentEvents id = some last) (hopen : last.state ≠ .resolved)
    (hnext : row.state = last.state ∨ row.state ∈ incidentTransitions last.state) :
    IncidentsSound env { s with incidentEvents := s.incidentEvents ++ [row] } := by
  obtain rfl := h.incident
  have hlinked : (incidentLog τ).Linked "" (s.incidentEvents ++ [row]) :=
    hs.linked.append h.sequence h.previous
  -- what is unresolved afterwards was unresolved before
  have hbefore : ∀ r, isUnresolved { s with incidentEvents := s.incidentEvents ++ [row] } r = true →
      isUnresolved s r = true := by
    intro r hr
    obtain ⟨last', hlast', hstate⟩ := isUnresolved_iff.mp hr
    rw [hlinked.tip_append] at hlast'
    split at hlast'
    · next heq =>
      refine isUnresolved_iff.mpr ⟨last, ?_, hopen⟩
      rw [← heq]
      exact htip
    · exact isUnresolved_iff.mpr ⟨last', hlast', hstate⟩
  refine ⟨hs.distinct, ?_, ?_, hlinked, ?_, ?_⟩
  · intro e he
    rcases List.mem_append.mp he with he | he
    · exact hs.known e he
    · obtain rfl := List.mem_singleton.mp he
      obtain ⟨hlast, hid⟩ := Log.tip_mem htip
      obtain ⟨r, hr, heq⟩ := hs.known last hlast
      exact ⟨r, hr, heq.trans hid⟩
  · intro e he
    rcases List.mem_append.mp he with he | he
    · exact hs.stored e he
    · obtain rfl := List.mem_singleton.mp he
      exact ⟨payload, h.normal, h.stored, h.hash⟩
  · refine Log.history_append hs.linked hs.history (fun hnone => ?_) fun last' hlast' => ?_
    · rw [show (incidentLog τ).entity row = row.incidentId from rfl, htip] at hnone
      cases hnone
    · rw [show (incidentLog τ).entity row = row.incidentId from rfl, htip] at hlast'
      cases hlast'
      exact ⟨hopen, hnext, h.severity last htip, h.time last htip⟩
  · intro r hr r' hr' hopen hopen' hkey
    exact hs.unique r hr r' hr' (hbefore r hopen) (hbefore r' hopen') hkey

/-- A new incident under a key without an unresolved one. -/
theorem IncidentsSound.incident (hs : IncidentsSound env s) {row : IncidentRow}
    {event : IncidentEventRow τ} {payload : Fields}
    (h : NextIncidentEvent env s.incidentEvents row.incidentId event payload)
    (hactive : activeIncident env s row.dedupeKey = none)
    (hnew : ∀ r ∈ s.incidents, r.incidentId ≠ row.incidentId) (hfirst : event.state = .open) :
    IncidentsSound env
      { s with incidents := s.incidents ++ [row], incidentEvents := s.incidentEvents ++ [event] } := by
  have htip : (incidentLog τ).tip s.incidentEvents row.incidentId = none := by
    cases htip : (incidentLog τ).tip s.incidentEvents row.incidentId with
    | none => rfl
    | some e =>
      obtain ⟨he, hid⟩ := Log.tip_mem htip
      obtain ⟨r, hr, heq⟩ := hs.known e he
      exact absurd (heq.trans hid) (hnew r hr)
  have hlinked : (incidentLog τ).Linked "" (s.incidentEvents ++ [event]) := by
    refine hs.linked.append ?_ ?_
    · rw [show (incidentLog τ).entity event = row.incidentId from h.incident]
      exact h.sequence
    · rw [show (incidentLog τ).entity event = row.incidentId from h.incident]
      exact h.previous
  -- an incident that was there keeps its last event
  have hbefore : ∀ r ∈ s.incidents, isUnresolved
      { s with incidents := s.incidents ++ [row], incidentEvents := s.incidentEvents ++ [event] } r =
        true → isUnresolved s r = true := by
    intro r hr hopen
    obtain ⟨last, hlast, hstate⟩ := isUnresolved_iff.mp hopen
    rw [hlinked.tip_append, if_neg] at hlast
    · exact isUnresolved_iff.mpr ⟨last, hlast, hstate⟩
    · exact fun heq => hnew r hr (heq.symm.trans h.incident)
  have hkeys : ∀ r ∈ s.incidents, isUnresolved s r = true → r.dedupeKey ≠ row.dedupeKey := by
    intro r hr hopen hkey
    rw [activeIncident, List.argmax_eq_none, List.filter_eq_nil_iff] at hactive
    exact hactive r hr (by simp [hkey, hopen])
  refine ⟨?_, ?_, ?_, hlinked, ?_, ?_⟩
  · rw [List.map_append]
    refine nodup_concat hs.distinct fun hmem => ?_
    obtain ⟨r, hr, heq⟩ := List.mem_map.mp hmem
    exact hnew r hr heq
  · intro e he
    rcases List.mem_append.mp he with he | he
    · obtain ⟨r, hr, heq⟩ := hs.known e he
      exact ⟨r, List.mem_append_left _ hr, heq⟩
    · obtain rfl := List.mem_singleton.mp he
      exact ⟨row, List.mem_append_right _ (List.mem_singleton_self row), h.incident.symm⟩
  · intro e he
    rcases List.mem_append.mp he with he | he
    · exact hs.stored e he
    · obtain rfl := List.mem_singleton.mp he
      exact ⟨payload, h.normal, h.stored, h.hash⟩
  · refine Log.history_append hs.linked hs.history (fun _ => hfirst) fun last hlast => ?_
    rw [show (incidentLog τ).entity event = row.incidentId from h.incident, htip] at hlast
    cases hlast
  · intro r hr r' hr' hopen hopen' hkey
    rcases List.mem_append.mp hr with hold | hlast <;> rcases List.mem_append.mp hr' with hold' | hlast'
    · exact hs.unique r hold r' hold' (hbefore r hold hopen) (hbefore r' hold' hopen') hkey
    · obtain rfl := List.mem_singleton.mp hlast'
      exact absurd hkey (hkeys r hold (hbefore r hold hopen))
    · obtain rfl := List.mem_singleton.mp hlast
      exact absurd hkey.symm (hkeys r' hold' (hbefore r' hold' hopen'))
    · rw [List.mem_singleton.mp hlast, List.mem_singleton.mp hlast']

/-! ## Stores -/

variable (env) in
/-- What holds of a store whatever calls were made. -/
structure Sound (s : Store τ) : Prop where
  manifests : ManifestsSound env s.manifests
  snapshots : SnapshotsSound env s.manifests s.snapshots
  runtime : RuntimeSound env s.sessions s.runtimeEvents
  incidents : IncidentsSound env s

theorem sound_empty : Sound env ({} : Store τ) where
  manifests := ⟨fun _ h => (nomatch h), fun _ => trivial, .nil⟩
  snapshots := ⟨fun _ h => (nomatch h), .nil⟩
  runtime := ⟨⟨fun _ h => (nomatch h), fun _ => trivial, fun _ => .nil⟩, .nil,
    fun _ h => (nomatch h), fun _ h => (nomatch h)⟩
  incidents := ⟨.nil, fun _ h => (nomatch h), fun _ h => (nomatch h), fun _ => trivial, fun _ => .nil,
    fun _ h => (nomatch h)⟩

/-- The incidents of a store do not depend on its other tables. -/
theorem IncidentsSound.congr (hs : IncidentsSound env s) (hrows : s'.incidents = s.incidents)
    (hevents : s'.incidentEvents = s.incidentEvents) : IncidentsSound env s' := by
  obtain ⟨manifests, snapshots, sessions, runtimeEvents, incidents, incidentEvents⟩ := s'
  dsimp only at hrows hevents
  subst hrows hevents
  exact ⟨hs.distinct, hs.known, hs.stored, hs.linked, hs.history, hs.unique⟩

/-- **One step.**  A change keeps a sound store sound. -/
theorem Change.sound {act : Action} (h : Change env s act s') (hs : Sound env s) : Sound env s' := by
  cases h with
  | raised => exact hs
  | manifest hmake hfresh =>
    exact ⟨hs.manifests.append hmake hfresh, hs.snapshots.mono _, hs.runtime,
      hs.incidents.congr rfl rfl⟩
  | snapshot hhash hm hmake hfresh =>
    exact ⟨hs.manifests, hs.snapshots.append hs.manifests hm hmake hfresh, hs.runtime,
      hs.incidents.congr rfl rfl⟩
  | session hm hp hrow hfresh hnext hfirst htype =>
    refine ⟨hs.manifests, hs.snapshots, hs.runtime.session hnext (fun r hr => ?_) hfirst,
      hs.incidents.congr rfl rfl⟩
    simpa [SessionRow.clash] using hfresh r hr
  | event hact hknown hnext hlifecycle htype =>
    obtain ⟨last, htip, heq⟩ := hknown.tip
    rw [heq] at hlifecycle
    exact ⟨hs.manifests, hs.snapshots, hs.runtime.event hnext htip hlifecycle,
      hs.incidents.congr rfl rfl⟩
  | rebound hknown hp hnext hlifecycle htype =>
    obtain ⟨last, htip, heq⟩ := hknown.tip
    exact ⟨hs.manifests, hs.snapshots, hs.runtime.event hnext htip (.inl (hlifecycle.trans heq)),
      hs.incidents.congr rfl rfl⟩
  | incident hactive hfresh hnext hfirst =>
    refine ⟨hs.manifests, hs.snapshots, hs.runtime,
      hs.incidents.incident hnext hactive (fun r hr => ?_) hfirst⟩
    simpa [IncidentRow.clash] using hfresh r hr
  | incidentEvent hknown hopen hnext hstate =>
    obtain ⟨last, htip, heq, -⟩ := hknown.tip
    rw [heq] at hopen hstate
    exact ⟨hs.manifests, hs.snapshots, hs.runtime, hs.incidents.event hnext htip hopen hstate⟩

/-- **Every run** leads to a sound store. -/
theorem sound_of_run {ok : Store τ → Action → Prop} {acts : List Action}
    (h : Run (step env) ok {} acts s) : Sound env s := by
  refine h.invariant (P := Sound env) (fun {s a s'} _ hstep hs => ?_) sound_empty
  obtain rfl := Option.some.inj hstep
  exact (perform_change a).sound hs

end LiveTrader.Governance
