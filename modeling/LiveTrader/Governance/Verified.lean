/-
# `Governance.Verified` — every store verifies, and what a raising call leaves

The audit finds nothing in a sound store: each record reads back as it was written
(`Governance.Records`), and each chain is followed in the order it was built
(`Lib.EventChain`).  With the histories of `Governance.Sound` this makes every reachable
store `Lawful`.

A call that raises has changed nothing, with one exception.  A transition whose event type
is `PREFLIGHT_REBOUND` is read back after its commit as a rebinding of the preflight
snapshot, and raises there when its payload names none.
-/
import LiveTrader.Governance.Accepted

namespace LiveTrader.Governance

open Lib Lib.Py Lib.Runs

variable {τ : Type} {env : Env τ} {s s' : Store τ}

/-! ## The audit -/

theorem noting_eq_nil {condition : Prop} [Decidable condition] {text : String} (h : condition) :
    noting condition text = [] := if_pos h

/-- A dictionary after a write, as a function. -/
theorem get_set_eq_update {ν : Type} (d : Dict String ν) (key : String) (value default : ν) :
    (fun e => (d.set key value).get e default) =
      Function.update (fun e => d.get e default) key value := by
  funext e
  rw [Dict.get_set]
  by_cases h : key = e
  · subst h
    rw [if_pos rfl, Function.update_self]
  · rw [if_neg h, Function.update_of_ne (Ne.symm h)]

theorem auditManifests_eq_ok : ∀ {rows : List (ManifestRow τ)} {audit : Audit},
    (∀ r ∈ rows, ∃ m, r.Stores env m) →
    (manifestLog τ).InStep (fun e => audit.sequences.get e 0) (fun e => audit.hashes.get e "") rows →
    ∃ audit', rows.foldlM (auditManifest env) audit = .ok audit' ∧ audit'.issues = audit.issues
  | [], audit, _, _ => ⟨audit, rfl, rfl⟩
  | r :: rows, audit, hstored, hstep => by
      obtain ⟨m, hm⟩ := hstored r List.mem_cons_self
      obtain ⟨hseq, hprev, hrest⟩ := hstep
      have hrevision : m.revision.1 = (audit.sequences.get r.deploymentId 0 + 1 : ℕ) := by
        have hcast : m.revision.1.toNat = audit.sequences.get r.deploymentId 0 + 1 := by
          rw [← show r.revision = m.revision.1.toNat by rw [hm.2]; rfl]
          exact hseq
        have := m.revision.2
        omega
      have hprevious : m.previousManifestHash.1.1 = audit.hashes.get r.deploymentId "" := by
        rw [← show r.previousManifestHash = m.previousManifestHash.1.1 by rw [hm.2]; rfl]
        exact hprev
      have hhash : m.manifestHash env = r.manifestHash := by rw [hm.2]; rfl
      have hround : auditManifest env audit r = .ok {
          sequences := audit.sequences.set r.deploymentId r.revision
          hashes := audit.hashes.set r.deploymentId r.manifestHash
          issues := audit.issues } := by
        rw [auditManifest, hm.read]
        simp only [noting_eq_nil hrevision, noting_eq_nil hprevious, noting_eq_nil hhash,
          List.append_nil]
        rw [hhash, show r.revision = m.revision.1.toNat by rw [hm.2]; rfl]
      rw [List.foldlM_cons, hround, ok_bind]
      refine auditManifests_eq_ok (fun r' hr' => hstored r' (List.mem_cons_of_mem _ hr')) ?_
      rw [get_set_eq_update, get_set_eq_update]
      exact hrest

theorem auditSnapshots_eq_ok {rows : List (SnapshotRow τ)} {issues : List String}
    (h : ∀ r ∈ rows, ∃ p, r.Stores env p) : rows.foldlM (auditSnapshot env) issues = .ok issues := by
  induction rows with
  | nil => rfl
  | cons r rows ih =>
    obtain ⟨p, hp⟩ := h r List.mem_cons_self
    have hhash : p.snapshotHash env = r.snapshotHash := by rw [hp.2]; rfl
    rw [List.foldlM_cons, auditSnapshot, hp.read]
    simp only [noting_eq_nil hhash, List.append_nil, ok_bind]
    exact ih fun r' hr' => h r' (List.mem_cons_of_mem _ hr')

variable (env) in
/-- A row whose hash the audit computes again. -/
def EventKind.Stores {ρ : Type} (kind : EventKind τ ρ) (r : ρ) : Prop :=
  ∃ payload, env.loads (kind.payloadJson r) = .ok payload ∧
    stableSha256 env (.obj (kind.base r payload)) = kind.log.hash r

theorem auditEvents_eq_ok {ρ : Type} {kind : EventKind τ ρ} : ∀ {rows : List ρ} {audit : Audit},
    (∀ r ∈ rows, kind.Stores env r) →
    kind.log.InStep (fun e => audit.sequences.get e 0) (fun e => audit.hashes.get e "") rows →
    ∃ audit', rows.foldlM (auditEvent env kind) audit = .ok audit' ∧ audit'.issues = audit.issues
  | [], audit, _, _ => ⟨audit, rfl, rfl⟩
  | r :: rows, audit, hstored, hstep => by
      obtain ⟨payload, hpayload, hhash⟩ := hstored r List.mem_cons_self
      obtain ⟨hseq, hprev, hrest⟩ := hstep
      rw [List.foldlM_cons, auditEvent, hpayload]
      simp only [noting_eq_nil hseq, noting_eq_nil hprev, noting_eq_nil hhash, List.append_nil, ok_bind]
      refine auditEvents_eq_ok (fun r' hr' => hstored r' (List.mem_cons_of_mem _ hr')) ?_
      rw [get_set_eq_update, get_set_eq_update]
      exact hrest

/-- The rows of a linked log of events verify. -/
theorem verifyEventRows_eq_ok {ρ : Type} {kind : EventKind τ ρ} {rows : List ρ} {issues : List String}
    (hstored : ∀ r ∈ rows, kind.Stores env r) (hlinked : kind.log.Linked "" rows) :
    verifyEventRows env kind rows issues = .ok issues := by
  have hsorted : ∀ r ∈ kind.log.sorted rows, kind.Stores env r := fun r hr =>
    hstored r ((List.mem_insertionSort _).mp hr)
  obtain ⟨audit, haudit, hissues⟩ :
      ∃ audit', (kind.log.sorted rows).foldlM (auditEvent env kind) { issues } = .ok audit' ∧
        audit'.issues = issues := auditEvents_eq_ok hsorted (Log.inStep_sorted hlinked)
  rw [verifyEventRows, haudit, ok_bind, hissues]
  rfl

theorem runtime_stores {r : RuntimeEventRow τ} {payload : Fields} (h : r.Stores env payload) :
    (runtimeKind env).Stores env r := by
  obtain ⟨hnormal, hstored, hhash⟩ := h
  refine ⟨.obj payload, ?_, hhash.symm⟩
  change env.loads r.payloadJson = _
  rw [hstored, env.loads_dumps, Json.sortKeys_obj, hnormal.sorted]

theorem perm_two_moved {α : Type} (a b c d e f : α) : [a, b, c, d, e, f].Perm [e, a, b, f, c, d] := by
  have he : [a, b, c, d, e, f].Perm [e, a, b, c, d, f] := @List.perm_middle _ e [a, b, c, d] [f]
  have hf : [c, d, f].Perm [f, c, d] := @List.perm_middle _ f [c, d] []
  exact he.trans (((hf.cons b).cons a).cons e)

/-- The audit builds the dictionary of an incident event in another order. -/
theorem incident_base_perm (r : IncidentEventRow τ) (payload : Fields) :
    ((incidentKind env).base r (.obj payload)).Perm (r.base env payload) :=
  (((((((perm_two_moved _ _ _ _ _ _).cons _).cons _).cons _).cons _).cons _).cons _)

theorem incident_stores {r : IncidentEventRow τ} {payload : Fields} (h : r.Stores env payload) :
    (incidentKind env).Stores env r := by
  obtain ⟨hnormal, hstored, hhash⟩ := h
  refine ⟨.obj payload, ?_, ?_⟩
  · change env.loads r.payloadJson = _
    rw [hstored, env.loads_dumps, Json.sortKeys_obj, hnormal.sorted]
  · change _ = r.eventHash
    rw [hhash, stableSha256, stableSha256, Json.sortKeys_perm (incident_base_perm r payload)]
    simp [incidentKind]

/-- **The audit of a sound store** finds nothing. -/
theorem Sound.verifies (hs : Sound env s) : ∃ i, verifyIntegrity env s = .ok i ∧ i.ok = true := by
  have hmanifests : ∀ r ∈ (manifestLog τ).sorted s.manifests, ∃ m, r.Stores env m := fun r hr =>
    hs.manifests.stored r ((List.mem_insertionSort _).mp hr)
  obtain ⟨audit, haudit, hissues⟩ :
      ∃ audit', ((manifestLog τ).sorted s.manifests).foldlM (auditManifest env) { issues := [] } = .ok audit' ∧
        audit'.issues = [] := auditManifests_eq_ok hmanifests (Log.inStep_sorted hs.manifests.linked)
  have hsnapshots : ∀ r ∈ s.snapshots, ∃ p, r.Stores env p := fun r hr => by
    obtain ⟨p, -, hp, -⟩ := hs.snapshots.stored r hr
    exact ⟨p, hp⟩
  have hruntime : verifyEventRows env (runtimeKind env) s.runtimeEvents [] = .ok [] :=
    verifyEventRows_eq_ok (fun r hr => by
      obtain ⟨payload, h⟩ := hs.runtime.stored r hr
      exact runtime_stores h) hs.runtime.linked
  have hincidents : verifyEventRows env (incidentKind env) s.incidentEvents [] = .ok [] :=
    verifyEventRows_eq_ok (fun r hr => by
      obtain ⟨payload, h⟩ := hs.incidents.stored r hr
      exact incident_stores h) hs.incidents.linked
  rw [verifyIntegrity, haudit, ok_bind, hissues, auditSnapshots_eq_ok hsnapshots, ok_bind, hruntime,
    ok_bind, hincidents, ok_bind]
  exact ⟨_, rfl, rfl⟩

/-! ## What a lawful store is -/

variable (env) in
/-- The store verifies, and every history in it is one the code allows. -/
structure Lawful (s : Store τ) : Prop where
  verifies : ∃ i, verifyIntegrity env s = .ok i ∧ i.ok = true
  manifests : ∀ id, History (fun r => r.revision = 1 ∧ r.previousManifestHash = "")
    (fun r r' => r'.revision = r.revision + 1 ∧ r'.previousManifestHash = r.manifestHash)
    ((manifestLog τ).rowsOf s.manifests id)
  begun : ∀ row ∈ s.sessions, (runtimeLog τ).rowsOf s.runtimeEvents row.sessionId ≠ []
  lifecycles : ∀ id, History (fun e => e.lifecycle = .preflight)
    (fun e e' => e'.lifecycle = e.lifecycle ∨ e'.lifecycle ∈ runtimeTransitions e.lifecycle)
    ((runtimeLog τ).rowsOf s.runtimeEvents id)
  terminal : ∀ id, ((runtimeLog τ).rowsOf s.runtimeEvents id).Pairwise fun e e' =>
    e.lifecycle = .stopped ∨ e.lifecycle = .failed → e'.lifecycle = e.lifecycle
  runtimeTimes : ∀ id, ((runtimeLog τ).rowsOf s.runtimeEvents id).Pairwise fun e e' =>
    e.occurredAt.1 ≤ e'.occurredAt.1
  unresolved : ∀ row ∈ s.incidents, ∀ row' ∈ s.incidents, isUnresolved s row = true →
    isUnresolved s row' = true → row.dedupeKey = row'.dedupeKey → row = row'
  states : ∀ id, History (fun e => e.state = .open)
    (fun e e' => e'.state = e.state ∨ e'.state ∈ incidentTransitions e.state)
    ((incidentLog τ).rowsOf s.incidentEvents id)
  resolved : ∀ id, ((incidentLog τ).rowsOf s.incidentEvents id).Pairwise fun e e' =>
    e.state = .resolved → e'.state = .resolved
  severities : ∀ id, ((incidentLog τ).rowsOf s.incidentEvents id).Pairwise fun e e' =>
    e.severity.rank ≤ e'.severity.rank
  incidentTimes : ∀ id, ((incidentLog τ).rowsOf s.incidentEvents id).Pairwise fun e e' =>
    e.occurredAt.1 ≤ e'.occurredAt.1

/-- A lifecycle without transitions is not left. -/
theorem RuntimeEventRow.Follows.terminal {e e' : RuntimeEventRow τ} (h : e.Follows e')
    (hterminal : e.lifecycle = .stopped ∨ e.lifecycle = .failed) : e'.lifecycle = e.lifecycle := by
  have hnone : runtimeTransitions e.lifecycle = [] := by
    rcases hterminal with heq | heq <;> rw [heq] <;> rfl
  rcases h.lifecycle with heq | hmem
  · exact heq
  · rw [hnone] at hmem
    cases hmem

theorem Sound.lawful (hs : Sound env s) : Lawful env s where
  verifies := hs.verifies
  manifests id := (hs.manifests.linked id).history
  begun row hrow := by
    obtain ⟨e, he, heq⟩ := hs.runtime.begun row hrow
    exact List.ne_nil_of_mem (Log.mem_rowsOf.mpr ⟨he, heq⟩)
  lifecycles id := (hs.runtime.history id).imp (fun _ h => h) fun _ _ h => h.lifecycle
  terminal id := by
    refine (hs.runtime.history id).pairwise (fun _ _ h => h.terminal) fun a b c hab hbc hterminal => ?_
    have heq := hab hterminal
    exact (hbc (heq.symm ▸ hterminal)).trans heq
  runtimeTimes id := (hs.runtime.history id).pairwise (fun _ _ h => h.time) fun _ _ _ => le_trans
  unresolved := hs.incidents.unique
  states id := (hs.incidents.history id).imp (fun _ h => h) fun _ _ h => h.state
  resolved id := (hs.incidents.history id).pairwise (fun _ _ h hresolved => absurd hresolved h.open)
    fun _ _ _ hab hbc hresolved => hbc (hab hresolved)
  severities id := (hs.incidents.history id).pairwise (fun _ _ h => h.severity) fun _ _ _ => le_trans
  incidentTimes id := (hs.incidents.history id).pairwise (fun _ _ h => h.time) fun _ _ _ => le_trans

/-! ## No stored row ever changes -/

/-- Every table of a store is kept at the front of that table of another. -/
structure Extends (s s' : Store τ) : Prop where
  manifests : s.manifests <+: s'.manifests
  snapshots : s.snapshots <+: s'.snapshots
  sessions : s.sessions <+: s'.sessions
  runtimeEvents : s.runtimeEvents <+: s'.runtimeEvents
  incidents : s.incidents <+: s'.incidents
  incidentEvents : s.incidentEvents <+: s'.incidentEvents

theorem Change.extends {act : Action} (h : Change env s act s') : Extends s s' := by
  cases h <;> constructor <;> first | exact List.prefix_append _ _ | exact List.prefix_refl _

/-! ## Calls that raise -/

variable (env) in
/-- The snapshot named by a payload can be read where the event is a rebinding one: what
`_runtime_session_conn` asks of the last such event of a session. -/
def NamesSnapshot (eventType : String) (payload : Fields) : Prop :=
  strip eventType = preflightRebound → ∃ named, readBinding env (.obj payload.sorted) = .ok named

variable (env) in
/-- A transition whose event is a rebinding one names a snapshot. -/
def Action.NamesSnapshot : Action → Prop
  | .transitionRuntimeSession _ a => Governance.NamesSnapshot env a.eventType a.payload
  | _ => True

theorem transaction_raises {α : Type} {body : Result (Store τ × α)} {e : Error}
    (h : (transaction s body).2 = .error e) : (transaction s body).1 = s := by
  cases body with
  | error _ => rfl
  | ok done => cases h

/-- A call that reads what it wrote raises only where the transaction does. -/
theorem afterCommit_raises {α β : Type} {body : Result (Store τ × α)} {read : Store τ → α → Result β}
    {e : Error} (hread : ∀ s' a, body = .ok (s', a) → ∃ b, read s' a = .ok b)
    (h : (afterCommit (transaction s body) read).2 = .error e) :
    (afterCommit (transaction s body) read).1 = s := by
  cases body with
  | error _ => rfl
  | ok done =>
    obtain ⟨b, hb⟩ := hread done.1 done.2 rfl
    change read done.1 done.2 = .error e at h
    rw [hb] at h
    cases h

theorem readSession_eq_ok {missing id : String} {row : SessionRow τ}
    (hrow : s.sessions.find? (·.sessionId = id) = some row)
    (htip : (runtimeLog τ).tip s.runtimeEvents id ≠ none)
    (hmeta : ∃ metadata, env.loads row.metadataJson = .ok metadata)
    (hbinding : ∃ named, binding env s row = .ok named) :
    ∃ session, readSession env missing s id = .ok session := by
  obtain ⟨last, htip⟩ := Option.ne_none_iff_exists'.mp htip
  obtain ⟨metadata, hmeta⟩ := hmeta
  obtain ⟨named, hbinding⟩ := hbinding
  simp only [readSession, runtimeSession, hrow, htip, hmeta, hbinding, ok_bind]
  exact ⟨_, rfl⟩

/-- After an event of a session that is there, the session can be read, if the event names a
snapshot where it is a rebinding one. -/
theorem KnownSession.read_after {id missing : String} {session : RuntimeSession}
    {row : RuntimeEventRow τ} {payload : Fields} (hknown : KnownSession env s id session)
    (hnext : NextRuntimeEvent env s.runtimeEvents id row payload)
    (hlinked : (runtimeLog τ).Linked "" (s.runtimeEvents ++ [row]))
    (hnames : row.eventType = preflightRebound → ∃ named, readBinding env (.obj payload) = .ok named) :
    ∃ session, readSession env missing { s with runtimeEvents := s.runtimeEvents ++ [row] } id =
      .ok session := by
  obtain ⟨found, hfound, -, -, -, hmeta, hbinding⟩ := hknown.row
  have hid : found.sessionId = id := by simpa using List.find?_some hfound
  refine readSession_eq_ok hfound ?_ hmeta ?_
  · exact Log.tip_ne_none (List.mem_append_right _ (List.mem_singleton_self row)) hnext.session
  · have hlast : reboundEvent { s with runtimeEvents := s.runtimeEvents ++ [row] } found.sessionId = _ :=
      reboundEvent_append rfl hlinked found.sessionId
    by_cases hrebound : row.eventType = preflightRebound
    · rw [if_pos ⟨hnext.session.trans hid.symm, hrebound⟩] at hlast
      rw [binding_of_some hlast hnext.stored hnext.normal]
      exact hnames hrebound
    · rw [if_neg fun h => hrebound h.2] at hlast
      exact ⟨_, (binding_congr hlast).trans hbinding⟩

theorem readSession_new {missing : String} {row : SessionRow τ} {event : RuntimeEventRow τ}
    {payload metadata : Fields} (hs : RuntimeSound env s.sessions s.runtimeEvents)
    (hnew : ∀ r ∈ s.sessions, r.sessionId ≠ row.sessionId)
    (hmeta : row.metadataJson = env.dumps (.obj metadata))
    (hnext : NextRuntimeEvent env s.runtimeEvents row.sessionId event payload)
    (hlinked : (runtimeLog τ).Linked "" (s.runtimeEvents ++ [event]))
    (htype : event.eventType = "SESSION_CREATED") :
    ∃ session, readSession env missing
      { s with sessions := s.sessions ++ [row], runtimeEvents := s.runtimeEvents ++ [event] }
      row.sessionId = .ok session := by
  have hfound : (s.sessions ++ [row]).find? (·.sessionId = row.sessionId) = some row := by
    rw [List.find?_append, List.find?_eq_none.mpr fun r hr => by simpa using hnew r hr]
    simp
  -- no event of another session binds this one, and its first event binds nothing
  have hnone : reboundEvent s row.sessionId = none := by
    have htip := hs.tip_none hnew
    rw [Log.tip_eq_none] at htip
    rw [reboundEvent, htip]
    rfl
  have hbound : reboundEvent
      { s with sessions := s.sessions ++ [row], runtimeEvents := s.runtimeEvents ++ [event] }
      row.sessionId = _ := reboundEvent_append rfl hlinked row.sessionId
  rw [if_neg, hnone] at hbound
  · refine readSession_eq_ok hfound ?_ ⟨_, hmeta ▸ env.loads_dumps _⟩ ⟨_, binding_of_none hbound⟩
    exact Log.tip_ne_none (List.mem_append_right _ (List.mem_singleton_self event)) hnext.session
  · rintro ⟨-, h⟩
    rw [htype] at h
    exact absurd h (by decide)

/-- The payload of `rebind_runtime_preflight` names a snapshot. -/
theorem readBinding_rebindPayload (session : RuntimeSession) (p : PreflightSnapshot) :
    readBinding env (.obj (rebindPayload env session p).sorted) =
      .ok (p.snapshotId.1, p.snapshotHash env) := by
  have hid : (rebindPayload env session p).at "preflightSnapshotId" = .str p.snapshotId.1 := by
    simp [rebindPayload, Fields.at, List.lookup_cons]
  have hhash : (rebindPayload env session p).at "preflightSnapshotHash" = .str (p.snapshotHash env) := by
    simp [rebindPayload, Fields.at, List.lookup_cons]
  have hself := requiredSha256_self env ⟨p.snapshotHash env, env.sha256_isHash _⟩ "preflightSnapshotHash"
  simp only [readBinding, Json.fields, ok_bind, Fields.at_sorted, hid, hhash, Json.sortKeys_str,
    requiredText_self]
  rw [hself]
  rfl

/-- After an event of an incident that is there, the incident can be read. -/
theorem KnownIncident.read_after {id missing : String} {found : Incident} {row : IncidentEventRow τ}
    {payload : Fields} (hknown : KnownIncident s id found)
    (hnext : NextIncidentEvent env s.incidentEvents id row payload) :
    ∃ i, readIncident missing { s with incidentEvents := s.incidentEvents ++ [row] } id = .ok i := by
  have htip : (incidentLog τ).tip (s.incidentEvents ++ [row]) id ≠ none :=
    Log.tip_ne_none (List.mem_append_right _ (List.mem_singleton_self row)) hnext.incident
  obtain ⟨last, htip⟩ := Option.ne_none_iff_exists'.mp htip
  refine ⟨⟨found.row, last.state, last.severity⟩, ?_⟩
  simp only [readIncident, incident, hknown.row, htip]
  rfl

/-- What is raised is raised by the call itself, not by the reading of its result. -/
theorem map_eq_error {α β : Type} {f : α → β} {x : Result α} {e : Error}
    (h : x.map f = .error e) : x = .error e := by
  cases x with
  | error _ => exact congrArg _ (Except.error.inj h)
  | ok _ => cases h

/-- **A call that raises** leaves the store as it was, if its event names a snapshot. -/
theorem Sound.raises (hs : Sound env s) {act : Action} (hnames : act.NamesSnapshot env) {e : Error}
    (h : (perform env s act).2 = .error e) : (perform env s act).1 = s := by
  have hafter : ∀ {act : Action} {s' : Store τ}, Change env s act s' →
      (runtimeLog τ).Linked "" s'.runtimeEvents := fun hchange => (hchange.sound hs).runtime.linked
  cases act with
  | createDeploymentManifest a =>
    simp only [perform, Prod.map_fst, Prod.map_snd, id, createDeploymentManifest] at h ⊢
    exact transaction_raises (map_eq_error h)
  | createPreflightSnapshot a =>
    simp only [perform, Prod.map_fst, Prod.map_snd, id, createPreflightSnapshot] at h ⊢
    exact transaction_raises (map_eq_error h)
  | createRuntimeSession a =>
    simp only [perform, Prod.map_fst, Prod.map_snd, id, createRuntimeSession] at h ⊢
    refine afterCommit_raises (fun s' id hbody => ?_) (map_eq_error h)
    have hlinked := hafter (createRuntimeSession_change hbody)
    obtain ⟨_, _, _, _, _, _, _, metadata, row, event, payload, -, -, hrow, rfl, hfresh, hnext, -, htype,
      rfl⟩ := createRuntimeSessionBody_eq_ok hbody
    refine readSession_new hs.runtime (fun r hr => ?_) (by rw [hrow]; rfl) hnext hlinked htype
    simpa [SessionRow.clash] using hfresh r hr
  | transitionRuntimeSession lifecycle a =>
    simp only [perform, Prod.map_fst, Prod.map_snd, id, transitionRuntimeSession] at h ⊢
    refine afterCommit_raises (fun s' id hbody => ?_) (map_eq_error h)
    have hlinked := hafter (transitionRuntimeSession_change hbody)
    obtain ⟨session, row, hknown, hnext, -, htype, rfl, rfl⟩ := transitionRuntimeSessionBody_eq_ok hbody
    exact hknown.read_after hnext hlinked fun hrebound => hnames (htype.symm.trans hrebound)
  | rebindRuntimePreflight a =>
    simp only [perform, Prod.map_fst, Prod.map_snd, id, rebindRuntimePreflight] at h ⊢
    refine afterCommit_raises (fun s' id hbody => ?_) (map_eq_error h)
    have hlinked := hafter (rebindRuntimePreflight_change hbody)
    obtain ⟨_, session, p, row, hknown, -, hnext, -, -, rfl, rfl⟩ := rebindRuntimePreflightBody_eq_ok hbody
    exact hknown.read_after hnext hlinked fun _ => ⟨_, readBinding_rebindPayload session p⟩
  | appendRuntimeEvent a =>
    simp only [perform, Prod.map_fst, Prod.map_snd, id, appendRuntimeEvent] at h ⊢
    exact transaction_raises (map_eq_error h)
  | openIncident a =>
    simp only [perform, Prod.map_fst, Prod.map_snd, id, openIncident] at h ⊢
    exact transaction_raises (map_eq_error h)
  | transitionIncident state a =>
    simp only [perform, Prod.map_fst, Prod.map_snd, id, transitionIncident] at h ⊢
    refine afterCommit_raises (fun s' id hbody => ?_) (map_eq_error h)
    obtain ⟨found, row, hknown, hnext, -, rfl, rfl⟩ := transitionIncidentBody_eq_ok hbody
    exact hknown.read_after hnext
  | resolveIncident a =>
    simp only [perform, Prod.map_fst, Prod.map_snd, id, resolveIncident, transitionIncident] at h ⊢
    refine afterCommit_raises (fun s' id hbody => ?_) (map_eq_error h)
    obtain ⟨found, row, hknown, hnext, -, rfl, rfl⟩ := transitionIncidentBody_eq_ok hbody
    exact hknown.read_after hnext
  | appendIncidentEvent a =>
    simp only [perform, Prod.map_fst, Prod.map_snd, id, appendIncidentEvent] at h ⊢
    exact transaction_raises (map_eq_error h)

/-! ## A run -/

def sampleA : RequiredText := ⟨"A", by decide⟩

def sampleDigest (n : ℕ) : Sha256 := ⟨sampleHash n, sampleHash_isHash n⟩

def sampleNow : Instant := ⟨0, by decide⟩

theorem empty_isOptional : "" = "" ∨ isHash "" = true := .inl rfl

theorem first_is_unlinked : (1 : ℤ) = 1 ↔ "" = "" := ⟨fun _ => rfl, fun _ => rfl⟩

/-- A first manifest of a deployment. -/
def sampleManifest (deployment : RequiredText) (account : Sha256) : DeploymentManifest where
  deploymentId := deployment
  revision := ⟨1, le_refl 1⟩
  previousManifestHash := ⟨⟨"", empty_isOptional⟩, first_is_unlinked⟩
  strategyArtifactHash := sampleDigest 1
  portfolioArtifactHash := ⟨"", empty_isOptional⟩
  accountFingerprint := account
  brokerRoute := sampleA
  runtimeVersion := sampleA
  buildHash := sampleDigest 1
  executionAdapter := sampleA
  executionAdapterVersion := sampleA
  riskPolicyRevision := ⟨1, le_refl 1⟩
  riskPolicyHash := sampleDigest 1
  configRevision := ⟨1, le_refl 1⟩
  configHash := sampleDigest 1
  preflightTtlSeconds := ⟨1, by decide⟩
  createdAt := sampleNow
  metadata := []

/-- A snapshot of a manifest with one check that passed. -/
def samplePreflight (m : DeploymentManifest) : PreflightSnapshot where
  snapshotId := m.deploymentId
  deploymentId := m.deploymentId
  deploymentRevision := m.revision
  deploymentManifestHash := m.sha256 Env.sample
  accountFingerprint := m.accountFingerprint
  brokerRoute := m.brokerRoute
  configRevision := m.configRevision
  configHash := m.configHash
  reconciliationHash := sampleDigest 1
  brokerSnapshotHash := sampleDigest 1
  checks := ⟨[⟨sampleA, .pass, ⟨"", by decide⟩, ⟨"", empty_isOptional⟩⟩], by decide, List.nodup_singleton _,
    List.pairwise_singleton _ _⟩
  issuedAt := sampleNow
  expiresAt := ⟨1000000, by decide⟩
  expires := by decide
  metadata := []

theorem isNormal_nil : IsNormal env [] := ⟨trivial, rfl⟩

theorem DeploymentManifest.make_normal {input : ManifestInput} {m : DeploymentManifest} (h : make env input = .ok m) :
    IsNormal env m.metadata := by
  simp only [make, bind_eq_ok, pure_eq_ok] at h
  obtain ⟨_, -, _, -, _, -, _, -, _, -, _, -, _, -, _, -, _, -, _, -, _, -, _, -, _, -, _, -, _, -, _, -, _, -, _, -, _, hmeta, -, -,
    rfl⟩ := h
  exact jsonObject_normal env hmeta

theorem PreflightSnapshot.make_normal {input : SnapshotInput} {p : PreflightSnapshot} (h : make env input = .ok p) :
    IsNormal env p.metadata := by
  simp only [make, bind_eq_ok] at h
  obtain ⟨_, -, _, -, _, -, _, -, _, -, _, -, _, -, _, -, _, -, _, -, _, -, _, -, _, -, _, -, _, -, h⟩ := h
  split at h
  · simp only [bind_eq_ok, pure_eq_ok] at h
    obtain ⟨_, hmeta, -, -, rfl⟩ := h
    exact jsonObject_normal env hmeta
  · cases h

/-- **Round trip.**  The row of a record that was built is read back as the record. -/
theorem records_round_trip (env : Env τ) :
    (∀ input m, DeploymentManifest.make env input = .ok m → manifestFromRow env (.of env m) = .ok m) ∧
      ∀ input p, PreflightSnapshot.make env input = .ok p → snapshotFromRow env (.of env p) = .ok p :=
  ⟨fun _ _ h => ManifestRow.Stores.read ⟨DeploymentManifest.make_normal h, rfl⟩,
    fun _ _ h => SnapshotRow.Stores.read ⟨PreflightSnapshot.make_normal h, rfl⟩⟩

theorem sampleManifest_round_trip : manifestFromRow Env.sample (.of Env.sample (sampleManifest sampleA (sampleDigest 1))) =
    .ok (sampleManifest sampleA (sampleDigest 1)) :=
  (records_round_trip Env.sample).1 _ _ (DeploymentManifest.make_storedInput Env.sample isNormal_nil)

theorem samplePreflight_madeFrom {m : DeploymentManifest} (h : m.preflightTtlSeconds.1 = 1) :
    (samplePreflight m).MadeFrom Env.sample m :=
  ⟨isNormal_nil, rfl, rfl, rfl, rfl, rfl, rfl, rfl, by rw [h]; rfl⟩

def sampleSession : SessionArgs where
  deploymentId := "A"
  deploymentManifestHash := sampleHash 1
  profile := "A"
  mode := "SMALL_LIVE"
  runtimeInstanceId := "A"
  preflightSnapshotId := "A"
  actor := "A"
  metadata := []
  occurredAt := .datetime ⟨0, true⟩
  sessionId := "S"
  newId := "S"
  eventId := sampleHash 1

/-- A manifest, a snapshot of it and a session over that. -/
def sampleActs : List Action :=
  [.createDeploymentManifest (.of Env.sample (sampleManifest sampleA (sampleDigest 1))),
    .createPreflightSnapshot (.of Env.sample (samplePreflight (sampleManifest sampleA (sampleDigest 1)))),
    .createRuntimeSession sampleSession]

theorem sample_sha256 (value : Json) :
    stableSha256 Env.sample value = sampleHash (sampleMark value.sortKeys) := rfl

/-- In the sample runs the hash of an event is that of its number. -/
theorem sample_eventHash {rows : List (RuntimeEventRow Json)} {id : String} {row : RuntimeEventRow Json}
    {payload : Fields} (h : NextRuntimeEvent Env.sample rows id row payload) :
    row.eventHash = sampleHash row.sequence := by
  have hlookup : (row.base Env.sample payload).lookup "sequence" = some (.int row.sequence) := rfl
  rw [h.hash, sample_sha256, Json.sortKeys_obj]
  simp only [sampleMark, Fields.lookup_sorted, hlookup, Option.map_some, Json.sortKeys_int,
    Int.toNat_natCast]

theorem sample_manifestHash (deployment : RequiredText) (account : Sha256) :
    (sampleManifest deployment account).manifestHash Env.sample =
      sampleHash (if deployment.1 = "A" then 1 else 2) := by
  have hsequence : ((sampleManifest deployment account).toDict Env.sample).lookup "sequence" = none := rfl
  have hid : ((sampleManifest deployment account).toDict Env.sample).lookup "deploymentId" =
      some (.str deployment.1) := rfl
  rw [DeploymentManifest.manifestHash, sample_sha256, Json.sortKeys_obj]
  simp only [sampleMark, Fields.lookup_sorted, hsequence, hid, Option.map_some, Option.map_none,
    Json.sortKeys_str]

section Sample

theorem sampleHash_ne {m n : ℕ} (hm : 1 ≤ m) (hlt : m < n) (hn : n ≤ 4) : sampleHash m ≠ sampleHash n := by
  obtain rfl | rfl | rfl : m = 1 ∨ m = 2 ∨ m = 3 := by omega
  · obtain rfl | rfl | rfl : n = 2 ∨ n = 3 ∨ n = 4 := by omega
    all_goals decide
  · obtain rfl | rfl : n = 3 ∨ n = 4 := by omega
    all_goals decide
  · obtain rfl : n = 4 := by omega
    decide

/-- The event with a number of its own. -/
def sampleEvent (n : ℕ) (eventType : String) (payload : Fields) : EventArgs where
  sessionId := "S"
  eventType := eventType
  actor := "A"
  payload := payload
  occurredAt := .datetime ⟨0, true⟩
  eventId := sampleHash n

theorem utcIso_sampleNow : utcIso Env.sample (.datetime ⟨0, true⟩) "occurred_at" = .ok sampleNow := rfl

theorem requiredText_sample (label : String) :
    requiredText Env.sample (.str "A") label = .ok sampleA := requiredText_self _ sampleA _

/-- Session `S` of the sample run after `n` events. -/
structure SampleSession (s : Store Json) (n : ℕ) (lifecycle : Lifecycle) (row : SessionRow Json)
    (bound : String × String) : Prop where
  numbered : ∀ e ∈ s.runtimeEvents, 1 ≤ e.sequence ∧ e.sequence ≤ n ∧ e.eventId = sampleHash e.sequence ∧
    e.eventHash = sampleHash e.sequence
  held : ∃ last metadata, Held Env.sample s "S" row bound last metadata ∧ last.lifecycle = lifecycle ∧
    last.occurredAt = sampleNow ∧ last.sequence = n

variable {s : Store Json} {n : ℕ} {lifecycle : Lifecycle} {row : SessionRow Json} {bound : String × String}

theorem SampleSession.freshEvent (h : SampleSession s n lifecycle row bound) (hn : n < 4) :
    FreshEvent Env.sample s "S" (sampleHash (n + 1)) := by
  obtain ⟨last, metadata, hheld, -, -, hlast⟩ := h.held
  intro event payload hnext hid r hr
  have hseq : event.sequence = n + 1 := by
    rw [hnext.sequence, hheld.tip]
    exact congrArg (· + 1) hlast
  obtain ⟨hpos, hle, hrid, hrhash⟩ := h.numbered r hr
  have hne : sampleHash r.sequence ≠ sampleHash (n + 1) := sampleHash_ne hpos (by omega) (by omega)
  simp only [RuntimeEventRow.clash, Bool.or_eq_false_iff, Bool.and_eq_false_iff, decide_eq_false_iff_not]
  refine ⟨⟨?_, ?_⟩, .inr ?_⟩
  · rw [hrid, hid]
    exact hne
  · rw [hrhash, sample_eventHash hnext, hseq]
    exact hne
  · omega

theorem SampleSession.next {event : RuntimeEventRow Json} {payload : Fields} {bound' : String × String}
    (h : SampleSession s n lifecycle row bound)
    (hnext : NextRuntimeEvent Env.sample s.runtimeEvents "S" event payload)
    (hid : event.eventId = sampleHash (n + 1)) (hat : event.occurredAt = sampleNow)
    (hheld : ∀ last metadata, Held Env.sample s "S" row bound last metadata →
      Held Env.sample { s with runtimeEvents := s.runtimeEvents ++ [event] } "S" row bound' event metadata) :
    SampleSession { s with runtimeEvents := s.runtimeEvents ++ [event] } (n + 1) event.lifecycle row bound' := by
  obtain ⟨last, metadata, hold, -, -, hlast⟩ := h.held
  have hseq : event.sequence = n + 1 := by
    rw [hnext.sequence, hold.tip]
    exact congrArg (· + 1) hlast
  refine ⟨fun e he => ?_, event, metadata, hheld last metadata hold, rfl, hat, hseq⟩
  rcases List.mem_append.mp he with he | he
  · obtain ⟨hpos, hle, hrest⟩ := h.numbered e he
    exact ⟨hpos, by omega, hrest⟩
  · obtain rfl := List.mem_singleton.mp he
    rw [sample_eventHash hnext, hid, hseq]
    exact ⟨by omega, le_refl _, rfl, rfl⟩

theorem SampleSession.transition (h : SampleSession s n lifecycle row bound) (text : String)
    (target : Lifecycle) (payload : Fields) (eventType : RequiredText) (hn : n < 4)
    (htarget : enumText runtimeLifecycles text "runtime lifecycle" = .ok target) (hne : target ≠ lifecycle)
    (hmem : target ∈ runtimeTransitions lifecycle) (hclean : Clean Env.sample (.obj payload)) :
    ∃ event, NextRuntimeEvent Env.sample s.runtimeEvents "S" event payload.sorted ∧
      event.eventId = sampleHash (n + 1) ∧ event.lifecycle = target ∧ event.occurredAt = sampleNow ∧
      event.eventType = eventType.1 ∧
      transitionRuntimeSessionBody Env.sample s text (sampleEvent (n + 1) eventType.1 payload) =
        .ok ({ s with runtimeEvents := s.runtimeEvents ++ [event] }, "S") := by
  obtain ⟨last, metadata, hheld, rfl, hlast, -⟩ := h.held
  exact transitionRuntimeSession_of (a := sampleEvent (n + 1) eventType.1 payload) hheld htarget hne hmem
    utcIso_sampleNow (by rw [hlast]) (requiredText_self _ eventType _) (requiredText_sample _) hclean
    (h.freshEvent hn)

def sampleManifestA : DeploymentManifest := sampleManifest sampleA (sampleDigest 1)

theorem sampleManifestA_hash : sampleManifestA.manifestHash Env.sample = sampleHash 1 :=
  sample_manifestHash sampleA (sampleDigest 1)

/-- A manifest that is alone in its deployment and first under its hash is the newest one. -/
theorem newest_of_alone {τ : Type} {env : Env τ} {s : Store τ} {m : DeploymentManifest}
    (hnormal : IsNormal env m.metadata)
    (halone : (manifestLog τ).rowsOf s.manifests m.deploymentId.1 = [.of env m])
    (hfind : s.manifests.find? (·.manifestHash = m.manifestHash env) = some (.of env m)) :
    Newest env s m where
  normal := hnormal
  tip := by
    rw [Log.tip, halone]
    rfl
  find := hfind

theorem sample_newestA {s : Store Json} {rows : List (ManifestRow Json)}
    (hs : s.manifests = .of Env.sample sampleManifestA :: rows)
    (hrows : ∀ r ∈ rows, r.deploymentId ≠ "A") : Newest Env.sample s sampleManifestA := by
  refine newest_of_alone isNormal_nil ?_ ?_
  · rw [hs, Log.rowsOf, List.filter_cons_of_pos (by rfl), List.filter_eq_nil_iff.mpr]
    intro r hr
    exact decide_eq_false (hrows r hr) ▸ Bool.false_ne_true
  · rw [hs, List.find?_cons_of_pos]
    simp [ManifestRow.of]

theorem sampleSession_over : sampleSession.Over Env.sample (samplePreflight sampleManifestA) sampleManifestA
    .smallLive sampleNow where
  deployment := rfl
  hash := sampleManifestA_hash.symm
  snapshot := rfl
  mode := by decide
  now := utcIso_sampleNow
  profile := ⟨_, requiredText_sample _⟩
  instanceId := ⟨_, requiredText_sample _⟩
  actor := ⟨_, requiredText_sample _⟩
  clean := trivial

/-- The snapshot of the sample run can be used. -/
theorem sample_usable {s : Store Json} {m : DeploymentManifest} (hm : Newest Env.sample s m)
    (httl : m.preflightTtlSeconds.1 = 1)
    (hfind : s.snapshots.find? (·.snapshotId = m.deploymentId.1) =
      some (.of Env.sample (samplePreflight m))) :
    Usable Env.sample s (samplePreflight m) m sampleNow where
  newest := hm
  made := samplePreflight_madeFrom httl
  find := hfind
  passed := rfl
  fresh := show (0 : ℤ) < 1000000 by decide

/-- The session of the sample run when it was made. -/
theorem sample_created {ok : Store Json → Action → Prop}
    (hok : ∀ s, s.sessions = [] → ∀ act ∈ sampleActs, ok s act) :
    ∃ s row bound, Run (step Env.sample) ok {} sampleActs s ∧
    s.manifests = [.of Env.sample sampleManifestA] ∧
    s.snapshots = [.of Env.sample (samplePreflight sampleManifestA)] ∧ s.incidents = [] ∧
    row.deploymentId = "A" ∧ row.deploymentManifestHash = sampleHash 1 ∧ row.mode = .smallLive ∧
    bound.1 = "A" ∧ s.sessions = [row] ∧ SampleSession s 1 .preflight row bound := by
  have hm : (perform Env.sample {} (.createDeploymentManifest (.of Env.sample sampleManifestA))).1 = _ :=
    createDeploymentManifest_of isNormal_nil rfl rfl (by decide) (fun _ h => (nomatch h))
  have hnewest : ∀ s : Store Json, s.manifests = [.of Env.sample sampleManifestA] →
      Newest Env.sample s sampleManifestA := fun s hs => sample_newestA hs (fun _ h => (nomatch h))
  have hp : (perform Env.sample { manifests := [.of Env.sample sampleManifestA] }
      (.createPreflightSnapshot (.of Env.sample (samplePreflight sampleManifestA)))).1 = _ :=
    createPreflightSnapshot_of (hnewest _ rfl) (samplePreflight_madeFrom rfl) (fun _ h => (nomatch h))
  let s₂ : Store Json := {
    manifests := [.of Env.sample sampleManifestA]
    snapshots := [.of Env.sample (samplePreflight sampleManifestA)] }
  have hrun : Run (step Env.sample) ok {} (sampleActs.take 2) s₂ :=
    .cons (hok _ rfl _ (by simp [sampleActs])) (congrArg some hm)
      (.cons (hok _ rfl _ (by simp [sampleActs])) (congrArg some hp) (.nil _))
  have husable : Usable Env.sample s₂ (samplePreflight sampleManifestA) sampleManifestA sampleNow := by
    refine sample_usable (hnewest _ rfl) rfl ?_
    rw [List.find?_cons_of_pos]
    rfl
  obtain ⟨row, event, payload, metadata, hid, hdeployment, hhash, hmode, hbound, hboundHash, hmeta, hnext,
    heventId, hlifecycle, hat, htype, hdone⟩ := createRuntimeSession_of (sound_of_run hrun) husable
      sampleSession_over (fun _ h => (nomatch h)) (fun _ _ _ _ _ h => (nomatch h))
  have hrow : row.sessionId = "S" := hid.trans rfl
  let s₃ : Store Json := { s₂ with sessions := [row], runtimeEvents := [event] }
  have hrun' : Run (step Env.sample) ok {} sampleActs s₃ :=
    hrun.snoc (hok _ rfl _ (by simp [sampleActs])) (congrArg some hdone)
  have hlinked : (runtimeLog Json).Linked "" s₃.runtimeEvents := (sound_of_run hrun').runtime.linked
  have hsession : event.sessionId = "S" := hnext.session.trans hrow
  have hseq : event.sequence = 1 := hnext.sequence
  -- the first event of the session binds nothing
  have hnone : reboundEvent s₃ row.sessionId = none := by
    have hlast : reboundEvent s₃ row.sessionId = if _ then _ else reboundEvent s₂ row.sessionId :=
      reboundEvent_append rfl hlinked row.sessionId
    rw [if_neg] at hlast
    · exact hlast
    · rintro ⟨-, hrebound⟩
      rw [htype] at hrebound
      exact absurd hrebound (by decide)
  refine ⟨s₃, row, (row.preflightSnapshotId, row.preflightSnapshotHash), hrun', rfl, rfl, rfl, hdeployment,
    hhash.trans sampleManifestA_hash, hmode, hbound, rfl, fun e he => ?_, event,
    (Json.obj metadata).sortKeys, ⟨?_, ?_, ?_, ?_⟩, hlifecycle, hat, hseq⟩
  · obtain rfl := List.mem_singleton.mp he
    rw [sample_eventHash hnext, heventId, hseq]
    exact ⟨le_refl _, le_refl _, rfl, rfl⟩
  · rw [List.find?_cons_of_pos]
    simpa using hrow
  · have htip : (runtimeLog Json).tip ([] ++ [event]) "S" = _ := Log.Linked.tip_append hlinked "S"
    exact htip.trans (if_pos hsession)
  · rw [hmeta]
    exact Env.sample.loads_dumps _
  · exact binding_of_none hnone

/-- A transition that is a rebinding event without a snapshot. -/
def sampleRebound : Action := .transitionRuntimeSession "STARTING" (sampleEvent 2 preflightRebound [])

theorem readBinding_nil :
    readBinding Env.sample (.obj []) = .error (.value "preflightSnapshotId is required") := by
  decide

/-- What `get_runtime_session` raises for a session whose binding cannot be read. -/
theorem readSession_error {τ : Type} {env : Env τ} {s : Store τ} {missing id : String} {row : SessionRow τ}
    {last : RuntimeEventRow τ} {metadata : Json} {e : Error}
    (hrow : s.sessions.find? (·.sessionId = id) = some row)
    (htip : (runtimeLog τ).tip s.runtimeEvents id = some last)
    (hmeta : env.loads row.metadataJson = .ok metadata) (hbinding : binding env s row = .error e) :
    readSession env missing s id = .error e := by
  simp only [readSession, runtimeSession, hrow, htip, hmeta, hbinding, ok_bind]
  rfl

/-- The transition of the sample run raises after its commit. -/
theorem sample_raises_changed : ∃ s, Run (step Env.sample) Free {} sampleActs s ∧
    (perform Env.sample s sampleRebound).2 = .error (.value "preflightSnapshotId is required") ∧
    (perform Env.sample s sampleRebound).1 ≠ s := by
  obtain ⟨s, row, bound, hrun, -, -, -, -, -, -, -, -, hsession⟩ := sample_created fun _ _ _ _ => trivial
  obtain ⟨event, hnext, -, -, -, htype, hbody⟩ := hsession.transition "STARTING" .starting []
    ⟨preflightRebound, by decide⟩ (by decide) (by decide) (by decide) (by decide) trivial
  obtain ⟨last, metadata, hheld, -⟩ := hsession.held
  obtain ⟨hstore, hresult⟩ := perform_transition hbody
  let s' : Store Json := { s with runtimeEvents := s.runtimeEvents ++ [event] }
  have hchange : Change Env.sample s sampleRebound s' := transitionRuntimeSession_change hbody
  have hlinked : (runtimeLog Json).Linked "" s'.runtimeEvents :=
    (hchange.sound (sound_of_run hrun)).runtime.linked
  have hbinding : binding Env.sample s' row = .error (.value "preflightSnapshotId is required") := by
    have hlast : reboundEvent s' row.sessionId = _ := reboundEvent_append rfl hlinked row.sessionId
    rw [if_pos ⟨hnext.session.trans hheld.id_eq.symm, htype⟩] at hlast
    rw [binding_of_some hlast hnext.stored hnext.normal]
    exact readBinding_nil
  refine ⟨s, hrun, hresult.trans ?_, ?_⟩
  · have htip : (runtimeLog Json).tip s'.runtimeEvents "S" = some event := by
      rw [hlinked.tip_append, if_pos]
      exact hnext.session
    have hread : readSession Env.sample "runtime session disappeared" s' "S" = _ :=
      readSession_error hheld.find htip hheld.metadata hbinding
    exact congrArg (fun r => r.map fun _ => ()) hread
  · intro heq
    rw [sampleRebound, hstore] at heq
    have hlength := congrArg (fun s => s.runtimeEvents.length) heq
    simp at hlength

end Sample

/-! ## Every run -/

/-- **Every reachable store** is lawful; a call leaves every stored row in its place; and a call
that raises, without being a rebinding transition that names no snapshot, changes nothing. -/
theorem lawful_of_run {acts : List Action} (h : Run (step env) Free {} acts s) :
    Lawful env s ∧ ∀ act, Extends s (perform env s act).1 ∧
      (act.NamesSnapshot env → ∀ e, (perform env s act).2 = .error e → (perform env s act).1 = s) := by
  have hsound := sound_of_run h
  refine ⟨hsound.lawful, fun act => ⟨(perform_change act).extends, fun hnames e he => ?_⟩⟩
  exact hsound.raises hnames he

/-- A transition of the sample session to a lifecycle that is none. -/
def sampleRefused : Action := .transitionRuntimeSession "NONE" (sampleEvent 2 "A" [])

theorem sampleRefused_raises (s : Store Json) :
    (perform Env.sample s sampleRefused).2 = .error (.value "unsupported runtime lifecycle: NONE") := by
  have hname : enumText runtimeLifecycles "NONE" "runtime lifecycle" =
      .error (.value "unsupported runtime lifecycle: NONE") := by decide
  simp only [sampleRefused, perform, Prod.map_snd, transitionRuntimeSession, transitionRuntimeSessionBody,
    hname]
  rfl

theorem lawful_of_run_sample : ∃ s, Run (step Env.sample) Free {} sampleActs s ∧ Lawful Env.sample s ∧
    Extends s (perform Env.sample s sampleRefused).1 ∧ (perform Env.sample s sampleRefused).1 = s := by
  obtain ⟨s, _, _, hrun, -⟩ := sample_created fun _ _ _ _ => trivial
  have hnames : sampleRefused.NamesSnapshot Env.sample := fun h => absurd h (by decide)
  exact ⟨s, hrun, (lawful_of_run hrun).1, ((lawful_of_run hrun).2 sampleRefused).1,
    ((lawful_of_run hrun).2 sampleRefused).2 hnames _ (sampleRefused_raises s)⟩

end LiveTrader.Governance
