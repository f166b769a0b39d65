/-
# `Governance.Observed` — the newest session, and incidents that are opened again

`latest_preflight_for_deployment`, `latest_runtime_session` and `list_incidents` order by a column that holds the ISO text of a time.
The text of a whole second has no decimal places, and its `Z` is greater than the point of the others: it counts as later than all of
its second.  `latestInTime_iff` says of which stores the newest are the newest in time all the same.

`open_incident` finds the one incident under its key that is not resolved and appends `INCIDENT_OBSERVED` to it.  The event has the
severity of the call, and an incident's severity cannot be lowered: a call of a lower severity raises and its evidence is not stored.
-/
import LiveTrader.Governance.Sound
import LiveTrader.Lib.Recent
import LiveTrader.Lib.UtcText

namespace LiveTrader.Governance

open Lib Lib.Py Lib.Runs

variable {τ : Type}

/-! ## Texts of times -/

/-- The first of January 1970, in microseconds from the day before the first of year 1. -/
def epochMicros : ℤ := 62135683200000000

theorem inCalendar (t : Instant) : InCalendar (t.1 + epochMicros).toNat := by
  obtain ⟨t, hlow, hhigh⟩ := t
  rw [InCalendar, maxOrdinal, epochMicros]
  dsimp only
  omega

/-- The fields of a `datetime`. -/
def utcOf (t : Instant) : Utc := .ofMicros (t.1 + epochMicros).toNat (inCalendar t)

/-- `isoformat` writes what the library documents. -/
def Renders (env : Env τ) : Prop := ∀ t, env.isoformat t = (utcOf t).zText

/-- A time on a whole second, and a later one in that second: the text of the first is the greater one. -/
def Shadows (t u : Instant) : Prop := t.1 % 1000000 = 0 ∧ t.1 < u.1 ∧ u.1 < t.1 + 1000000

instance (t u : Instant) : Decidable (Shadows t u) :=
  inferInstanceAs (Decidable (t.1 % 1000000 = 0 ∧ t.1 < u.1 ∧ u.1 < t.1 + 1000000))

theorem micros_utcOf (t : Instant) : ((utcOf t).micros : ℤ) = t.1 + epochMicros := by
  have hlow := t.2.1
  rw [utcOf, Utc.micros_ofMicros, Int.toNat_of_nonneg]
  rw [epochMicros]
  omega

/-- **The order of the texts.** -/
theorem zText_lt_zText_iff {t u : Instant} : (utcOf t).zText < (utcOf u).zText ↔ Shadows u t ∨ t.1 < u.1 ∧ ¬Shadows t u := by
  have ht := micros_utcOf t
  have hu := micros_utcOf u
  have hlow := t.2.1
  have hlow' := u.2.1
  rw [Utc.zText_lt_iff, zPlace, zPlace, zRank, zRank, Shadows, Shadows]
  rw [epochMicros] at ht hu
  generalize (utcOf t).micros = m at *
  generalize (utcOf u).micros = n at *
  split <;> split <;> omega

section reading

variable (env : Env τ) (s : Store τ)

/-! ## The calls that read -/

/-- `ORDER BY` a column of times. -/
def column (t : Instant) : List Char := (env.isoformat t).toList

/-- The snapshots of a deployment; the columns `deployment_id` and `issued_at` repeat the payload. -/
def deploymentSnapshots (deploymentId : String) : List PreflightSnapshot :=
  (s.snapshots.filterMap fun row => (snapshotFromRow env row).toOption).filter fun p => p.deploymentId.1 = deploymentId

/-- `latest_preflight_for_deployment`. -/
def latestPreflightForDeployment (deploymentId : String) : Option PreflightSnapshot :=
  newest (fun p => column env p.issuedAt) (deploymentSnapshots env s deploymentId)

/-- The sessions of a deployment, or all of them. -/
def deploymentSessions (deploymentId : String) : List (SessionRow τ) :=
  s.sessions.filter fun row => deploymentId = "" || row.deploymentId = deploymentId

/-- The row that `latest_runtime_session` finds. -/
def latestSessionRow (deploymentId : String) : Option (SessionRow τ) :=
  newest (fun row => column env row.createdAt) (deploymentSessions s deploymentId)

/-- `latest_runtime_session`. -/
def latestRuntimeSession (deploymentId : String) : Result (Option RuntimeSession) :=
  match latestSessionRow env s deploymentId with
  | some row => runtimeSession env s row.sessionId
  | none => pure none

/-- The incidents that have an event, or those whose last event does not resolve them. -/
def joinedIncidents (activeOnly : Bool) : List IncidentRow :=
  s.incidents.filter fun row => ((incidentLog τ).tip s.incidentEvents row.incidentId).isSome && (!activeOnly || isUnresolved s row)

/-- The rows that `list_incidents` finds. -/
def listedRows (limit : ℤ) (activeOnly : Bool) : List IncidentRow :=
  latest (fun row => column env row.openedAt) (max 1 limit).toNat (joinedIncidents s activeOnly)

/-- `list_incidents`. -/
def listIncidents (limit : ℤ) (activeOnly : Bool) : List Incident :=
  (listedRows env s limit activeOnly).filterMap fun row => incident s row.incidentId

/-- What each call finds newest is the newest in time. -/
structure LatestInTime : Prop where
  preflight : ∀ deploymentId, IsLatest (fun p : PreflightSnapshot => p.issuedAt.1) (deploymentSnapshots env s deploymentId)
    (latestPreflightForDeployment env s deploymentId)
  session : ∀ deploymentId, IsLatest (fun row : SessionRow τ => row.createdAt.1) (deploymentSessions s deploymentId)
    (latestSessionRow env s deploymentId)
  /-- The session returned is that of the row found. -/
  returned : ∀ deploymentId session, latestRuntimeSession env s deploymentId = .ok (some session) →
    ∃ row ∈ latestSessionRow env s deploymentId, session.sessionId = row.sessionId ∧ session.createdAt = row.createdAt
  incidents : ∀ limit activeOnly, (listIncidents env s limit activeOnly).Pairwise fun a b => b.row.openedAt.1 ≤ a.row.openedAt.1

/-- No whole second is taken for later than the rest of it: among the newest snapshots of a deployment, the newest sessions of one or
of all, and all incidents. -/
structure Separated : Prop where
  snapshots : ∀ deploymentId, ∀ p ∈ deploymentSnapshots env s deploymentId, ∀ q ∈ deploymentSnapshots env s deploymentId,
    Shadows p.issuedAt q.issuedAt → ∃ r ∈ deploymentSnapshots env s deploymentId, p.issuedAt.1 + 1000000 ≤ r.issuedAt.1
  sessions : ∀ deploymentId, ∀ p ∈ deploymentSessions s deploymentId, ∀ q ∈ deploymentSessions s deploymentId,
    Shadows p.createdAt q.createdAt → ∃ r ∈ deploymentSessions s deploymentId, p.createdAt.1 + 1000000 ≤ r.createdAt.1
  incidents : ∀ p ∈ joinedIncidents s false, ∀ q ∈ joinedIncidents s false, ¬Shadows p.openedAt q.openedAt

end reading

/-! ## When the newest is the newest -/

variable {env : Env τ} {s : Store τ}

section order

variable (hrenders : Renders env)
include hrenders

theorem column_lt_iff {t u : Instant} : column env t < column env u ↔ Shadows u t ∨ t.1 < u.1 ∧ ¬Shadows t u := by
  rw [column, column, ← String.lt_iff, hrenders, hrenders]
  exact zText_lt_zText_iff

theorem column_inj {t u : Instant} (h : column env t = column env u) : t.1 = u.1 := by
  have htu := (column_lt_iff hrenders (t := t) (u := u)).not.mp (h ▸ lt_irrefl _)
  have hut := (column_lt_iff hrenders (t := u) (u := t)).not.mp (h ▸ lt_irrefl _)
  rw [Shadows, Shadows] at htu hut
  omega

/-- The greatest text is that of the latest time unless it shadows one and no later second is there. -/
theorem isLatest_column_iff {α : Type} (time : α → Instant) {items : List α} :
    IsLatest (fun a => (time a).1) items (newest (fun a => column env (time a)) items) ↔
      ∀ a ∈ items, ∀ b ∈ items, Shadows (time a) (time b) → ∃ c ∈ items, (time a).1 + 1000000 ≤ (time c).1 := by
  rw [isLatest_newest_iff (fun a => (time a).1) fun a b => column_inj hrenders]
  constructor
  · intro h a ha b hb hshadows
    by_contra hlast
    push Not at hlast
    -- then the text on the whole second is the greatest
    have hmax : ∀ c ∈ items, column env (time c) ≤ column env (time a) := by
      intro c hc
      rw [← not_lt, column_lt_iff hrenders]
      have hc' := hlast c hc
      rw [Shadows] at hshadows ⊢
      rw [Shadows]
      omega
    have hle := h a ha hmax b hb
    exact absurd hshadows.2.1 (not_lt.mpr hle)
  · intro h a ha hmax b hb
    by_contra hlater
    have hb' := (column_lt_iff hrenders).not.mp (not_lt.mpr (hmax b hb))
    have hshadows : Shadows (time a) (time b) := by
      by_contra hno
      exact hb' (.inr ⟨not_le.mp hlater, hno⟩)
    obtain ⟨c, hc, hle⟩ := h a ha b hb hshadows
    have hc' := (column_lt_iff hrenders).not.mp (not_lt.mpr (hmax c hc))
    rw [Shadows] at hc'
    rw [Shadows] at hc'
    omega

/-- The list stands in the order of time unless one of its times shadows another. -/
theorem latest_column_iff {α : Type} (time : α → Instant) {items : List α} :
    (∀ n, 0 < n → (latest (fun a => column env (time a)) n items).Pairwise fun a b => (time b).1 ≤ (time a).1) ↔
      ∀ a ∈ items, ∀ b ∈ items, ¬Shadows (time a) (time b) := by
  rw [latest_ordered_iff (fun a => (time a).1) fun a b => column_inj hrenders]
  constructor
  · intro h a ha b hb hshadows
    have hle := h b hb a ha ((column_lt_iff hrenders).mpr (.inl hshadows))
    exact absurd hshadows.2.1 (not_lt.mpr hle)
  · intro h a ha b hb hlt
    rcases (column_lt_iff hrenders).mp hlt with hshadows | ⟨hlt, -⟩
    · exact absurd hshadows (h b hb a ha)
    · exact hlt.le

end order

/-! ## Reachable stores -/

theorem find?_of_nodup {ρ κ : Type} [DecidableEq κ] {key : ρ → κ} {rows : List ρ} (h : (rows.map key).Nodup) {row : ρ}
    (hrow : row ∈ rows) : rows.find? (fun r => key r = key row) = some row := by
  cases hfind : rows.find? fun r => key r = key row with
  | none => exact absurd (decide_eq_true rfl) (List.find?_eq_none.mp hfind row hrow)
  | some found =>
    have hkey : key found = key row := of_decide_eq_true (List.find?_some (p := fun r => decide (key r = key row)) hfind)
    rw [List.inj_on_of_nodup_map h (List.mem_of_find?_eq_some hfind) hrow hkey]

theorem createdAt_of_runtimeSession {sessionId : String} {session : RuntimeSession}
    (h : runtimeSession env s sessionId = .ok (some session)) :
    ∃ row, s.sessions.find? (·.sessionId = sessionId) = some row ∧ session.sessionId = row.sessionId ∧
      session.createdAt = row.createdAt := by
  unfold runtimeSession at h
  split at h
  · next row event hrow hevent =>
    simp only [bind_eq_ok, pure_eq_ok] at h
    obtain ⟨metadata, -, bound, -, hdone⟩ := h
    cases hdone
    exact ⟨row, hrow, rfl, rfl⟩
  · cases h

/-- The session returned is that of the row found. -/
theorem Sound.returned (h : Sound env s) {deploymentId : String} {session : RuntimeSession}
    (hlatest : latestRuntimeSession env s deploymentId = .ok (some session)) :
    ∃ row ∈ latestSessionRow env s deploymentId, session.sessionId = row.sessionId ∧ session.createdAt = row.createdAt := by
  rw [latestRuntimeSession] at hlatest
  cases hfound : latestSessionRow env s deploymentId with
  | none =>
    rw [hfound] at hlatest
    cases hlatest
  | some row =>
    rw [hfound] at hlatest
    obtain ⟨row', hfind, hid, htime⟩ := createdAt_of_runtimeSession hlatest
    have hrow : row ∈ s.sessions := (List.mem_filter.mp (mem_of_mem_newest hfound)).1
    rw [find?_of_nodup h.runtime.distinct hrow] at hfind
    obtain rfl := Option.some.inj hfind
    exact ⟨row, rfl, hid, htime⟩

/-- The incident read for a row that is listed is made of that row. -/
theorem Sound.listed (h : Sound env s) {activeOnly : Bool} {row : IncidentRow} (hrow : row ∈ joinedIncidents s activeOnly) :
    ∃ found, incident s row.incidentId = some found ∧ found.row = row := by
  obtain ⟨hmem, hjoined⟩ := List.mem_filter.mp hrow
  obtain ⟨last, hlast⟩ := Option.isSome_iff_exists.mp (Bool.and_eq_true_iff.mp hjoined).1
  refine ⟨⟨row, last.state, last.severity⟩, ?_, rfl⟩
  rw [incident, find?_of_nodup h.incidents.distinct hmem, hlast]
  rfl

/-- The list of incidents stands in the order of time as the list of rows does. -/
theorem Sound.ordered_iff (h : Sound env s) {limit : ℤ} {activeOnly : Bool} :
    ((listIncidents env s limit activeOnly).Pairwise fun a b => b.row.openedAt.1 ≤ a.row.openedAt.1) ↔
      (listedRows env s limit activeOnly).Pairwise fun a b => b.openedAt.1 ≤ a.openedAt.1 := by
  have hlisted : ∀ row ∈ listedRows env s limit activeOnly, ∃ found, incident s row.incidentId = some found ∧ found.row = row :=
    fun row hrow => h.listed (mem_of_mem_latest hrow)
  rw [listIncidents, List.pairwise_filterMap]
  constructor
  · intro hpairs
    refine hpairs.imp_of_mem fun {a b} ha hb hab => ?_
    obtain ⟨x, hx, hxa⟩ := hlisted a ha
    obtain ⟨y, hy, hyb⟩ := hlisted b hb
    have hle := hab x hx y hy
    rwa [hxa, hyb] at hle
  · intro hpairs
    refine hpairs.imp_of_mem fun {a b} ha hb hab x hx y hy => ?_
    obtain ⟨x', hx', hxa⟩ := hlisted a ha
    obtain ⟨y', hy', hyb⟩ := hlisted b hb
    obtain rfl := Option.some.inj (hx'.symm.trans hx)
    obtain rfl := Option.some.inj (hy'.symm.trans hy)
    rwa [hxa, hyb]

/-- The active incidents are listed among all. -/
theorem joined_all {activeOnly : Bool} {row : IncidentRow} (h : row ∈ joinedIncidents s activeOnly) : row ∈ joinedIncidents s false := by
  obtain ⟨hmem, hjoined⟩ := List.mem_filter.mp h
  exact List.mem_filter.mpr ⟨hmem, by rw [(Bool.and_eq_true_iff.mp hjoined).1]; rfl⟩

/-- The list of incidents, for every limit, stands in the order of time unless one shadows another. -/
theorem Sound.incidents_iff (h : Sound env s) (hrenders : Renders env) :
    (∀ limit activeOnly, (listIncidents env s limit activeOnly).Pairwise fun a b => b.row.openedAt.1 ≤ a.row.openedAt.1) ↔
      ∀ p ∈ joinedIncidents s false, ∀ q ∈ joinedIncidents s false, ¬Shadows p.openedAt q.openedAt := by
  constructor
  · intro hordered
    refine (latest_column_iff hrenders IncidentRow.openedAt).mp fun n hn => ?_
    have hrows := h.ordered_iff.mp (hordered n false)
    rwa [listedRows, max_eq_right (by omega), Int.toNat_natCast] at hrows
  · intro hnone limit activeOnly
    refine h.ordered_iff.mpr ?_
    refine (latest_column_iff hrenders IncidentRow.openedAt).mpr (fun p hp q hq => ?_) _ (by omega)
    exact hnone p (joined_all hp) q (joined_all hq)

/-- **The newest is the newest in time** exactly where no whole second is taken for later than the rest of it. -/
theorem latestInTime_iff (hrenders : Renders env) (h : Reachable env s) : LatestInTime env s ↔ Separated env s := by
  obtain ⟨acts, hrun⟩ := h
  have hsound : Sound env s := sound_of_run hrun
  constructor
  · intro hlatest
    exact {
      snapshots := fun id => (isLatest_column_iff hrenders PreflightSnapshot.issuedAt).mp (hlatest.preflight id)
      sessions := fun id => (isLatest_column_iff hrenders SessionRow.createdAt).mp (hlatest.session id)
      incidents := (hsound.incidents_iff hrenders).mp hlatest.incidents }
  · intro hseparated
    exact {
      preflight := fun id => (isLatest_column_iff hrenders PreflightSnapshot.issuedAt).mpr (hseparated.snapshots id)
      session := fun id => (isLatest_column_iff hrenders SessionRow.createdAt).mpr (hseparated.sessions id)
      returned := fun _ _ h => hsound.returned h
      incidents := (hsound.incidents_iff hrenders).mpr hseparated.incidents }

/-! ## Two incidents in one second -/

/-- Events differ in their incident, keys in their deployment. -/
def datedMark : Json → ℕ
  | .obj d =>
    match d.lookup "incidentId", d.lookup "deploymentId" with
    | some (.str id), _ => if id = "incident-A" then 1 else 2
    | _, some (.str id) => if id = "A" then 3 else 4
    | _, _ => 4
  | _ => 4

/-- The environment of the samples, with the texts of times as they are. -/
def Env.dated : Env Json := { Env.sample with
  sha256 := fun v => sampleHash (datedMark v)
  sha256_isHash := fun v => sampleHash_isHash _
  isoformat := fun t => (utcOf t).zText
  fromisoformat := fun text => some ⟨readIso text - epochMicros, true⟩
  isoformat_text := fun t => zText_plain (utcOf t)
  fromisoformat_isoformat := fun t => by rw [replaceZ_zText, readIso_isoformat, micros_utcOf, Int.add_sub_cancel] }

theorem renders_dated : Renders Env.dated := fun _ => rfl

/-- An incident of a deployment, at a time. -/
def sampleOpening (deploymentId : String) (time : ℤ) : Action :=
  .openIncident {
    code := "STALE"
    scopeType := "DEPLOYMENT"
    scopeId := deploymentId
    severity := "ERROR"
    actor := "watchdog"
    deploymentId := deploymentId
    sessionId := ""
    accountFingerprint := ""
    evidenceHash := ""
    payload := []
    occurredAt := .datetime ⟨time, true⟩
    incidentId := "incident-" ++ deploymentId
    newId := ""
    eventId := "event-" ++ deploymentId }

/-- One incident at a whole second, one half a second later. -/
def sampleOpenings : List Action := [sampleOpening "A" 1000000, sampleOpening "B" 1500000]

/-- The times of the incidents, as they are listed. -/
def openedTimes (s : Store Json) : List ℤ := (listIncidents Env.dated s 100 false).map (·.row.openedAt.1)

/-- Whether a store has only incidents, and none whose time shadows another. -/
def onlySeparated (s : Store Json) : Bool :=
  s.snapshots.isEmpty && s.sessions.isEmpty &&
    decide (∀ p ∈ joinedIncidents s false, ∀ q ∈ joinedIncidents s false, ¬Shadows p.openedAt q.openedAt)

theorem Separated.of_only {s : Store Json} (h : onlySeparated s = true) : Separated Env.dated s := by
  simp only [onlySeparated, Bool.and_eq_true, List.isEmpty_iff, decide_eq_true_eq] at h
  obtain ⟨⟨hsnapshots, hsessions⟩, hincidents⟩ := h
  refine ⟨fun id p hp => ?_, fun id p hp => ?_, hincidents⟩
  · rw [deploymentSnapshots, hsnapshots] at hp
    exact absurd hp List.not_mem_nil
  · rw [deploymentSessions, hsessions] at hp
    exact absurd hp List.not_mem_nil

/-- Two incidents on whole seconds are listed in the order of time. -/
theorem whole_seconds_listed : ∃ s, Separated Env.dated s ∧ openedTimes s = [2000000, 1000000] ∧ LatestInTime Env.dated s := by
  have hrun : ((runAll (step Env.dated) {} [sampleOpening "A" 1000000, sampleOpening "B" 2000000]).map fun s =>
      (onlySeparated s, openedTimes s)) = some (true, [2000000, 1000000]) := by decide +kernel
  obtain ⟨s, hrun, hs⟩ := Option.map_eq_some_iff.mp hrun
  obtain ⟨honly, htimes⟩ := Prod.mk.inj hs
  have hseparated := Separated.of_only honly
  exact ⟨s, hseparated, htimes, (latestInTime_iff renders_dated ⟨_, free_of_runAll hrun⟩).mpr hseparated⟩

theorem openedTimes_sample : (runAll (step Env.dated) {} sampleOpenings).map openedTimes = some [1000000, 1500000] := by
  decide +kernel

/-- The incident that was opened first is listed first. -/
theorem whole_second_listed_last : ∃ s, Renders Env.dated ∧ Reachable Env.dated s ∧ openedTimes s = [1000000, 1500000] ∧
    ¬LatestInTime Env.dated s := by
  obtain ⟨s, hrun, htimes⟩ := Option.map_eq_some_iff.mp openedTimes_sample
  refine ⟨s, renders_dated, ⟨sampleOpenings, free_of_runAll hrun⟩, htimes, fun hlatest => ?_⟩
  have hordered : (openedTimes s).Pairwise fun a b => b ≤ a := List.pairwise_map.mpr (hlatest.incidents 100 false)
  rw [htimes] at hordered
  exact absurd hordered (by decide)

end LiveTrader.Governance

namespace LiveTrader.Governance

open Lib Lib.Py Lib.Runs

/-! ## An active incident is opened again -/

variable {τ : Type}

/-! ## A call that reads -/

/-- The arguments of `open_incident`, as they are read. -/
structure Opening where
  code : RequiredText
  scopeType : ScopeType
  scopeId : RequiredText
  severity : Severity
  account : OptionalSha256
  evidence : OptionalSha256
  current : Instant
  payload : Fields
  actor : RequiredText

section opening

variable (env : Env τ)

/-- The call is well formed: every argument reads. -/
structure OpenArgs.Reads (a : OpenArgs) (o : Opening) : Prop where
  code : requiredText env (.str a.code) "code" = .ok o.code
  scopeType : enumText incidentScopeTypes a.scopeType "incident scope" = .ok o.scopeType
  scopeId : requiredText env (.str a.scopeId) "scope_id" = .ok o.scopeId
  severity : enumText incidentSeverities a.severity "incident severity" = .ok o.severity
  account : optionalSha256 env (.str a.accountFingerprint) "account_fingerprint" = .ok o.account
  evidence : optionalSha256 env (.str a.evidenceHash) "evidence_hash" = .ok o.evidence
  current : utcIso env a.occurredAt "occurred_at" = .ok o.current
  payload : jsonObject env a.payload "payload" = .ok o.payload
  actor : requiredText env (.str a.actor) "actor" = .ok o.actor

/-- The row of the incident that the call would open. -/
def Opening.row (o : Opening) (a : OpenArgs) : IncidentRow :=
  incidentRow env a (env.upper o.code.1) o.scopeType o.scopeId o.account o.current

/-- The event type of an observation. -/
def incidentObserved : RequiredText := ⟨"INCIDENT_OBSERVED", by decide⟩

/-- The arguments of the event. -/
def Opening.eventArgs (o : Opening) (a : OpenArgs) (state : IncidentState) : IncidentEventArgs :=
  ⟨state, o.severity.text, "INCIDENT_OBSERVED", a.actor, o.evidence, o.payload, o.current, a.eventId⟩

/-- The event that an observation appends after the last one of the incident. -/
def Opening.event (o : Opening) (a : OpenArgs) (last : IncidentEventRow τ) : IncidentEventRow τ :=
  incidentEventRow env last.incidentId (o.eventArgs a last.state) o.severity incidentObserved o.actor o.payload (some last)

end opening

/-! ## Finding the incident -/

variable {env : Env τ} {s : Store τ} {a : OpenArgs} {o : Opening}

theorem enumText_severity (severity : Severity) (label : String) : enumText incidentSeverities severity.text label = .ok severity := by
  cases severity <;> rfl

/-- The only incident under a key that is not resolved is found. -/
theorem Sound.activeIncident (h : Sound env s) {row : IncidentRow} (hrow : row ∈ s.incidents) (hactive : isUnresolved s row = true) :
    activeIncident env s row.dedupeKey = some row := by
  cases hfound : Governance.activeIncident env s row.dedupeKey with
  | none =>
    have hmem : row ∈ s.incidents.filter fun r => r.dedupeKey = row.dedupeKey && isUnresolved s r :=
      List.mem_filter.mpr ⟨hrow, by rw [decide_eq_true rfl, hactive]; rfl⟩
    rw [List.argmax_eq_none.mp hfound] at hmem
    exact absurd hmem List.not_mem_nil
  | some found =>
    obtain ⟨hmem, hkey⟩ := List.mem_filter.mp (List.argmax_mem hfound)
    obtain ⟨hkey, hunresolved⟩ := Bool.and_eq_true_iff.mp hkey
    rw [h.incidents.unique found hmem row hrow hunresolved hactive (of_decide_eq_true hkey)]

section observed

variable {row : IncidentRow} {last : IncidentEventRow τ}

/-- What is read of an incident whose last event is known. -/
theorem Sound.incident (h : Sound env s) (hrow : row ∈ s.incidents)
    (htip : (incidentLog τ).tip s.incidentEvents row.incidentId = some last) :
    incident s row.incidentId = some ⟨row, last.state, last.severity⟩ := by
  rw [Governance.incident, find?_of_nodup h.incidents.distinct hrow, htip]
  rfl

/-- A well-formed call under the key of an active incident is an observation of it. -/
theorem openIncidentBody_active (h : Sound env s) (ho : a.Reads env o) (hrow : row ∈ s.incidents)
    (hkey : row.dedupeKey = (o.row env a).dedupeKey) (hactive : isUnresolved s row = true) :
    openIncidentBody env s a = observeIncident env s row (o.eventArgs a) := by
  have hfound : activeIncident env s (o.row env a).dedupeKey = some row := hkey ▸ h.activeIncident hrow hactive
  simp only [openIncidentBody, ho.code, ho.scopeType, ho.scopeId, ho.severity, ho.account, ho.evidence, ho.current, ho.payload, ok_bind]
  rw [Opening.row] at hfound
  rw [hfound]
  rfl

/-- The event is appended if its severity is not lower and nothing clashes; it raises if its severity is lower. -/
theorem appendObserved_of_le (ho : a.Reads env o) (htip : (incidentLog τ).tip s.incidentEvents row.incidentId = some last)
    (htime : last.occurredAt.1 ≤ o.current.1) (hle : last.severity.rank ≤ o.severity.rank)
    (hfresh : ∀ r ∈ s.incidentEvents, r.clash (o.event env a last) = false) :
    appendIncidentEventConn env s row.incidentId (o.eventArgs a last.state) =
      .ok ({ s with incidentEvents := s.incidentEvents ++ [o.event env a last] }, o.event env a last) := by
  have hid : last.incidentId = row.incidentId := (Log.tip_mem htip).2
  rw [← hid] at htip ⊢
  have htype : requiredText env (.str "INCIDENT_OBSERVED") "event_type" = .ok incidentObserved := requiredText_self env incidentObserved _
  have hpayload := (jsonObject_normal env ho.payload).jsonObject env "payload"
  rw [appendIncidentEventConn, Opening.eventArgs]
  refine bind_eq_ok.mpr ⟨_, enumText_severity _ _, bind_eq_ok.mpr ⟨_, htype, bind_eq_ok.mpr ⟨_, ho.actor, bind_eq_ok.mpr ⟨_, hpayload, ?_⟩⟩⟩⟩
  rw [htip]
  refine bind_eq_ok.mpr ⟨(), require_eq_ok.mpr fun previous hprevious => ?_, bind_eq_ok.mpr ⟨(), require_eq_ok.mpr fun previous hprevious => ?_,
    bind_eq_ok.mpr ⟨_, insertRow_eq_ok.mpr ⟨hfresh, rfl⟩, rfl⟩⟩⟩
  · obtain rfl := Option.some.inj hprevious
    exact htime
  · obtain rfl := Option.some.inj hprevious
    exact hle

theorem appendObserved_of_lt (ho : a.Reads env o) (htip : (incidentLog τ).tip s.incidentEvents row.incidentId = some last)
    (htime : last.occurredAt.1 ≤ o.current.1) (hlt : o.severity.rank < last.severity.rank) :
    appendIncidentEventConn env s row.incidentId (o.eventArgs a last.state) = .error (.value "incident severity cannot be downgraded") := by
  have htype : requiredText env (.str "INCIDENT_OBSERVED") "event_type" = .ok incidentObserved := requiredText_self env incidentObserved _
  have hpayload := (jsonObject_normal env ho.payload).jsonObject env "payload"
  simp only [appendIncidentEventConn, Opening.eventArgs, enumText_severity, htype, ho.actor, hpayload, htip, ok_bind, require,
    Option.mem_def, Option.some.injEq, forall_eq', if_pos htime, if_neg (not_le.mpr hlt)]
  rfl

/-- The hypotheses under which an incident is observed again. -/
structure Opening.Observes (env : Env τ) (s : Store τ) (a : OpenArgs) (o : Opening) (row : IncidentRow) (last : IncidentEventRow τ) : Prop where
  reads : a.Reads env o
  stored : row ∈ s.incidents
  key : row.dedupeKey = (o.row env a).dedupeKey
  tip : (incidentLog τ).tip s.incidentEvents row.incidentId = some last
  active : last.state ≠ .resolved
  time : last.occurredAt.1 ≤ o.current.1

/-- The identifier drawn and the digest are not those of a stored event. -/
def Opening.Fresh (env : Env τ) (s : Store τ) (a : OpenArgs) (o : Opening) (last : IncidentEventRow τ) : Prop :=
  ∀ r ∈ s.incidentEvents, r.eventId ≠ a.eventId ∧ r.eventHash ≠ (o.event env a last).eventHash

theorem event_says (env : Env τ) (o : Opening) (a : OpenArgs) (last : IncidentEventRow τ) :
    (o.event env a last).eventType = "INCIDENT_OBSERVED" ∧ (o.event env a last).evidenceHash = o.evidence.1 ∧
      (o.event env a last).payloadJson = env.dumps (.obj o.payload) ∧ (o.event env a last).state = last.state ∧
      (o.event env a last).severity = o.severity ∧ (o.event env a last).occurredAt = o.current := ⟨rfl, rfl, rfl, rfl, rfl, rfl⟩

/-- No stored event has the number of the next one. -/
theorem clash_event (htip : (incidentLog τ).tip s.incidentEvents row.incidentId = some last)
    (hfresh : o.Fresh env s a last) : ∀ r ∈ s.incidentEvents, r.clash (o.event env a last) = false := by
  intro r hr
  have hsequence : r.incidentId = last.incidentId → r.sequence ≤ last.sequence := fun hid => by
    have hmem : r ∈ (incidentLog τ).rowsOf s.incidentEvents row.incidentId :=
      Log.mem_rowsOf.mpr ⟨hr, hid.trans (Log.tip_mem htip).2⟩
    exact List.le_of_mem_argmax hmem htip
  have hne : ¬(r.incidentId = last.incidentId ∧ r.sequence = last.sequence + 1) := fun heq => by
    have hle := hsequence heq.1
    omega
  simp only [IncidentEventRow.clash, Bool.or_eq_false_iff, Bool.and_eq_false_imp, decide_eq_false_iff_not, decide_eq_true_eq]
  exact ⟨⟨(hfresh r hr).1, (hfresh r hr).2⟩, fun hid heq => hne ⟨hid, heq⟩⟩

/-- **An observation that is not lower** is appended, and raises the severity to its own. -/
theorem openIncident_of_le (h : Sound env s) (ho : Opening.Observes env s a o row last) (hle : last.severity.rank ≤ o.severity.rank)
    (hfresh : o.Fresh env s a last) :
    openIncident env s a =
      ({ s with incidentEvents := s.incidentEvents ++ [o.event env a last] }, .ok (⟨row, last.state, o.severity⟩, false)) := by
  have hid : last.incidentId = row.incidentId := (Log.tip_mem ho.tip).2
  have hactive : isUnresolved s row = true := isUnresolved_iff.mpr ⟨last, ho.tip, ho.active⟩
  have happend := appendObserved_of_le ho.reads ho.tip ho.time hle (clash_event ho.tip hfresh)
  -- the store afterwards is read again
  have hlinked : (incidentLog τ).Linked "" (s.incidentEvents ++ [o.event env a last]) := by
    refine h.incidents.linked.append ?_ ?_
    · rw [show (incidentLog τ).entity (o.event env a last) = row.incidentId from hid, ho.tip]
      rfl
    · rw [show (incidentLog τ).entity (o.event env a last) = row.incidentId from hid, ho.tip]
      rfl
  have hafter : incident { s with incidentEvents := s.incidentEvents ++ [o.event env a last] } row.incidentId =
      some ⟨row, last.state, o.severity⟩ := by
    rw [Governance.incident, hlinked.tip_append, if_pos (show (incidentLog τ).entity (o.event env a last) = row.incidentId from hid),
      find?_of_nodup h.incidents.distinct ho.stored]
    rfl
  have hbody : openIncidentBody env s a =
      .ok ({ s with incidentEvents := s.incidentEvents ++ [o.event env a last] }, ⟨row, last.state, o.severity⟩, false) := by
    rw [openIncidentBody_active h ho.reads ho.stored ho.key hactive, observeIncident, readIncident, h.incident ho.stored ho.tip]
    refine bind_eq_ok.mpr ⟨_, rfl, bind_eq_ok.mpr ⟨_, happend, bind_eq_ok.mpr ⟨_, ?_, rfl⟩⟩⟩
    rw [readIncident, hafter]
    rfl
  rw [openIncident, hbody]
  rfl

/-- **A lower observation** raises, and its event is not stored. -/
theorem openIncident_of_lt (h : Sound env s) (ho : Opening.Observes env s a o row last) (hlt : o.severity.rank < last.severity.rank) :
    openIncident env s a = (s, .error (.value "incident severity cannot be downgraded")) := by
  have hactive : isUnresolved s row = true := isUnresolved_iff.mpr ⟨last, ho.tip, ho.active⟩
  have happend := appendObserved_of_lt ho.reads ho.tip ho.time hlt
  have hbody : openIncidentBody env s a = .error (.value "incident severity cannot be downgraded") := by
    rw [openIncidentBody_active h ho.reads ho.stored ho.key hactive, observeIncident, readIncident, h.incident ho.stored ho.tip]
    simp only [orRaise, ok_bind, happend, error_bind]
  rw [openIncident, hbody]
  rfl

/-- **Observing an active incident.**  An observation that is not lower than the incident succeeds, opens nothing and appends the one
event; the severity is then the greater of the two.  A lower one raises and changes nothing. -/
theorem observation_kept (h : Reachable env s) (ho : Opening.Observes env s a o row last) :
    (last.severity.rank ≤ o.severity.rank → o.Fresh env s a last →
      (openIncident env s a).2 = .ok (⟨row, last.state, o.severity⟩, false) ∧
      (openIncident env s a).1.incidents = s.incidents ∧
      (openIncident env s a).1.incidentEvents = s.incidentEvents ++ [o.event env a last] ∧
      (o.event env a last).eventType = "INCIDENT_OBSERVED" ∧ (o.event env a last).evidenceHash = o.evidence.1 ∧
      (o.event env a last).payloadJson = env.dumps (.obj o.payload) ∧
      o.severity.rank = max last.severity.rank o.severity.rank) ∧
    (o.severity.rank < last.severity.rank →
      openIncident env s a = (s, .error (.value "incident severity cannot be downgraded"))) := by
  obtain ⟨acts, hrun⟩ := h
  have hsound : Sound env s := sound_of_run hrun
  constructor
  · intro hle hfresh
    obtain ⟨htype, hevidence, hpayload, -⟩ := event_says env o a last
    rw [openIncident_of_le hsound ho hle hfresh]
    exact ⟨rfl, rfl, rfl, htype, hevidence, hpayload, (max_eq_right hle).symm⟩
  · exact openIncident_of_lt hsound ho

end observed

/-! ## An escalated incident -/

/-- A call about the deployment `A`. -/
def sampleObservation (severity eventId : String) (time : ℤ) : OpenArgs where
  code := "STALE"
  scopeType := "DEPLOYMENT"
  scopeId := "A"
  severity := severity
  actor := "watchdog"
  deploymentId := "A"
  sessionId := ""
  accountFingerprint := ""
  evidenceHash := ""
  payload := []
  occurredAt := .datetime ⟨time, true⟩
  incidentId := ""
  newId := "incident-A"
  eventId := eventId

/-- The store after a critical incident was opened. -/
def criticalStore : Store Json := (openIncident Env.sample {} (sampleObservation "CRITICAL" "event-0" 0)).1

theorem reachable_criticalStore : Reachable Env.sample criticalStore :=
  ⟨[.openIncident (sampleObservation "CRITICAL" "event-0" 0)], .single trivial rfl⟩

/-- A later call of a severity. -/
def laterCall (severity : Severity) : OpenArgs := sampleObservation severity.text "event-1" 1000000

theorem stale_isRequiredText : IsRequiredText "STALE" := by decide

theorem deploymentA_isRequiredText : IsRequiredText "A" := by decide

theorem watchdog_isRequiredText : IsRequiredText "watchdog" := by decide

theorem second_inRange : InRange 1000000 := by decide

theorem empty_isOptionalSha256 : "" = "" ∨ isHash "" = true := .inl rfl

/-- The arguments of a later call, as they are read. -/
def laterOpening (severity : Severity) : Opening where
  code := ⟨"STALE", stale_isRequiredText⟩
  scopeType := .deployment
  scopeId := ⟨"A", deploymentA_isRequiredText⟩
  severity := severity
  account := ⟨"", empty_isOptionalSha256⟩
  evidence := ⟨"", empty_isOptionalSha256⟩
  current := ⟨1000000, second_inRange⟩
  payload := []
  actor := ⟨"watchdog", watchdog_isRequiredText⟩

theorem enumText_deployment : enumText incidentScopeTypes "DEPLOYMENT" "incident scope" = .ok .deployment := by decide

theorem utcIso_later : utcIso Env.sample (.datetime ⟨1000000, true⟩) "occurred_at" = .ok ⟨1000000, by decide⟩ := by decide

theorem reads_laterOpening (severity : Severity) :
    (laterCall severity).Reads Env.sample (laterOpening severity) where
  code := requiredText_self _ (laterOpening severity).code _
  scopeType := enumText_deployment
  scopeId := requiredText_self _ (laterOpening severity).scopeId _
  severity := enumText_severity severity _
  account := optionalSha256_self _ (laterOpening severity).account _
  evidence := optionalSha256_self _ (laterOpening severity).evidence _
  current := utcIso_later
  payload := rfl
  actor := requiredText_self _ (laterOpening severity).actor _

/-- The critical incident is there, and its last event is earlier than the later calls. -/
theorem criticalStore_active : ∃ row, criticalStore.incidents.head? = some row ∧
    row.dedupeKey = ((laterOpening .critical).row Env.sample (laterCall .critical)).dedupeKey ∧
    ∃ last, (incidentLog Json).tip criticalStore.incidentEvents row.incidentId = some last ∧ last.state ≠ .resolved ∧
      last.occurredAt.1 ≤ 1000000 ∧ last.severity = .critical ∧
      ∀ r ∈ criticalStore.incidentEvents, r.eventId ≠ (laterCall .critical).eventId ∧
        r.eventHash ≠ ((laterOpening .critical).event Env.sample (laterCall .critical) last).eventHash := by
  decide +kernel

theorem observes_later (severity : Severity) : ∃ row last,
    Opening.Observes Env.sample criticalStore (laterCall severity) (laterOpening severity) row last ∧ last.severity = .critical ∧
      (laterOpening .critical).Fresh Env.sample criticalStore (laterCall .critical) last := by
  obtain ⟨row, hrow, hkey, last, htip, hactive, htime, hseverity, hfresh⟩ := criticalStore_active
  exact ⟨row, last, ⟨reads_laterOpening severity, List.mem_of_head? hrow, hkey, htip, hactive, htime⟩, hseverity, hfresh⟩

/-- A warning about an incident that is critical is lost. -/
theorem warning_is_lost : ∃ row last, Reachable Env.sample criticalStore ∧
    Opening.Observes Env.sample criticalStore (laterCall .warning) (laterOpening .warning) row last ∧
    openIncident Env.sample criticalStore (laterCall .warning) =
      (criticalStore, .error (.value "incident severity cannot be downgraded")) := by
  obtain ⟨row, last, hobserves, hseverity, -⟩ := observes_later .warning
  obtain ⟨acts, hrun⟩ := reachable_criticalStore
  refine ⟨row, last, reachable_criticalStore, hobserves, openIncident_of_lt (sound_of_run hrun) hobserves ?_⟩
  rw [hseverity]
  decide

/-- A critical one is appended. -/
theorem critical_is_kept : ∃ row, ∃ last : IncidentEventRow Json,
    openIncident Env.sample criticalStore (laterCall .warning) =
      (criticalStore, .error (.value "incident severity cannot be downgraded")) ∧
    (openIncident Env.sample criticalStore (laterCall .critical)).2 = .ok (⟨row, last.state, .critical⟩, false) := by
  obtain ⟨row, last, hobserves, hseverity, hfresh⟩ := observes_later .critical
  obtain ⟨row', last', hobserves', hseverity', -⟩ := observes_later .warning
  refine ⟨row, last, (observation_kept reachable_criticalStore hobserves').2 ?_,
    ((observation_kept reachable_criticalStore hobserves).1 ?_ hfresh).1⟩
  · rw [hseverity']
    decide
  · rw [hseverity]
    decide

end LiveTrader.Governance
