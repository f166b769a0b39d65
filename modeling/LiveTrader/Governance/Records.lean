/-
# `Governance.Records` — manifests and preflight snapshots

The two frozen dataclasses of `operational_governance` whose whole content is stored as
JSON: `DeploymentManifest` and `PreflightSnapshot`.  A value of either type has passed its
`__post_init__`, so the checks are in the types of the fields.  `make` is the constructor
with its checks, `toDict` and `fromDict` are the stored form.

`DeploymentManifest.fromDict_stored` and `PreflightSnapshot.fromDict_stored` are the round
trips: what is read back from the sorted JSON text is the record that was written.
-/
import LiveTrader.Governance.Values

namespace LiveTrader.Governance

open Lib Lib.Py

/-! ## Enumerations -/

inductive CheckStatus where
  | pass | warn | fail
  deriving DecidableEq

def CheckStatus.text : CheckStatus → String
  | .pass => "PASS"
  | .warn => "WARN"
  | .fail => "FAIL"

/-- The accepted texts of a check's status, with the ones that stand for another. -/
def checkStatuses : List (String × CheckStatus) :=
  [("PASS", .pass), ("WARN", .warn), ("FAIL", .fail), ("BLOCK", .fail), ("BLOCKED", .fail),
    ("WARNING", .warn)]

inductive PreflightStatus where
  | pass | reviewRequired | blocked
  deriving DecidableEq

def PreflightStatus.text : PreflightStatus → String
  | .pass => "PASS"
  | .reviewRequired => "REVIEW_REQUIRED"
  | .blocked => "BLOCKED"

def preflightStatuses : List (String × PreflightStatus) :=
  [("PASS", .pass), ("REVIEW_REQUIRED", .reviewRequired), ("BLOCKED", .blocked)]

variable {τ : Type} (env : Env τ)

theorem enumText_preflightStatus (s : PreflightStatus) (label : String) :
    enumText preflightStatuses s.text label = .ok s := by
  cases s <;> rfl

/-! ## Preflight checks -/

structure PreflightCheck where
  checkId : RequiredText
  status : CheckStatus
  detail : { s : String // strip s = s }
  evidenceHash : OptionalSha256
  deriving DecidableEq

namespace PreflightCheck

def toDict (c : PreflightCheck) : Fields :=
  [("checkId", .str c.checkId.1), ("status", .str c.status.text), ("detail", .str c.detail.1),
    ("evidenceHash", .str c.evidenceHash.1)]

/-- The identifier of the check at an index; an earlier check must not have it. -/
def readId (item : Fields) (label : String) (seen : List RequiredText) : Result RequiredText := do
  let checkId ← requiredText env ((item.at "checkId").orElse (item.at "check_id")) (label ++ ".checkId")
  require (checkId ∉ seen) (.value ("duplicate preflight check ID: " ++ checkId.1))
  pure checkId

/-- One round of the loop of `_normalized_preflight_checks`. -/
def read (raw : Fields) (index : ℕ) (seen : List RequiredText) : Result PreflightCheck := do
  let label := "checks[" ++ toString index ++ "]"
  let item ← jsonObject env raw label
  let checkId ← readId env item label seen
  let status := upper (strip (env.text (item.at "status")))
  let status ← orRaise (.value ("unsupported preflight check status: " ++ orElse status "-"))
    (checkStatuses.lookup status)
  let evidenceHash ← optionalSha256 env ((item.at "evidenceHash").orElse (item.at "evidence_hash"))
    (label ++ ".evidenceHash")
  pure ⟨checkId, status, ⟨strip (env.text (item.at "detail")), strip_strip _⟩, evidenceHash⟩

theorem toDict_clean (c : PreflightCheck) : Clean env (.obj c.toDict) := by
  refine ⟨?_, trivial, ?_, trivial, ?_, trivial, ?_, trivial, trivial⟩ <;> rfl

theorem at_toDict (c : PreflightCheck) : c.toDict.at "checkId" = .str c.checkId.1 ∧
    c.toDict.at "status" = .str c.status.text ∧ c.toDict.at "detail" = .str c.detail.1 ∧
    c.toDict.at "evidenceHash" = .str c.evidenceHash.1 ∧ c.toDict.at "evidence_hash" = .null :=
  ⟨rfl, rfl, rfl, rfl, rfl⟩

/-- A dictionary with the entries of a check. -/
structure Writes (c : PreflightCheck) (raw : Fields) : Prop where
  clean : Clean env (.obj raw)
  sorted : raw.sorted = c.toDict.sorted

theorem writes_toDict (c : PreflightCheck) : Writes env c c.toDict := ⟨toDict_clean env c, rfl⟩

theorem writes_sorted (c : PreflightCheck) : Writes env c c.toDict.sorted := by
  refine ⟨?_, c.toDict.sorted_sorted⟩
  rw [← Json.sortKeys_obj]
  exact (toDict_clean env c).sortKeys

theorem read_written {c : PreflightCheck} {raw : Fields} (hraw : Writes env c raw) (index : ℕ)
    {seen : List RequiredText} (h : c.checkId ∉ seen) : read env raw index seen = .ok c := by
  obtain ⟨hid, hstatus, hdetail, hhash, hhash'⟩ := at_toDict c
  have hname : checkStatuses.lookup (upper (strip c.status.text)) = some c.status := by
    cases c.status <;> rfl
  have hchecked : (Json.str c.checkId.1).orElse (c.toDict.sorted.at "check_id") = .str c.checkId.1 := by
    simp [Json.orElse, Json.truthy, c.checkId.2.2.1]
  simp only [read, readId, (jsonObject_eq_ok env).mpr ⟨hraw.clean, hraw.sorted⟩, Fields.at_sorted,
    hid, hstatus, hdetail, hhash, hhash', Json.sortKeys, ok_bind, text_str, hname, orRaise,
    optionalSha256_orElse, c.detail.2] at hchecked ⊢
  simp only [hchecked, requiredText_self, ok_bind, require_true h]
  rfl

end PreflightCheck

/-- The loop of `_normalized_preflight_checks`, from an index on. -/
def readChecks : List Fields → ℕ → List RequiredText → Result (List PreflightCheck)
  | [], _, _ => .ok []
  | raw :: checks, index, seen => do
    let check ← PreflightCheck.read env raw index seen
    let rest ← readChecks checks (index + 1) (check.checkId :: seen)
    pure (check :: rest)

/-- The order of two checks: their identifiers. -/
def checkLE (c c' : PreflightCheck) : Prop := c.checkId.1.toList ≤ c'.checkId.1.toList

instance : DecidableRel checkLE := fun c c' =>
  inferInstanceAs (Decidable (c.checkId.1.toList ≤ c'.checkId.1.toList))

instance : Std.Total checkLE := ⟨fun c c' => le_total c.checkId.1.toList c'.checkId.1.toList⟩

instance : IsTrans PreflightCheck checkLE := ⟨fun _ _ _ h h' => le_trans h h'⟩

/-- The checks of a snapshot: one at least, no identifier twice, sorted. -/
structure Checks where
  list : List PreflightCheck
  nonempty : list ≠ []
  distinct : (list.map (·.checkId)).Nodup
  sorted : list.Pairwise checkLE

theorem PreflightCheck.read_new {raw : Fields} {index : ℕ} {seen : List RequiredText}
    {c : PreflightCheck} (h : read env raw index seen = .ok c) : c.checkId ∉ seen := by
  simp only [read, readId, bind_eq_ok, require_eq_ok, pure_eq_ok] at h
  obtain ⟨_, _, _, ⟨_, _, _, hnew, rfl⟩, _, _, _, _, rfl⟩ := h
  exact hnew

theorem readChecks_distinct : ∀ {raws : List Fields} {index : ℕ} {seen : List RequiredText}
    {checks : List PreflightCheck}, readChecks env raws index seen = .ok checks →
    (checks.map (·.checkId)).Nodup ∧ ∀ c ∈ checks, c.checkId ∉ seen
  | [], _, _, _, h => by
      cases h
      exact ⟨.nil, fun _ h => nomatch h⟩
  | raw :: raws, index, seen, checks, h => by
      simp only [readChecks, bind_eq_ok, pure_eq_ok] at h
      obtain ⟨check, hcheck, rest, hrest, rfl⟩ := h
      obtain ⟨hnodup, hnew⟩ := readChecks_distinct hrest
      refine ⟨?_, ?_⟩
      · rw [List.map_cons, List.nodup_cons]
        refine ⟨?_, hnodup⟩
        intro hmem
        obtain ⟨c, hc, heq⟩ := List.mem_map.mp hmem
        exact hnew c hc (heq ▸ List.mem_cons_self)
      · intro c hc
        rcases List.mem_cons.mp hc with rfl | hc
        · exact PreflightCheck.read_new env hcheck
        · exact fun hseen => hnew c hc (List.mem_cons_of_mem _ hseen)

/-- `_normalized_preflight_checks`. -/
def normalizedPreflightChecks (raws : List Fields) : Result Checks :=
  match h : readChecks env raws 0 [] with
  | .error e => .error e
  | .ok checks =>
    if hempty : checks = [] then .error (.value "at least one preflight check is required")
    else .ok {
      list := checks.insertionSort checkLE
      nonempty := fun hnil => hempty ((List.perm_insertionSort checkLE checks).symm.trans
        (hnil ▸ List.Perm.refl _)).eq_nil
      distinct := ((List.perm_insertionSort checkLE checks).map _).nodup_iff.mpr
        (readChecks_distinct env h).1
      sorted := List.pairwise_insertionSort checkLE checks }

/-- `_preflight_status`. -/
def preflightStatus (checks : Checks) : PreflightStatus :=
  if checks.list.any (·.status = .fail) then .blocked
  else if checks.list.any (·.status = .warn) then .reviewRequired
  else .pass

theorem readChecks_written {write : PreflightCheck → Fields}
    (hwrite : ∀ c, PreflightCheck.Writes env c (write c)) :
    ∀ {checks : List PreflightCheck} {index : ℕ} {seen : List RequiredText},
    (checks.map (·.checkId)).Nodup → (∀ c ∈ checks, c.checkId ∉ seen) →
    readChecks env (checks.map write) index seen = .ok checks
  | [], _, _, _, _ => rfl
  | c :: checks, index, seen, hnodup, hnew => by
      rw [List.map_cons, List.nodup_cons] at hnodup
      have hrest : readChecks env (checks.map write) (index + 1) (c.checkId :: seen) = .ok checks := by
        refine readChecks_written hwrite hnodup.2 fun c' hc' hmem => ?_
        rcases List.mem_cons.mp hmem with heq | hseen
        · exact hnodup.1 (heq ▸ List.mem_map_of_mem hc')
        · exact hnew c' (List.mem_cons_of_mem _ hc') hseen
      simp only [List.map_cons, readChecks,
        PreflightCheck.read_written env (hwrite c) index (hnew c List.mem_cons_self), ok_bind, hrest]
      rfl

/-- Written checks are read back as they were. -/
theorem normalizedPreflightChecks_written {write : PreflightCheck → Fields}
    (hwrite : ∀ c, PreflightCheck.Writes env c (write c)) (checks : Checks) :
    normalizedPreflightChecks env (checks.list.map write) = .ok checks := by
  obtain ⟨list, hempty, hdistinct, hsorted⟩ := checks
  have hread : readChecks env (list.map write) 0 [] = .ok list :=
    readChecks_written env hwrite hdistinct (fun _ _ => List.not_mem_nil)
  unfold normalizedPreflightChecks
  split
  · next h => rw [hread] at h; cases h
  · next checks h =>
    rw [hread] at h
    cases h
    rw [dif_neg hempty]
    simp only [hsorted.insertionSort_eq]

/-! ## Manifests -/

/-- The previous hash of a manifest: a first revision has none, a later one has one. -/
abbrev PreviousHash (revision : Revision) := { h : OptionalSha256 // revision.1 = 1 ↔ h.1 = "" }

abbrev Ttl := { n : ℤ // 1 ≤ n ∧ n ≤ 3600 }

structure DeploymentManifest where
  deploymentId : RequiredText
  revision : Revision
  previousManifestHash : PreviousHash revision
  strategyArtifactHash : Sha256
  portfolioArtifactHash : OptionalSha256
  accountFingerprint : Sha256
  brokerRoute : RequiredText
  runtimeVersion : RequiredText
  buildHash : Sha256
  executionAdapter : RequiredText
  executionAdapterVersion : RequiredText
  riskPolicyRevision : Revision
  riskPolicyHash : Sha256
  configRevision : Revision
  configHash : Sha256
  preflightTtlSeconds : Ttl
  createdAt : Instant
  metadata : Fields

/-- `DEPLOYMENT_MANIFEST_SCHEMA_VERSION`. -/
def deploymentManifestSchemaVersion : String := "live-deployment-manifest-v1"

/-- The arguments of the constructor. -/
structure ManifestInput where
  deploymentId : String
  revision : Json
  previousManifestHash : String
  strategyArtifactHash : String
  portfolioArtifactHash : String
  accountFingerprint : String
  brokerRoute : String
  runtimeVersion : String
  buildHash : String
  executionAdapter : String
  executionAdapterVersion : String
  riskPolicyRevision : Json
  riskPolicyHash : String
  configRevision : Json
  configHash : String
  preflightTtlSeconds : Json
  createdAt : When
  metadata : Fields
  schemaVersion : String

namespace DeploymentManifest

/-- The check on the revision and the previous hash. -/
def readPrevious (revision : Revision) (previous : OptionalSha256) : Result (PreviousHash revision) :=
  if h : revision.1 = 1 ↔ previous.1 = "" then .ok ⟨previous, h⟩
  else if revision.1 = 1 then
    .error (.value "the first deployment revision cannot have a previous hash")
  else .error (.value "a later deployment revision requires a previous hash")

/-- The check on `preflight_ttl_seconds`. -/
def readTtl (value : Json) : Result Ttl := do
  let ttl ← orRaise (.value "preflight_ttl_seconds must be an integer") (env.int? value)
  if h : 1 ≤ ttl ∧ ttl ≤ 3600 then pure ⟨ttl, h⟩
  else .error (.value "preflight_ttl_seconds must be between 1 and 3600")

/-- `DeploymentManifest(…)` with `__post_init__`. -/
def make (raw : ManifestInput) : Result DeploymentManifest := do
  let deploymentId ← requiredText env (.str raw.deploymentId) "deployment_id"
  let revision ← positiveRevision env raw.revision "revision"
  let previous ← optionalSha256 env (.str raw.previousManifestHash) "previous_manifest_hash"
  let previous ← readPrevious revision previous
  let strategyArtifactHash ← requiredSha256 env (.str raw.strategyArtifactHash) "strategy_artifact_hash"
  let accountFingerprint ← requiredSha256 env (.str raw.accountFingerprint) "account_fingerprint"
  let buildHash ← requiredSha256 env (.str raw.buildHash) "build_hash"
  let riskPolicyHash ← requiredSha256 env (.str raw.riskPolicyHash) "risk_policy_hash"
  let configHash ← requiredSha256 env (.str raw.configHash) "config_hash"
  let portfolioArtifactHash ← optionalSha256 env (.str raw.portfolioArtifactHash) "portfolio_artifact_hash"
  let brokerRoute ← requiredText env (.str raw.brokerRoute) "broker_route"
  let runtimeVersion ← requiredText env (.str raw.runtimeVersion) "runtime_version"
  let executionAdapter ← requiredText env (.str raw.executionAdapter) "execution_adapter"
  let executionAdapterVersion ←
    requiredText env (.str raw.executionAdapterVersion) "execution_adapter_version"
  let riskPolicyRevision ← positiveRevision env raw.riskPolicyRevision "risk_policy_revision"
  let configRevision ← positiveRevision env raw.configRevision "config_revision"
  let preflightTtlSeconds ← readTtl env raw.preflightTtlSeconds
  let createdAt ← utcIso env raw.createdAt "created_at"
  let metadata ← jsonObject env raw.metadata "metadata"
  require (raw.schemaVersion = deploymentManifestSchemaVersion)
    (.value "unsupported deployment manifest schema")
  pure {
    deploymentId, revision, strategyArtifactHash, portfolioArtifactHash, accountFingerprint,
    brokerRoute, runtimeVersion, buildHash, executionAdapter, executionAdapterVersion,
    riskPolicyRevision, riskPolicyHash, configRevision, configHash, preflightTtlSeconds, createdAt,
    metadata
    previousManifestHash := previous }

/-- `to_dict(include_hash=False)`. -/
def toDict (m : DeploymentManifest) : Fields :=
  [("schemaVersion", .str deploymentManifestSchemaVersion), ("deploymentId", .str m.deploymentId.1),
    ("revision", .int m.revision.1), ("previousManifestHash", .str m.previousManifestHash.1.1),
    ("strategyArtifactHash", .str m.strategyArtifactHash.1),
    ("portfolioArtifactHash", .str m.portfolioArtifactHash.1),
    ("accountFingerprint", .str m.accountFingerprint.1), ("brokerRoute", .str m.brokerRoute.1),
    ("runtimeVersion", .str m.runtimeVersion.1), ("buildHash", .str m.buildHash.1),
    ("executionAdapter", .str m.executionAdapter.1),
    ("executionAdapterVersion", .str m.executionAdapterVersion.1),
    ("riskPolicyRevision", .int m.riskPolicyRevision.1), ("riskPolicyHash", .str m.riskPolicyHash.1),
    ("configRevision", .int m.configRevision.1), ("configHash", .str m.configHash.1),
    ("preflightTtlSeconds", .int m.preflightTtlSeconds.1),
    ("createdAt", .str (env.isoformat m.createdAt)), ("metadata", .obj m.metadata)]

/-- `manifest_hash`. -/
def manifestHash (m : DeploymentManifest) : String := stableSha256 env (.obj (m.toDict env))

/-- `to_dict()`. -/
def toDictWithHash (m : DeploymentManifest) : Fields :=
  m.toDict env ++ [("manifestHash", .str (m.manifestHash env))]

/-- The arguments `from_dict` takes from a dictionary. -/
def input (payload : Fields) : ManifestInput where
  deploymentId := env.text (payload.at "deploymentId")
  revision := (payload.lookup "revision").getD (.int 0)
  previousManifestHash := env.text (payload.at "previousManifestHash")
  strategyArtifactHash := env.text (payload.at "strategyArtifactHash")
  portfolioArtifactHash := env.text (payload.at "portfolioArtifactHash")
  accountFingerprint := env.text (payload.at "accountFingerprint")
  brokerRoute := env.text (payload.at "brokerRoute")
  runtimeVersion := env.text (payload.at "runtimeVersion")
  buildHash := env.text (payload.at "buildHash")
  executionAdapter := env.text (payload.at "executionAdapter")
  executionAdapterVersion := env.text (payload.at "executionAdapterVersion")
  riskPolicyRevision := (payload.lookup "riskPolicyRevision").getD (.int 0)
  riskPolicyHash := env.text (payload.at "riskPolicyHash")
  configRevision := (payload.lookup "configRevision").getD (.int 0)
  configHash := env.text (payload.at "configHash")
  preflightTtlSeconds := (payload.lookup "preflightTtlSeconds").getD (.int 0)
  createdAt := .text (env.text (payload.at "createdAt"))
  metadata := ((payload.at "metadata").fields?).getD []
  schemaVersion := env.text (payload.at "schemaVersion")

/-- `from_dict`. -/
def fromDict (payload : Fields) : Result DeploymentManifest := do
  let manifest ← make env (input env payload)
  let declaredHash := lower (strip (env.text (payload.at "manifestHash")))
  require (declaredHash = "" ∨ declaredHash = manifest.manifestHash env)
    (.value "deployment manifest hash mismatch")
  pure manifest

/-! ### What is stored is read back -/

/-- The arguments read from a stored manifest. -/
def storedInput (m : DeploymentManifest) : ManifestInput where
  deploymentId := m.deploymentId.1
  revision := .int m.revision.1
  previousManifestHash := m.previousManifestHash.1.1
  strategyArtifactHash := m.strategyArtifactHash.1
  portfolioArtifactHash := m.portfolioArtifactHash.1
  accountFingerprint := m.accountFingerprint.1
  brokerRoute := m.brokerRoute.1
  runtimeVersion := m.runtimeVersion.1
  buildHash := m.buildHash.1
  executionAdapter := m.executionAdapter.1
  executionAdapterVersion := m.executionAdapterVersion.1
  riskPolicyRevision := .int m.riskPolicyRevision.1
  riskPolicyHash := m.riskPolicyHash.1
  configRevision := .int m.configRevision.1
  configHash := m.configHash.1
  preflightTtlSeconds := .int m.preflightTtlSeconds.1
  createdAt := .text (env.isoformat m.createdAt)
  metadata := m.metadata
  schemaVersion := deploymentManifestSchemaVersion

theorem make_storedInput {m : DeploymentManifest} (h : IsNormal env m.metadata) :
    make env (m.storedInput env) = .ok m := by
  have hprevious : readPrevious m.revision m.previousManifestHash.1 = .ok m.previousManifestHash :=
    dif_pos m.previousManifestHash.2
  have httl : readTtl env (.int m.preflightTtlSeconds.1) = .ok m.preflightTtlSeconds := by
    simp only [readTtl, Env.int?, orRaise, ok_bind]
    rw [dif_pos m.preflightTtlSeconds.2]
    rfl
  simp only [make, storedInput, requiredText_self, positiveRevision_self, optionalSha256_self,
    requiredSha256_self, utcIso_isoformat, hprevious, httl, h.jsonObject, require_true, ok_bind]
  rfl

theorem input_stored {m : DeploymentManifest} (h : IsNormal env m.metadata) :
    input env (m.toDictWithHash env).sorted = m.storedInput env := by
  simp [input, storedInput, toDictWithHash, toDict, Fields.at, List.lookup_cons, Json.fields?, h.sorted]

/-- **Round trip.**  A stored manifest is read back as it was written. -/
theorem fromDict_stored {m : DeploymentManifest} (h : IsNormal env m.metadata) :
    fromDict env (m.toDictWithHash env).sorted = .ok m := by
  have hhash : isHash (m.manifestHash env) = true := env.sha256_isHash _
  have hdeclared : (m.toDictWithHash env).sorted.at "manifestHash" = .str (m.manifestHash env) := by
    simp [toDictWithHash, toDict, Fields.at, List.lookup_cons]
  rw [fromDict, input_stored env h, make_storedInput env h, hdeclared]
  simp only [ok_bind, text_str, isHash_strip hhash, isHash_lower hhash, or_true, require_true]
  rfl

end DeploymentManifest

/-! ## Preflight snapshots -/

structure PreflightSnapshot where
  snapshotId : RequiredText
  deploymentId : RequiredText
  deploymentRevision : Revision
  deploymentManifestHash : Sha256
  accountFingerprint : Sha256
  brokerRoute : RequiredText
  configRevision : Revision
  configHash : Sha256
  reconciliationHash : Sha256
  brokerSnapshotHash : Sha256
  checks : Checks
  issuedAt : Instant
  expiresAt : Instant
  expires : issuedAt.1 < expiresAt.1
  metadata : Fields

/-- `PREFLIGHT_SNAPSHOT_SCHEMA_VERSION`. -/
def preflightSnapshotSchemaVersion : String := "live-preflight-snapshot-v1"

/-- The arguments of the constructor. -/
structure SnapshotInput where
  snapshotId : String
  deploymentId : String
  deploymentRevision : Json
  deploymentManifestHash : String
  accountFingerprint : String
  brokerRoute : String
  configRevision : Json
  configHash : String
  reconciliationHash : String
  brokerSnapshotHash : String
  status : String
  checks : List Fields
  issuedAt : When
  expiresAt : When
  metadata : Fields
  schemaVersion : String

namespace PreflightSnapshot

/-- The status of a snapshot is that of its checks; no other is accepted. -/
def status (s : PreflightSnapshot) : PreflightStatus := preflightStatus s.checks

/-- `PreflightSnapshot(…)` with `__post_init__`. -/
def make (raw : SnapshotInput) : Result PreflightSnapshot := do
  let snapshotId ← requiredText env (.str raw.snapshotId) "snapshot_id"
  let deploymentId ← requiredText env (.str raw.deploymentId) "deployment_id"
  let brokerRoute ← requiredText env (.str raw.brokerRoute) "broker_route"
  let deploymentRevision ← positiveRevision env raw.deploymentRevision "deployment_revision"
  let configRevision ← positiveRevision env raw.configRevision "config_revision"
  let deploymentManifestHash ←
    requiredSha256 env (.str raw.deploymentManifestHash) "deployment_manifest_hash"
  let accountFingerprint ← requiredSha256 env (.str raw.accountFingerprint) "account_fingerprint"
  let configHash ← requiredSha256 env (.str raw.configHash) "config_hash"
  let reconciliationHash ← requiredSha256 env (.str raw.reconciliationHash) "reconciliation_hash"
  let brokerSnapshotHash ← requiredSha256 env (.str raw.brokerSnapshotHash) "broker_snapshot_hash"
  let checks ← normalizedPreflightChecks env raw.checks
  let status ← enumText preflightStatuses raw.status "preflight status"
  require (status = preflightStatus checks) (.value "preflight status does not match check results")
  let issuedAt ← utcIso env raw.issuedAt "issued_at"
  let expiresAt ← utcIso env raw.expiresAt "expires_at"
  if expires : issuedAt.1 < expiresAt.1 then do
    let metadata ← jsonObject env raw.metadata "metadata"
    require (raw.schemaVersion = preflightSnapshotSchemaVersion)
      (.value "unsupported preflight snapshot schema")
    pure {
      snapshotId, deploymentId, deploymentRevision, deploymentManifestHash, accountFingerprint,
      brokerRoute, configRevision, configHash, reconciliationHash, brokerSnapshotHash, checks,
      issuedAt, expiresAt, expires, metadata }
  else .error (.value "preflight expiry must be after issue time")

/-- `is_expired`, of an instant that is already read. -/
def isExpired (s : PreflightSnapshot) (now : Instant) : Bool := s.expiresAt.1 ≤ now.1

/-- `to_dict(include_hash=False)`. -/
def toDict (s : PreflightSnapshot) : Fields :=
  [("schemaVersion", .str preflightSnapshotSchemaVersion), ("snapshotId", .str s.snapshotId.1),
    ("deploymentId", .str s.deploymentId.1), ("deploymentRevision", .int s.deploymentRevision.1),
    ("deploymentManifestHash", .str s.deploymentManifestHash.1),
    ("accountFingerprint", .str s.accountFingerprint.1), ("brokerRoute", .str s.brokerRoute.1),
    ("configRevision", .int s.configRevision.1), ("configHash", .str s.configHash.1),
    ("reconciliationHash", .str s.reconciliationHash.1),
    ("brokerSnapshotHash", .str s.brokerSnapshotHash.1), ("status", .str s.status.text),
    ("checks", .arr (s.checks.list.map fun c => .obj c.toDict)),
    ("issuedAt", .str (env.isoformat s.issuedAt)), ("expiresAt", .str (env.isoformat s.expiresAt)),
    ("metadata", .obj s.metadata)]

/-- `snapshot_hash`. -/
def snapshotHash (s : PreflightSnapshot) : String := stableSha256 env (.obj (s.toDict env))

/-- `to_dict()`. -/
def toDictWithHash (s : PreflightSnapshot) : Fields :=
  s.toDict env ++ [("snapshotHash", .str (s.snapshotHash env))]

/-- The dictionaries among the values that `payload.get("checks", ())` runs over; the keys of
a dictionary and the characters of a text are none. -/
def rawChecks (payload : Fields) : Result (List Fields) :=
  match payload.lookup "checks" with
  | none => .ok []
  | some (.arr items) => .ok (items.filterMap Json.fields?)
  | some (.obj _) | some (.str _) => .ok []
  | some _ => .error (.type "object is not iterable")

/-- The arguments `from_dict` takes from a dictionary. -/
def input (payload : Fields) (checks : List Fields) : SnapshotInput where
  snapshotId := env.text (payload.at "snapshotId")
  deploymentId := env.text (payload.at "deploymentId")
  deploymentRevision := (payload.lookup "deploymentRevision").getD (.int 0)
  deploymentManifestHash := env.text (payload.at "deploymentManifestHash")
  accountFingerprint := env.text (payload.at "accountFingerprint")
  brokerRoute := env.text (payload.at "brokerRoute")
  configRevision := (payload.lookup "configRevision").getD (.int 0)
  configHash := env.text (payload.at "configHash")
  reconciliationHash := env.text (payload.at "reconciliationHash")
  brokerSnapshotHash := env.text (payload.at "brokerSnapshotHash")
  status := env.text (payload.at "status")
  checks := checks
  issuedAt := .text (env.text (payload.at "issuedAt"))
  expiresAt := .text (env.text (payload.at "expiresAt"))
  metadata := ((payload.at "metadata").fields?).getD []
  schemaVersion := env.text (payload.at "schemaVersion")

/-- `from_dict`. -/
def fromDict (payload : Fields) : Result PreflightSnapshot := do
  let checks ← rawChecks payload
  let snapshot ← make env (input env payload checks)
  let declaredHash := lower (strip (env.text (payload.at "snapshotHash")))
  require (declaredHash = "" ∨ declaredHash = snapshot.snapshotHash env)
    (.value "preflight snapshot hash mismatch")
  pure snapshot

/-! ### What is stored is read back -/

/-- The arguments read from a stored snapshot. -/
def storedInput (s : PreflightSnapshot) : SnapshotInput where
  snapshotId := s.snapshotId.1
  deploymentId := s.deploymentId.1
  deploymentRevision := .int s.deploymentRevision.1
  deploymentManifestHash := s.deploymentManifestHash.1
  accountFingerprint := s.accountFingerprint.1
  brokerRoute := s.brokerRoute.1
  configRevision := .int s.configRevision.1
  configHash := s.configHash.1
  reconciliationHash := s.reconciliationHash.1
  brokerSnapshotHash := s.brokerSnapshotHash.1
  status := s.status.text
  checks := s.checks.list.map (·.toDict.sorted)
  issuedAt := .text (env.isoformat s.issuedAt)
  expiresAt := .text (env.isoformat s.expiresAt)
  metadata := s.metadata
  schemaVersion := preflightSnapshotSchemaVersion

theorem make_storedInput {s : PreflightSnapshot} (h : IsNormal env s.metadata) :
    make env (s.storedInput env) = .ok s := by
  simp only [make, storedInput, requiredText_self, positiveRevision_self, requiredSha256_self,
    utcIso_isoformat, enumText_preflightStatus,
    normalizedPreflightChecks_written env (PreflightCheck.writes_sorted env), h.jsonObject,
    status, require_true, ok_bind, dif_pos s.expires]
  rfl

/-- The checks of a stored snapshot, each with its keys in order. -/
theorem rawChecks_stored (s : PreflightSnapshot) :
    rawChecks (s.toDictWithHash env).sorted = .ok (s.checks.list.map (·.toDict.sorted)) := by
  have hsort : ∀ checks : List PreflightCheck,
      (Json.sortItems (checks.map fun c => .obj c.toDict)).filterMap Json.fields? =
        checks.map (·.toDict.sorted) := by
    intro checks
    induction checks with
    | nil => rfl
    | cons c checks ih =>
      rw [List.map_cons, Json.sortItems, Json.sortKeys_obj, List.filterMap_cons, ih]
      rfl
  have hlookup : (s.toDictWithHash env).lookup "checks" =
      some (.arr (s.checks.list.map fun c => .obj c.toDict)) := by
    simp [toDictWithHash, toDict, List.lookup_cons]
  simp only [rawChecks, Fields.lookup_sorted, hlookup, Option.map_some, Json.sortKeys, hsort]

theorem input_stored {s : PreflightSnapshot} (h : IsNormal env s.metadata) :
    input env (s.toDictWithHash env).sorted (s.checks.list.map (·.toDict.sorted)) =
      s.storedInput env := by
  simp [input, storedInput, toDictWithHash, toDict, Fields.at, List.lookup_cons, Json.fields?, h.sorted]

/-- **Round trip.**  A stored snapshot is read back as it was written. -/
theorem fromDict_stored {s : PreflightSnapshot} (h : IsNormal env s.metadata) :
    fromDict env (s.toDictWithHash env).sorted = .ok s := by
  have hhash : isHash (s.snapshotHash env) = true := env.sha256_isHash _
  have hdeclared : (s.toDictWithHash env).sorted.at "snapshotHash" = .str (s.snapshotHash env) := by
    simp [toDictWithHash, toDict, Fields.at, List.lookup_cons]
  rw [fromDict, rawChecks_stored, ok_bind, input_stored env h, make_storedInput env h, hdeclared]
  simp only [ok_bind, text_str, isHash_strip hhash, isHash_lower hhash, or_true, require_true]
  rfl

end PreflightSnapshot

end LiveTrader.Governance
