/-
# `Eligibility.Normalize` — the standing of a strategy artifact

`normalize_strategy_artifact` reads the permissions of an artifact and of its deployment, derives its capabilities from them, and then
lowers both in one block after another.  `can_live_use_artifact` and `can_live_small_use_artifact` look at the mapping that is returned.

The validators of `trading_runtime` are functions of the environment, as are the clock, `datetime.fromisoformat` and `str` of a value
that is no text.  Of the mapping that is returned only the fields stand here that the two predicates may look at.
-/
import LiveTrader.Lib.Json

namespace LiveTrader.Eligibility

open Lib Lib.Py

/-! ## The environment -/

/-- What `validate_lineage_manifest` returns. -/
structure Assessment where
  valid : Bool
  legacy : Bool
  issues : List String

structure Env where
  /-- `str` of a value that is no text. -/
  repr : Json → String
  /-- `datetime.now(timezone.utc)`. -/
  now : ℤ
  /-- `datetime.fromisoformat`, in UTC. -/
  fromisoformat : String → Option ℤ
  activeRevalidationStages : List String
  lifecycleAtLeast : String → String → Bool
  normalizeLifecycleStatus : Json → String
  /-- `validate_lineage_manifest(manifest, expected_stage)`. -/
  validateLineageManifest : Fields → String → Assessment
  exposureContractFromArtifact : Fields → Fields
  providerReconciliationFromArtifact : Fields → Fields
  providerReconciliationLiveReady : Fields → Bool
  futuresExecutionPolicyFromArtifact : Fields → Fields

/-! ## Values -/

/-- `_dict_value`. -/
def dictValue (value : Json) : Fields := value.fields?.getD []

/-- `d.get(key) is True`. -/
def isTrueAt (d : Fields) (key : String) : Bool := (d.at key).isTrue

/-- `a or b or …`. -/
def firstOf : List Json → Json
  | [] => .null
  | [value] => value
  | value :: values => value.orElse (firstOf values)

/-- `d.get(k) or d.get(k') or …`. -/
def anyOf (d : Fields) (keys : List String) : Json := firstOf (keys.map d.at)

section values

variable (env : Env)

/-- `str(value)`. -/
def Env.str : Json → String
  | .str s => s
  | value => env.repr value

/-- `str(value or "")`. -/
def Env.text (value : Json) : String := env.str (value.orElse (.str ""))

/-- The items of an iterable. -/
def iterate : Json → Result (List Json)
  | .arr items => .ok items
  | .str s => .ok (s.toList.map fun c => .str (String.singleton c))
  | .obj fields => .ok (fields.map fun field => .str field.1)
  | _ => .error (.type "object is not iterable")

/-- A list or a dictionary is not hashable. -/
def isHashable : Json → Bool
  | .arr _ | .obj _ => false
  | _ => true

/-- The first of each of several equal values. -/
def firsts : List Json → List Json
  | [] => []
  | x :: xs => x :: (firsts xs).filter fun y => !(y.eq x)

/-- `list(dict.fromkeys(values))`. -/
def fromkeys (values : List Json) : Result (List Json) := do
  require (∀ value ∈ values, isHashable value = true) (.type "unhashable type")
  pure (firsts values)

/-- `_reason_list`. -/
def reasonList (value : Json) : List Json :=
  match value with
  | .arr items => items
  | .null => []
  | .str s => if s = "" then [] else [.str s]
  | value => [value]

/-- `_status_pass`. -/
def statusPass (value : Json) : Bool := lower (strip (env.text value)) ∈ ["pass", "passed", "ok", "success"]

/-- `_evidence_passed`. -/
def evidencePassed (evidence : Fields) (key : String) : Bool :=
  match evidence.at key with
  | .obj item => isTrueAt item "passed" || statusPass env (Fields.at item "status")
  | _ => false

/-- The reasons with a text in front of each. -/
def labelled (label : String) (reasons : List Json) : List Json := reasons.map fun reason => .str (label ++ env.str reason)

end values

/-! ## The two predicates -/

/-- `UI_DEMO_ARTIFACT_ORIGIN`. -/
def uiDemoArtifactOrigin : String := "live-trader-ui-demo"

/-- `_is_ui_demo_artifact`. -/
def isUiDemoArtifact (env : Env) (artifact : Fields) : Bool :=
  let markers := ["artifact_origin", "source_path", "artifact_source_path"].map fun key => lower (strip (env.text (artifact.at key)))
  isTrueAt artifact "ui_demo_only" || isTrueAt artifact "sample" || uiDemoArtifactOrigin ∈ markers || "sample" ∈ markers

/-- The revalidation that an artifact shows is expired. -/
def showsExpired (artifact : Fields) : Bool :=
  isTrueAt (dictValue (artifact.at "revalidation")) "expired" || isTrueAt artifact "revalidation_expired"

/-- `can_live_use_artifact`. -/
def canLiveUseArtifact (env : Env) (artifact : Fields) : Bool :=
  let capabilities := dictValue (artifact.at "capabilities")
  let permissions := dictValue (artifact.at "permissions")
  !isUiDemoArtifact env artifact && !showsExpired artifact &&
    (isTrueAt capabilities "liveEligible" || isTrueAt permissions "live_eligible" || isTrueAt permissions "live_allowed" ||
      isTrueAt artifact "live_eligible" || isTrueAt artifact "live_allowed")

/-- `can_live_small_use_artifact`. -/
def canLiveSmallUseArtifact (env : Env) (artifact : Fields) : Bool :=
  let capabilities := dictValue (artifact.at "capabilities")
  let permissions := dictValue (artifact.at "permissions")
  !isUiDemoArtifact env artifact && !showsExpired artifact &&
    (isTrueAt capabilities "liveSmallEligible" || isTrueAt capabilities "liveEligible" || isTrueAt permissions "live_small_eligible" ||
      isTrueAt permissions "live_eligible" || isTrueAt permissions "live_allowed" || isTrueAt artifact "live_small_eligible" ||
      isTrueAt artifact "live_eligible" || isTrueAt artifact "live_allowed")

/-! ## Permissions and capabilities -/

/-- `normalized_permissions`. -/
structure Permissions where
  traderExportAllowed : Bool
  liveSmallEligible : Bool
  liveEligible : Bool
  liveAllowed : Bool
  paperTraderVerified : Bool
  /-- The identities of the paper evidence. -/
  paper : List (String × String)
  failReasons : List Json

/-- What `_artifact_capabilities` returns. -/
structure Capabilities where
  lifecycleStatus : String
  finalTestPassed : Bool
  paperTraderVerified : Bool
  liveSmallVerified : Bool
  traderExportAllowed : Bool
  liveSmallEligible : Bool
  liveEligible : Bool
  canSubmitOrder : Bool
  failReasons : List Json
  blockingFailReasons : List Json

def Permissions.toFields (p : Permissions) : Fields :=
  [("trader_export_allowed", .bool p.traderExportAllowed), ("live_small_eligible", .bool p.liveSmallEligible),
    ("live_eligible", .bool p.liveEligible), ("live_allowed", .bool p.liveAllowed),
    ("paper_trader_verified", .bool p.paperTraderVerified), ("fail_reasons", .arr p.failReasons)] ++
  p.paper.map fun entry => (entry.1, .str entry.2)

def Capabilities.toFields (c : Capabilities) : Fields :=
  [("schemaVersion", .str "strategy-capabilities-v1"), ("lifecycleStatus", .str c.lifecycleStatus),
    ("finalTestPassed", .bool c.finalTestPassed), ("paperTraderVerified", .bool c.paperTraderVerified),
    ("liveSmallVerified", .bool c.liveSmallVerified), ("traderExportAllowed", .bool c.traderExportAllowed),
    ("liveSmallEligible", .bool c.liveSmallEligible), ("liveEligible", .bool c.liveEligible),
    ("canSubmitOrder", .bool c.canSubmitOrder), ("failReasons", .arr c.failReasons),
    ("blockingFailReasons", .arr c.blockingFailReasons)]

section artifact

variable (env : Env) (artifact : Fields)

def deploymentOf : Fields := dictValue (artifact.at "_deployment")

def finalTestOf : Fields := dictValue (anyOf artifact ["finalTest", "final_test"])

/-- A flag of the artifact, where the permissions have none. -/
def carry (key : String) (permissions : Fields) : Fields :=
  if (permissions.lookup key).isNone ∧ (artifact.lookup key).isSome then permissions.put key (.bool (isTrueAt artifact key))
  else permissions

/-- `permissions`: those of the artifact, under those of its deployment. -/
def permissionsOf : Result Fields := do
  let own ← ((artifact.at "permissions").orElse (.obj [])).dict
  let merged := (dictValue ((deploymentOf artifact).at "permissions")).foldl (fun d entry => d.put entry.1 entry.2) own
  pure (carry artifact "trader_export_allowed" (carry artifact "live_eligible" (carry artifact "live_small_eligible"
    (carry artifact "live_allowed" merged))))

/-- `lifecycle_status`. -/
def lifecycleStatus : String :=
  env.normalizeLifecycleStatus (firstOf [(deploymentOf artifact).at "lifecycle", (dictValue (artifact.at "lifecycle")).at "status",
    artifact.at "lifecycleStatus", artifact.at "status", artifact.at "stage", (dictValue (artifact.at "promotion")).at "stage",
    artifact.at "promotionStage", .str "draft"])

/-- `final_test_status`. -/
def finalTestStatus : String :=
  env.text (firstOf [artifact.at "finalTestStatus", (finalTestOf artifact).at "status", artifact.at "test_status"])

/-- The identities of the paper evidence that the permissions hold. -/
def paperKeys : List String :=
  ["paperEvidenceId", "paperEvidenceHash", "paperEvidenceBundleHash", "paperFinalBindingHash", "paperGovernanceDeploymentId",
    "paperStrategyInstanceId", "paperPortfolioInstanceId"]

def normalizedPermissions (permissions : Fields) : Permissions where
  traderExportAllowed := isTrueAt permissions "trader_export_allowed"
  liveSmallEligible := isTrueAt permissions "live_small_eligible"
  liveEligible := isTrueAt permissions "live_eligible"
  liveAllowed := isTrueAt permissions "live_allowed"
  paperTraderVerified := isTrueAt permissions "paper_trader_verified"
  paper := paperKeys.map fun key => (key, env.text (permissions.at key))
  failReasons := reasonList ((permissions.at "fail_reasons").orElse (artifact.at "fail_reasons"))

/-- `NON_BLOCKING_CAPABILITY_REASONS`. -/
def nonBlockingCapabilityReasons : List String := ["live-activation-required"]

/-- `_artifact_capabilities`. -/
def artifactCapabilities (permissions : Permissions) (status finalStatus : String) : Capabilities :=
  let evidence := dictValue (artifact.at "evidence")
  let failReasons := reasonList ((Json.arr permissions.failReasons).orElse (artifact.at "fail_reasons"))
  let blocking := failReasons.filter fun reason => env.str reason ∉ nonBlockingCapabilityReasons
  let finalPassed := statusPass env (.str finalStatus) || statusPass env ((finalTestOf artifact).at "status") ||
    evidencePassed env evidence "finalTest"
  let paperVerified := permissions.paperTraderVerified || isTrueAt artifact "paper_trader_verified" ||
    evidencePassed env evidence "paper" || env.lifecycleAtLeast status "papered"
  let liveSmallVerified := evidencePassed env evidence "liveSmall" || env.lifecycleAtLeast status "live"
  let running := status ∉ ["paused", "retired"]
  let qualityOk := blocking.isEmpty
  {
    lifecycleStatus := status
    finalTestPassed := finalPassed
    paperTraderVerified := paperVerified
    liveSmallVerified := liveSmallVerified
    traderExportAllowed := finalPassed && qualityOk && env.lifecycleAtLeast status "before-shadow"
    liveSmallEligible := running && finalPassed && paperVerified && qualityOk && env.lifecycleAtLeast status "before-live-small"
    liveEligible := running && finalPassed && paperVerified && liveSmallVerified && qualityOk && env.lifecycleAtLeast status "live"
    canSubmitOrder := false
    failReasons
    blockingFailReasons := blocking }

/-! ## What lowers a standing -/

/-- The permissions and the capabilities of an artifact. -/
structure Standing where
  permissions : Permissions
  capabilities : Capabilities

/-- The permissions of a standing that is lowered. -/
def Permissions.lower (p : Permissions) (reasons : List Json) : Result Permissions := do
  let failReasons ← fromkeys (p.failReasons ++ reasons)
  pure { p with liveSmallEligible := false, liveEligible := false, liveAllowed := false, failReasons }

def Capabilities.lower (c : Capabilities) (reasons : List Json) : Result Capabilities := do
  let blockingFailReasons ← fromkeys (c.blockingFailReasons ++ reasons)
  let failReasons ← fromkeys (c.failReasons ++ reasons)
  pure { c with liveSmallEligible := false, liveEligible := false, canSubmitOrder := false, blockingFailReasons, failReasons }

/-- What every block does. -/
def Standing.lower (s : Standing) (reasons : List Json) : Result Standing := do
  let permissions ← s.permissions.lower reasons
  let capabilities ← s.capabilities.lower reasons
  pure ⟨permissions, capabilities⟩

/-- A block: where its condition holds, the standing is lowered for its reasons. -/
def Standing.lowerIf (s : Standing) (condition : Bool) (reasons : Result (List Json)) : Result Standing :=
  if condition then reasons >>= s.lower else .ok s

/-- `artifact_integrity`. -/
def integrityOf : Fields := dictValue (artifact.at "_artifact_integrity")

/-- An integrity result is attached, and not valid. -/
def integrityFails : Bool := !(integrityOf artifact).isEmpty && !isTrueAt (integrityOf artifact) "valid"

/-- The permissions, after the integrity result. -/
def checkIntegrity (p : Permissions) : Result Permissions :=
  if integrityFails artifact then do
    let issues ← iterate (((integrityOf artifact).at "issues").orElse (.arr [.str "canonical-verification-failed"]))
    p.lower (labelled env "artifact-integrity:" issues)
  else .ok p

/-- The capabilities, with those that the artifact claims for itself. -/
def overridden (c : Capabilities) : Capabilities :=
  let raw := dictValue (artifact.at "capabilities")
  let small := !integrityFails artifact && isTrueAt raw "liveSmallEligible"
  let live := !integrityFails artifact && isTrueAt raw "liveEligible"
  { c with liveSmallEligible := c.liveSmallEligible || small || live, liveEligible := c.liveEligible || live }

/-! ### Revalidation -/

/-- What `strategy_revalidation_status` returns. -/
structure Revalidation where
  required : Bool
  expired : Bool
  validatedUntil : String
  lastRevalidatedAt : String
  reason : String

/-- `_parse_datetime`. -/
def parseDatetime (value : Json) : Option ℤ :=
  let text := strip (env.text value)
  if text = "" then none
  else if text.endsWith "Z" then env.fromisoformat (String.ofList text.toList.dropLast ++ "+00:00")
  else env.fromisoformat text

/-- `strategy_revalidation_status(artifact, lifecycle_status=status)`. -/
def strategyRevalidationStatus (status : String) : Revalidation :=
  let revalidation := dictValue (artifact.at "revalidation")
  let stage := env.normalizeLifecycleStatus (firstOf [.str status, (dictValue (artifact.at "lifecycle")).at "status",
    artifact.at "lifecycleStatus", artifact.at "status", (dictValue (artifact.at "promotion")).at "stage", artifact.at "promotionStage"])
  let required :=
    if revalidation.isEmpty then
      stage ∈ env.activeRevalidationStages && (anyOf artifact ["validated_until", "validatedUntil"]).truthy
    else (revalidation.at "required").truthy
  let validatedUntil := env.text (firstOf [revalidation.at "validatedUntil", artifact.at "validated_until", artifact.at "validatedUntil"])
  let expiresAt := parseDatetime env (.str validatedUntil)
  {
    required
    expired := required && (expiresAt.isNone || expiresAt.any fun t => t ≤ env.now)
    validatedUntil
    lastRevalidatedAt := env.text (firstOf [revalidation.at "lastRevalidatedAt", artifact.at "last_revalidated_at",
      artifact.at "lastRevalidatedAt"])
    reason := env.text (firstOf [revalidation.at "reason", artifact.at "revalidation_reason"]) }

def Revalidation.toFields (r : Revalidation) : Fields :=
  [("schemaVersion", .str "strategy-revalidation-status-v1"), ("required", .bool r.required), ("expired", .bool r.expired),
    ("status", .str (if r.expired then "expired" else if r.required then "valid" else "not-required")),
    ("validatedUntil", .str r.validatedUntil), ("lastRevalidatedAt", .str r.lastRevalidatedAt), ("reason", .str r.reason)]

def revalidationOf : Revalidation := strategyRevalidationStatus env artifact (lifecycleStatus env artifact)

/-- An expired revalidation lowers the capabilities. -/
def lowerExpired (s : Standing) : Result Standing :=
  if (revalidationOf env artifact).expired then do
    let capabilities ← s.capabilities.lower [.str "revalidation-expired"]
    pure { s with capabilities }
  else .ok s

/-! ### The other blocks -/

def candidateOf : Fields := dictValue (anyOf artifact ["portfolioCandidate", "portfolio_candidate"])

def candidateBlockers : List Json := reasonList ((candidateOf artifact).at "blockers")

/-- `candidate_required and not candidate_approved`. -/
def candidateFails : Bool :=
  !(candidateOf artifact).isEmpty && !(isTrueAt (candidateOf artifact) "approved" && (candidateBlockers artifact).isEmpty)

/-- The reason of a portfolio candidate that is not approved, and its blockers. -/
def candidateReasons : Result (List Json) := .ok (.str "portfolio-candidate-not-approved" :: candidateBlockers artifact)

def backtestLineage : Fields := dictValue (artifact.at "lineageManifest")

def backtestAssessment : Assessment := env.validateLineageManifest (backtestLineage artifact) "backtest"

def paperLineage : Fields :=
  dictValue ((dictValue ((dictValue (artifact.at "_external_paper_evidence")).at "details")).at "lineageManifest")

def paperAssessment : Assessment := env.validateLineageManifest (paperLineage artifact) "paper"

/-- An issue, if its condition holds. -/
def issue (condition : Prop) [Decidable condition] (text : String) : List String := if condition then [text] else []

/-- The issues of `_dataset_lineage_snapshot`. -/
def datasetIssues : List String :=
  let parent := dictValue ((backtestLineage artifact).at "parent")
  let text := fun key => env.text (parent.at key)
  issue (text "schemaVersion" ≠ "dataset-lineage-v1") "dataset-schema-version-invalid" ++
  issue (isTrueAt parent "tracked" = false) "dataset-tracked-not-true" ++
  issue (text "datasetId" = "") "dataset-id-missing" ++
  issue (text "lineageRunId" = "") "dataset-lineage-run-id-missing" ++
  issue (text "sourceStage" = "") "dataset-source-stage-missing" ++
  issue (text "stageRevisionId" = "") "dataset-stage-revision-id-missing" ++
  issue (text "transformationId" = "") "dataset-transformation-id-missing" ++
  issue (text "contentHash" = "" ∨ text "contentHash" ≠ text "stageRevisionId") "dataset-content-hash-stage-revision-mismatch"

/-- A lineage that is neither valid nor older than manifests. -/
def Assessment.fails (a : Assessment) : Bool := !a.valid && !a.legacy

/-- A backtest under a manifest whose dataset is not tracked. -/
def datasetFails : Bool :=
  (backtestAssessment env artifact).valid && !(backtestAssessment env artifact).legacy && !(datasetIssues env artifact).isEmpty

def Assessment.failures (a : Assessment) : List String := if a.fails then a.issues else []

/-- `lineage_issues`. -/
def lineageIssues : List String :=
  ((if datasetFails env artifact then datasetIssues env artifact else []).map ("dataset:" ++ ·)) ++
  (backtestAssessment env artifact).failures.map ("backtest:" ++ ·) ++ (paperAssessment env artifact).failures.map ("paper:" ++ ·)

def lineageReasons : Result (List Json) := .ok ((lineageIssues env artifact).map fun issue => .str ("lineage-invalid:" ++ issue))

/-- `market_type`. -/
def marketType : String :=
  lower (env.str (firstOf [artifact.at "marketType", artifact.at "market_type",
    (dictValue (anyOf artifact ["dataArtifact", "data_artifact"])).at "marketType", (dictValue (artifact.at "dataset")).at "marketType",
    .str "spot"]))

def futuresFails : Bool :=
  marketType env artifact ∈ ["future", "futures", "perpetual"] &&
    !isTrueAt (env.futuresExecutionPolicyFromArtifact artifact) "valid"

def futuresReasons : Result (List Json) := do
  let blockers ← iterate (((env.futuresExecutionPolicyFromArtifact artifact).at "blockers").orElse (.arr [.str "futures-policy-invalid"]))
  pure (labelled env "futures-policy-invalid:" blockers)

/-- `_custom_definition_from_artifact`. -/
def customDefinition : Fields :=
  let sources := [artifact, dictValue (artifact.at "parameters"), dictValue (artifact.at "settings"),
    dictValue (anyOf artifact ["strategy_contract", "strategyContract"])]
  ((sources.flatMap fun d => [d.at "customStrategyDefinition", d.at "custom_strategy_definition"]).findSome? Json.fields?).getD []

def positionDirection : String :=
  env.str (((env.exposureContractFromArtifact artifact).at "positionDirection").orElse (.str "long"))

/-- `custom_direction`. -/
def customDirection : String :=
  if lower (strip (env.str (((customDefinition artifact).at "positionDirection").orElse (.str "long")))) = "short" then "short" else "long"

/-- `exposure_blockers`. -/
def exposureBlockers : Result (List String) := do
  let blockers ← iterate (((env.exposureContractFromArtifact artifact).at "blockers").orElse (.arr []))
  pure ((blockers.map env.str).filter (· ≠ "") ++ issue ((customDefinition artifact).isEmpty = false ∧
    customDirection env artifact ≠ positionDirection env artifact) "exposure-contract-custom-direction-mismatch")

/-- The block of the exposure contract. -/
def lowerExposure (s : Standing) : Result Standing := do
  let blockers ← exposureBlockers env artifact
  s.lowerIf (!blockers.isEmpty) (.ok (blockers.eraseDups.map fun reason => .str ("exposure-contract-invalid:" ++ reason)))

def providerReconciliation : Fields := env.providerReconciliationFromArtifact artifact

def providerFails : Bool := !env.providerReconciliationLiveReady (providerReconciliation env artifact)

def providerReasons : Result (List Json) := do
  let blockers ← iterate (((providerReconciliation env artifact).at "blockers").orElse (.arr [.str "provider-reconciliation-not-passed"]))
  pure ((((blockers.map env.str).filter (· ≠ "")).eraseDups).map fun reason => .str ("provider-reconciliation-invalid:" ++ reason))

/-- `paper_live_qualification`. -/
def qualificationOf : Fields :=
  match artifact.at "_paper_live_qualification" with
  | .obj qualification => qualification
  | _ =>
    let required := (artifact.at "_paper_live_qualification_required").truthy
    [("required", .bool required), ("ready", .bool !required), ("issues", .arr [])]

def qualificationFails : Bool := isTrueAt (qualificationOf artifact) "required" && !isTrueAt (qualificationOf artifact) "ready"

def qualificationReasons : Result (List Json) := do
  let issues ← iterate (((qualificationOf artifact).at "issues").orElse (.arr [.str "exact-pinned-evidence-required"]))
  pure (labelled env "paper-live-qualification:" issues)

/-! ## The mapping that is returned -/

/-- The standing before any block, from permissions that the integrity result has passed. -/
def standingOf (permissions : Permissions) : Standing where
  permissions
  capabilities := overridden artifact (artifactCapabilities env artifact permissions (lifecycleStatus env artifact)
    (finalTestStatus env artifact))

/-- The blocks, one after another. -/
def lowered (s : Standing) : Result Standing := do
  let s ← lowerExpired env artifact s
  let s ← s.lowerIf (candidateFails artifact) (candidateReasons artifact)
  let s ← s.lowerIf (!(lineageIssues env artifact).isEmpty) (lineageReasons env artifact)
  let s ← s.lowerIf (futuresFails env artifact) (futuresReasons env artifact)
  let s ← lowerExposure env artifact s
  let s ← s.lowerIf (providerFails env artifact) (providerReasons env artifact)
  s.lowerIf (qualificationFails artifact) (qualificationReasons env artifact)

/-- The fields of the mapping. -/
def Standing.toFields (s : Standing) : Fields :=
  let revalidation := revalidationOf env artifact
  let source := env.text (artifact.at "_source_path")
  [("artifact_source_path", .str source), ("lifecycle_status", .str (lifecycleStatus env artifact)),
    ("final_test_status", .str (finalTestStatus env artifact)), ("market_type", .str (marketType env artifact)),
    ("position_direction", .str (positionDirection env artifact)), ("permissions", .obj s.permissions.toFields),
    ("capabilities", .obj s.capabilities.toFields), ("revalidation", .obj revalidation.toFields),
    ("revalidation_expired", .bool revalidation.expired), ("validated_until", .str revalidation.validatedUntil),
    ("last_revalidated_at", .str revalidation.lastRevalidatedAt), ("live_small_eligible", .bool s.capabilities.liveSmallEligible),
    ("live_eligible", .bool s.capabilities.liveEligible), ("source_path", .str source)]

/-- `normalize_strategy_artifact`. -/
def normalizeStrategyArtifact : Result Fields := do
  let permissions ← permissionsOf artifact
  let permitted ← checkIntegrity env artifact (normalizedPermissions env artifact permissions)
  let standing ← lowered env artifact (standingOf env artifact permitted)
  pure (standing.toFields env artifact)

end artifact

end LiveTrader.Eligibility
