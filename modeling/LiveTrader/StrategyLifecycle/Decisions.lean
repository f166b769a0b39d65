/-
# `StrategyLifecycle.Decisions` — what an action leaves

`set_strategy_lifecycle_status` moves the live deployment of a strategy.  A pause remembers the permissions it found inside the
permissions it leaves, and a resume goes back to them, through a fresh assessment of the evidence where the stage is near to live.
`ensure_live_deployment` makes the deployment of a strategy that has none, with no authority.  The names and the order of the stages come
from another package, and so does the store, which keeps what a transition is given.

One lemma for a stop and one for a resume says what stage, what flags and what reasons they leave; the run is about these alone.
-/
import LiveTrader.Lib.Json

namespace LiveTrader.StrategyLifecycle

open Lib Lib.Py

/-- What the names and the order of the stages are, with what is relied on. -/
structure Lifecycle where
  /-- `normalize_lifecycle_status`. -/
  normalize : Json → String
  /-- `lifecycle_rank`. -/
  rank : String → ℤ
  /-- A stage has a name. -/
  normalize_ne : ∀ value, normalize value ≠ ""
  /-- A stage that was normalized is not renamed, -/
  normalize_again : ∀ value, normalize (.str (normalize value)) = normalize value
  /-- nor is one of those that the code writes. -/
  normalize_known : ∀ stage ∈ ["backtested", "papered", "before-live-small", "paused", "retired"], normalize (.str stage) = stage
  papered_le : rank "papered" ≤ rank "before-live-small"

structure Env extends Lifecycle where
  /-- `str` on a value that is not a text. -/
  repr : Json → String

/-- The row of a deployment in the store. -/
structure Deployment where
  lifecycle : Json
  mode : Json
  permissions : Json

/-- What the store has of the deployment of the strategy. -/
abbrev Store := Option Deployment

/-- The artifact of a strategy, as far as it is looked at. -/
structure Artifact where
  /-- `payload.get("name")`. -/
  name : Json
  /-- `normalized["lifecycle_status"]`. -/
  lifecycleStatus : Json
  /-- `normalized["lifecycle"]`. -/
  lifecycle : Json
  /-- `normalized["permissions"]`. -/
  permissions : Json

/-- A call, with what the rest of the program answers to it. -/
structure Call where
  strategyId : Json
  action : Json
  /-- `find_strategy_artifact_payload`. -/
  artifact : Option Artifact
  /-- The row that `create_definition` writes. -/
  created : Deployment
  /-- `paper_live_forward_resume_assessment`, of the permissions. -/
  assess : Fields → Result Fields
  /-- `STATE.get("mode") or "MONITOR"`, as a text. -/
  mode : String

inductive Outcome where
  | raised (e : Error)
  | refused (reason : String)
  | done (reason : String)
  deriving DecidableEq

section status

variable (env : Env)

/-! ## Values -/

/-- `str(value)`. -/
def Env.str : Json → String
  | .str s => s
  | value => env.repr value

/-- The items of an iterable. -/
def iterate : Json → Result (List Json)
  | .arr items => .ok items
  | .str s => .ok (s.toList.map fun c => .str (String.singleton c))
  | .obj fields => .ok (fields.map fun field => .str field.1)
  | _ => .error (.type "object is not iterable")

/-- `value[:6]`. -/
def firstSix : Json → Result (List Json)
  | .arr items => .ok (items.take 6)
  | .str s => .ok ((s.toList.take 6).map fun c => .str (String.singleton c))
  | _ => .error (.type "object is not subscriptable")

/-- `d.get(key, default)`. -/
def getOr (d : Fields) (key : String) (default : Json) : Json := (d.lookup key).getD default

/-- `d`, with `d.pop(key, None)` for each of the keys. -/
def without (d : Fields) (keys : List String) : Fields := d.filter fun entry => !keys.contains entry.1

/-- `list(dict.fromkeys(texts))`, as a value. -/
def texts (reasons : List String) : Json := .arr (reasons.eraseDups.map .str)

/-! ## Reasons -/

/-- `RESUME_REPROMOTION_REASON`. -/
def resumeRepromotionReason : String := "resume-current-paper-live-forward-repromotion-required"

/-- What a resume that came from live adds. -/
def canaryReason : String := "resume-live-canary-repromotion-required"

/-- A reason is one of an earlier resume. -/
def Repromotion (reason : String) : Prop := resumeRepromotionReason.toList.isPrefixOf reason.toList = true ∨ reason = canaryReason

instance (reason : String) : Decidable (Repromotion reason) := inferInstanceAs (Decidable (_ ∨ _))

/-- What a resume keeps. -/
def Kept (reason : String) : Prop := reason ∉ ["lifecycle-paused", "lifecycle-retired"] ∧ ¬Repromotion reason

instance (reason : String) : Decidable (Kept reason) := inferInstanceAs (Decidable (_ ∧ _))

/-! ## A new deployment -/

/-- What pins a deployment to evidence from paper trading. -/
def paperPins : List String :=
  ["paperEvidenceId", "paperEvidenceHash", "paperEvidenceBundleHash", "paperFinalBindingHash", "paperGovernanceDeploymentId",
    "paperStrategyInstanceId", "paperPortfolioInstanceId"]

def livePins : List String := ["liveEvidenceId", "liveEvidenceHash"]

/-- The permissions of an artifact are no authority. -/
def seedPermissions (artifact : Artifact) : Result Fields := do
  let permissions ← (artifact.permissions.orElse (.obj [])).dict
  let reasons ← iterate (getOr (without permissions paperPins) "fail_reasons" (.arr []))
  pure ((without permissions paperPins).update
    [("paper_trader_verified", .bool false), ("live_small_eligible", .bool false), ("live_eligible", .bool false),
      ("live_allowed", .bool false), ("fail_reasons", texts (reasons.map env.str ++ ["live-deployment-exact-paper-pins-required"]))])

/-- `ensure_live_deployment`, with what the store has then. -/
def ensureLiveDeployment (call : Call) (artifact : Artifact) : Store → Result Deployment × Deployment
  | some deployment => (.ok deployment, deployment)
  | none =>
    let lifecycle := env.normalize (artifact.lifecycleStatus.orElse (.str "draft"))
    if lifecycle = "draft" then (.ok call.created, call.created)
    else
      match seedPermissions env artifact with
      | .ok permissions =>
        let seeded : Deployment := ⟨.str lifecycle, .str "MONITOR", .obj permissions⟩
        (.ok seeded, seeded)
      | .error e => (.error e, call.created)

/-! ## The actions -/

inductive Action where
  | pause
  | resume
  | retire
  deriving DecidableEq

/-- `str(action or "").strip().lower()`, where it is one. -/
def actionOf (action : Json) : Option Action :=
  match lower (action.text env.repr) with
  | "pause" => some .pause
  | "resume" => some .resume
  | "retire" => some .retire
  | _ => none

/-- What an action comes to. -/
inductive Decision where
  | refuse (reason : String)
  | move (target : String) (permissions : Fields) (reason : String)

/-- The flags of live authority, all down. -/
def noAuthority : Fields := [("live_small_eligible", .bool false), ("live_eligible", .bool false), ("live_allowed", .bool false)]

/-- `payload.get("name") or strategy_id`. -/
def nameOf (call : Call) (artifact : Artifact) : String := env.str (artifact.name.orElse (.str (call.strategyId.text env.repr)))

/-- `current_status`. -/
def statusOf (artifact : Artifact) (deployment : Deployment) : String :=
  env.normalize (deployment.lifecycle.orElse artifact.lifecycleStatus)

/-- The stage that a paused deployment names as the one it came from. -/
def pausedFrom (artifact : Artifact) (permissions : Fields) : Result String :=
  if (permissions.at "pausedFrom").truthy then pure (env.str (permissions.at "pausedFrom"))
  else do
    let lifecycle ← (artifact.lifecycle.orElse (.obj [])).fields
    pure (env.str ((lifecycle.at "pausedFrom").orElse (.str "")))

/-- The stage a resume goes for. -/
def resumeTarget (from_ : String) : String :=
  if env.normalize (.str from_) ∈ ["paused", "retired", "unknown"] then "backtested" else env.normalize (.str from_)

/-- The permissions from before the pause. -/
def restored (permissions : Fields) (from_ : String) : Fields :=
  match permissions.at "pausedPermissions" with
  | .obj (entry :: entries) => without (Fields.put (entry :: entries) "pausedFrom" (.str from_)) ["pausedPermissions"]
  | _ => without permissions ["pausedPermissions"]

/-- `", ".join(str(item) for item in evidence.get("blockers", [])[:6])`, or that there is none. -/
def blockerText (evidence : Fields) : Result String := do
  let blockers ← firstSix (getOr evidence "blockers" (.arr []))
  pure (orElse (", ".intercalate (blockers.map env.str)) "paper-live-forward-evidence-missing")

/-- The pins of an assessment that is ready. -/
def readyEntries (evidence : Fields) : Fields :=
  [("paper_trader_verified", .bool true), ("live_small_eligible", .bool true), ("live_eligible", .bool false), ("live_allowed", .bool false),
    ("paperEvidenceId", evidence.at "evidenceId"), ("paperEvidenceHash", evidence.at "evidenceHash"),
    ("paperEvidenceBundleHash", evidence.at "evidenceBundleHash"), ("paperFinalBindingHash", evidence.at "bindingHash"),
    ("paperGovernanceDeploymentId", evidence.at "paperGovernanceDeploymentId"),
    ("paperStrategyInstanceId", evidence.at "strategyInstanceId"), ("paperPortfolioInstanceId", evidence.at "portfolioInstanceId")]

/-- The permissions that a resume leaves, with its reasons in the end. -/
def withReasons (permissions : Fields) (kept : List Json) (added : List String) : Fields :=
  permissions.put "fail_reasons" (texts (kept.map env.str ++ added))

/-- A resume whose evidence is ready goes before live, and no further. -/
def resumeReady (name : String) (target : String) (permissions evidence : Fields) (kept : List Json) : Decision :=
  let pinned := without (permissions.update (readyEntries evidence)) livePins
  if env.rank "live" ≤ env.rank target then
    .move "before-live-small" (withReasons env pinned kept [canaryReason])
      (name ++ " 전략의 current-hash Paper live-forward 증거와 Portfolio gate를 재검증했습니다. 기존 Live 권한은 복구하지 않고 " ++
        "before-live-small로 재개해 소액 실거래 승급을 다시 요구합니다.")
  else
    .move "before-live-small" (withReasons env pinned kept [])
      (name ++ " 전략의 current-hash Paper live-forward 증거와 Portfolio gate를 재검증해 before-live-small로 안전 재개했습니다.")

/-- A resume whose evidence is not ready goes back to paper trading. -/
def resumeBlocked (name : String) (permissions : Fields) (kept : List Json) (blockers : String) : Decision :=
  .move "papered"
    (withReasons env (without (permissions.update (("paper_trader_verified", .bool false) :: noAuthority)) (paperPins ++ livePins)) kept
      [resumeRepromotionReason ++ ": " ++ blockers])
    (name ++ " 전략은 " ++ blockers ++ " 때문에 이전 Live 권한을 복구하지 않았습니다. papered 단계로 안전 재개했으며 " ++
      "Paper Trader에서 current-hash 연속 관찰 증거로 다시 승급해야 합니다.")

/-- The part of a resume after the restored permissions, at a stage near to live or below. -/
def resumeFrom (call : Call) (name target : String) (permissions : Fields) (kept : List Json) : Result Decision :=
  if env.rank "before-live-small" ≤ env.rank target then do
    let evidence ← call.assess permissions
    if (evidence.at "ready").isTrue then
      pure (resumeReady env name target (permissions.put "resumeEvidence" (.obj evidence)) evidence kept)
    else do
      let blockers ← blockerText env evidence
      pure (resumeBlocked env name (permissions.put "resumeEvidence" (.obj evidence)) kept blockers)
  else
    pure (.move target (withReasons env (permissions.update noAuthority) kept [])
      (name ++ " 전략을 " ++ target ++ " 단계로 재개했습니다. 비-Live 단계이므로 실거래 권한은 복구하지 않았습니다."))

/-- `resume`. -/
def resume (call : Call) (artifact : Artifact) (status : String) (permissions : Fields) : Result Decision :=
  if status ≠ "paused" then pure (.refuse "paused 상태에서만 재개할 수 있습니다.")
  else do
    let from_ ← pausedFrom env artifact permissions
    let reasons ← iterate (getOr (restored permissions from_) "fail_reasons" (.arr []))
    let kept := reasons.filter fun reason => Kept (env.str reason)
    resumeFrom env call (nameOf env call artifact) (resumeTarget env from_) ((restored permissions from_).put "fail_reasons" (.arr kept)) kept

/-- What a pause writes before the flags go down: where it came from, and the permissions themselves. -/
def remembered (status : String) (permissions : Fields) : Fields :=
  (permissions.put "pausedFrom" (.str status)).put "pausedPermissions" (.obj (permissions.put "pausedFrom" (.str status)))

/-- `pause` and `retire`, which stop at a stage of their own. -/
def stop (call : Call) (artifact : Artifact) (target : String) (permissions : Fields) : Result Decision := do
  let reasons ← iterate ((getOr permissions "fail_reasons" (.arr [])).orElse (.arr []))
  pure (.move target (permissions.update (noAuthority ++ [("fail_reasons", texts (reasons.map env.str ++ ["lifecycle-" ++ target]))]))
    (nameOf env call artifact ++ " 전략을 " ++ target ++ " 상태로 변경하고 실거래 권한을 차단했습니다."))

/-- The decision on an action, of the permissions of the deployment. -/
def decisionOf (call : Call) (artifact : Artifact) (action : Action) (deployment : Deployment) : Result Decision := do
  let permissions ← (deployment.permissions.orElse (.obj [])).dict
  match action with
  | .resume => resume env call artifact (statusOf env artifact deployment) permissions
  | .pause => stop env call artifact "paused" (remembered (statusOf env artifact deployment) permissions)
  | .retire => stop env call artifact "retired" permissions

/-- `deployment_store.transition`. -/
def moved (call : Call) (target : String) (permissions : Fields) : Deployment where
  lifecycle := .str target
  mode := .str (if target ∈ ["paused", "retired"] then "MONITOR" else call.mode)
  permissions := .obj permissions

/-- What is done with the deployment of a strategy. -/
def change (call : Call) (artifact : Artifact) (action : Action) (deployment : Deployment) : Outcome × Deployment :=
  match decisionOf env call artifact action deployment with
  | .error e => (.raised e, deployment)
  | .ok (.refuse reason) => (.refused reason, deployment)
  | .ok (.move target permissions reason) => (.done reason, moved call target permissions)

/-- What is done with a strategy whose artifact was found. -/
def changeFound (call : Call) (artifact : Artifact) (action : Action) (store : Store) : Outcome × Store :=
  match ensureLiveDeployment env call artifact store with
  | (.error e, left) => (.raised e, some left)
  | (.ok deployment, _) => (change env call artifact action deployment).map id some

/-- `set_strategy_lifecycle_status`. -/
def setStrategyLifecycleStatus (call : Call) (store : Store) : Outcome × Store :=
  if call.strategyId.text env.repr = "" then (.refused "strategy_id is required", store)
  else
    match actionOf env call.action, call.artifact with
    | none, _ => (.refused "action must be pause, retire, or resume", store)
    | some _, none => (.refused ("전략 artifact를 찾을 수 없습니다: " ++ call.strategyId.text env.repr), store)
    | some action, some artifact => changeFound env call artifact action store

end status

/-! ## What an action leaves -/

variable {env : Env} {call : Call} {artifact : Artifact} {permissions permissions' : Fields} {target reason : String}

/-! ## Dictionaries -/

theorem lookup_without {keys : List String} {key : String} (h : key ∉ keys) (d : Fields) :
    List.lookup key (without d keys) = List.lookup key d := by
  induction d with
  | nil => rfl
  | cons entry d ih =>
    obtain ⟨name, value⟩ := entry
    by_cases hkey : key = name
    · subst hkey
      have hkept : without ((key, value) :: d) keys = (key, value) :: without d keys :=
        List.filter_cons_of_pos (by rw [Bool.not_eq_true', List.contains_eq_mem, decide_eq_false h])
      rw [hkept, List.lookup_cons_self, List.lookup_cons_self]
    · have hskip : List.lookup key ((name, value) :: d) = List.lookup key d := by
        rw [List.lookup_cons, beq_false_of_ne hkey]
      rw [hskip, ← ih, without, List.filter_cons]
      split
      · rw [List.lookup_cons, beq_false_of_ne hkey, without]
      · rfl

theorem at_without {keys : List String} {key : String} (h : key ∉ keys) (d : Fields) : (without d keys).at key = d.at key := by
  rw [Fields.at, lookup_without h, Fields.at]

/-! ## Reasons -/

/-- The reasons of a deployment. -/
def reasonsOf (env : Env) (permissions : Fields) : List String :=
  match iterate ((getOr permissions "fail_reasons" (.arr [])).orElse (.arr [])) with
  | .ok reasons => reasons.map env.str
  | .error _ => []

/-- Nothing is lost where a value that is no list is not replaced by one. -/
theorem reasonsOf_of_iterate {reasons : List Json} (h : iterate (getOr permissions "fail_reasons" (.arr [])) = .ok reasons) :
    reasonsOf env permissions = reasons.map env.str := by
  rw [reasonsOf]
  generalize hvalue : getOr permissions "fail_reasons" (.arr []) = value at h
  by_cases htruthy : value.truthy = true
  · rw [Json.orElse, if_pos htruthy, h]
  · have hempty : reasons = [] := by
      cases value with
      | null | bool | int | float => cases h
      | str s =>
        obtain rfl := Except.ok.inj h
        have hs : s = "" := by simpa [Json.truthy] using htruthy
        rw [hs]
        rfl
      | arr items =>
        obtain rfl := Except.ok.inj h
        simpa [Json.truthy] using htruthy
      | obj entries =>
        obtain rfl := Except.ok.inj h
        have hentries : entries = [] := by simpa [Json.truthy] using htruthy
        rw [hentries]
        rfl
    rw [Json.orElse, if_neg htruthy, hempty]
    rfl

theorem mem_reasonsOf_texts {reasons : List String} (h : List.lookup "fail_reasons" permissions = some (texts reasons)) {r : String} :
    r ∈ reasonsOf env permissions ↔ r ∈ reasons := by
  have hiterate : iterate (getOr permissions "fail_reasons" (.arr [])) = .ok (reasons.eraseDups.map .str) := by
    rw [getOr, h]
    rfl
  rw [reasonsOf_of_iterate hiterate, List.map_map]
  have hstr : env.str ∘ Json.str = id := rfl
  rw [hstr, List.map_id, List.mem_eraseDups]

theorem reasonsOf_congr (h : permissions.lookup "fail_reasons" = permissions'.lookup "fail_reasons") :
    reasonsOf env permissions = reasonsOf env permissions' := by
  rw [reasonsOf, getOr, h, reasonsOf, getOr]

/-- What a resume adds is of an earlier resume to the next one. -/
theorem repromotion_blocked (blockers : String) : Repromotion (resumeRepromotionReason ++ ": " ++ blockers) := by
  left
  rw [String.append_assoc, String.toList_append, List.isPrefixOf_iff_prefix]
  exact List.prefix_append _ _

theorem repromotion_canary : Repromotion canaryReason := .inr rfl

theorem not_repromotion_stop {r : String} (h : r ∈ ["lifecycle-paused", "lifecycle-retired"]) : ¬Repromotion r := by
  have hall : ∀ r ∈ ["lifecycle-paused", "lifecycle-retired"], ¬Repromotion r := by decide
  exact hall r h

/-! ## Flags -/

/-- No live authority. -/
structure NoLive (permissions : Fields) : Prop where
  live : permissions.at "live_eligible" = .bool false
  allowed : permissions.at "live_allowed" = .bool false

theorem NoLive.of_at (hlive : permissions'.at "live_eligible" = permissions.at "live_eligible")
    (hallowed : permissions'.at "live_allowed" = permissions.at "live_allowed") (h : NoLive permissions) : NoLive permissions' :=
  ⟨hlive.trans h.live, hallowed.trans h.allowed⟩

theorem noLive_update {entries : Fields} (hnodup : (entries.map Prod.fst).Nodup) (hlive : ("live_eligible", .bool false) ∈ entries)
    (hallowed : ("live_allowed", .bool false) ∈ entries) (permissions : Fields) : NoLive (permissions.update entries) :=
  ⟨Fields.at_update_of_mem hnodup hlive permissions, Fields.at_update_of_mem hnodup hallowed permissions⟩

theorem at_withReasons {key : String} (h : key ≠ "fail_reasons") (kept : List Json) (added : List String) :
    (withReasons env permissions kept added).at key = permissions.at key := Fields.at_put_ne _ h _

theorem noLive_withReasons (h : NoLive permissions) (kept : List Json) (added : List String) :
    NoLive (withReasons env permissions kept added) :=
  h.of_at (at_withReasons (by decide) kept added) (at_withReasons (by decide) kept added)

theorem mem_withReasons {kept : List Json} {added : List String} {r : String} :
    r ∈ reasonsOf env (withReasons env permissions kept added) ↔ r ∈ kept.map env.str ∨ r ∈ added := by
  rw [mem_reasonsOf_texts (by rw [withReasons, Fields.lookup_put, if_pos rfl]), List.mem_append]

/-! ## Pause and retire -/

/-- What a stop leaves. -/
structure Stopped (env : Env) (permissions : Fields) (target : String) (permissions' : Fields) : Prop where
  noLive : NoLive permissions'
  small : permissions'.at "live_small_eligible" = .bool false
  reasons : ∀ r, r ∈ reasonsOf env permissions' ↔ r ∈ reasonsOf env permissions ∨ r = "lifecycle-" ++ target
  other : ∀ key ∉ ["live_small_eligible", "live_eligible", "live_allowed", "fail_reasons"], permissions'.lookup key = permissions.lookup key

theorem stop_eq_ok {stage : String} (h : stop env call artifact stage permissions = .ok (.move target permissions' reason)) :
    target = stage ∧ Stopped env permissions stage permissions' := by
  obtain ⟨reasons, hreasons, h⟩ := bind_eq_ok.mp h
  cases h
  have hnodup : ((noAuthority ++ [("fail_reasons", texts (reasons.map env.str ++ ["lifecycle-" ++ target]))]).map Prod.fst).Nodup := by
    show (["live_small_eligible", "live_eligible", "live_allowed", "fail_reasons"] : List String).Nodup
    decide
  refine ⟨rfl, ?_, ?_, ?_, ?_⟩
  · exact noLive_update hnodup (by simp [noAuthority]) (by simp [noAuthority]) permissions
  · exact Fields.at_update_of_mem hnodup (by simp [noAuthority]) permissions
  · intro r
    have hlookup : List.lookup "fail_reasons" (permissions.update
        (noAuthority ++ [("fail_reasons", texts (reasons.map env.str ++ ["lifecycle-" ++ target]))])) =
        some (texts (reasons.map env.str ++ ["lifecycle-" ++ target])) :=
      Fields.lookup_update_of_mem hnodup (List.mem_append_right _ (List.mem_singleton_self _)) permissions
    rw [mem_reasonsOf_texts hlookup, List.mem_append, List.mem_singleton, reasonsOf, hreasons]
  · intro key hkey
    exact Fields.lookup_update hkey permissions

/-! ## Resume -/

/-- What a resume leaves. -/
structure Resumed (env : Env) (call : Call) (permissions : Fields) (from_ : String) (target : String) (permissions' : Fields) : Prop where
  noLive : NoLive permissions'
  small : permissions'.at "live_small_eligible" = .bool true →
    target = "before-live-small" ∧ ∃ assessed evidence, call.assess assessed = .ok evidence ∧ (evidence.at "ready").isTrue = true
  rank : env.rank target ≤ env.rank (resumeTarget env from_)
  kept : ∀ r, Kept r → (r ∈ reasonsOf env permissions' ↔ r ∈ reasonsOf env (restored permissions from_))
  removed : ∀ r ∈ reasonsOf env permissions', r ∉ ["lifecycle-paused", "lifecycle-retired"]

/-- The reasons of a resume: those that are kept, and some of its own. -/
theorem resumed_reasons {from_ : String} {reasons : List Json} {added : List String}
    (hreasons : iterate (getOr (restored permissions from_) "fail_reasons" (.arr [])) = .ok reasons) (hadded : ∀ r ∈ added, Repromotion r)
    (d : Fields) : let left := withReasons env d (reasons.filter fun reason => Kept (env.str reason)) added
    (∀ r, Kept r → (r ∈ reasonsOf env left ↔ r ∈ reasonsOf env (restored permissions from_))) ∧
      ∀ r ∈ reasonsOf env left, r ∉ ["lifecycle-paused", "lifecycle-retired"] := by
  have hmem : ∀ r, r ∈ (reasons.filter fun reason => Kept (env.str reason)).map env.str ↔ Kept r ∧ r ∈ reasons.map env.str := by
    intro r
    simp only [List.mem_map, List.mem_filter, decide_eq_true_eq]
    constructor
    · rintro ⟨value, ⟨hvalue, hkept⟩, rfl⟩
      exact ⟨hkept, value, hvalue, rfl⟩
    · rintro ⟨hkept, value, hvalue, rfl⟩
      exact ⟨value, ⟨hvalue, hkept⟩, rfl⟩
  refine ⟨?_, ?_⟩
  · intro r hkept
    rw [mem_withReasons, hmem, reasonsOf_of_iterate hreasons]
    constructor
    · rintro (⟨-, hr⟩ | hr)
      · exact hr
      · exact absurd (hadded r hr) hkept.2
    · intro hr
      exact .inl ⟨hkept, hr⟩
  · intro r hr hstop
    rw [mem_withReasons, hmem] at hr
    rcases hr with ⟨hkept, -⟩ | hr
    · exact hkept.1 hstop
    · exact not_repromotion_stop hstop (hadded r hr)

theorem nodup_readyEntries (evidence : Fields) : ((readyEntries evidence).map Prod.fst).Nodup := by
  show (["paper_trader_verified", "live_small_eligible", "live_eligible", "live_allowed", "paperEvidenceId", "paperEvidenceHash",
    "paperEvidenceBundleHash", "paperFinalBindingHash", "paperGovernanceDeploymentId", "paperStrategyInstanceId",
    "paperPortfolioInstanceId"] : List String).Nodup
  decide

theorem noLive_pinned (evidence : Fields) : NoLive (without (permissions.update (readyEntries evidence)) livePins) :=
  (noLive_update (nodup_readyEntries evidence) (by simp [readyEntries]) (by simp [readyEntries]) permissions).of_at
    (at_without (by decide) _) (at_without (by decide) _)

theorem nodup_noAuthority : (noAuthority.map Prod.fst).Nodup := by decide

theorem small_mem_noAuthority : ("live_small_eligible", Json.bool false) ∈ noAuthority := List.mem_cons_self

/-- A resume leaves no live authority, a stage that is not above its goal, and the reasons from before the pause. -/
theorem resumeFrom_eq_ok {name from_ : String} {reasons : List Json} {d : Fields}
    (hreasons : iterate (getOr (restored permissions from_) "fail_reasons" (.arr [])) = .ok reasons)
    (h : resumeFrom env call name (resumeTarget env from_) d (reasons.filter fun reason => Kept (env.str reason)) =
      .ok (.move target permissions' reason)) : Resumed env call permissions from_ target permissions' := by
  rw [resumeFrom] at h
  split at h
  · next hlive =>
    obtain ⟨evidence, hassess, h⟩ := bind_eq_ok.mp h
    by_cases hready : (evidence.at "ready").isTrue = true
    · rw [if_pos hready] at h
      have hbefore : ∀ added : List String, (∀ r ∈ added, Repromotion r) →
          Resumed env call permissions from_ "before-live-small" (withReasons env
            (without ((d.put "resumeEvidence" (.obj evidence)).update (readyEntries evidence)) livePins)
            (reasons.filter fun reason => Kept (env.str reason)) added) := by
        intro added hadded
        obtain ⟨hkept, hremoved⟩ := resumed_reasons hreasons hadded
          (without ((d.put "resumeEvidence" (.obj evidence)).update (readyEntries evidence)) livePins)
        exact ⟨noLive_withReasons (noLive_pinned evidence) _ _, fun _ => ⟨rfl, d, evidence, hassess, hready⟩, hlive, hkept, hremoved⟩
      have hdecision := Except.ok.inj h
      rw [resumeReady] at hdecision
      split at hdecision
      · cases hdecision
        refine hbefore [canaryReason] ?_
        intro r hr
        rw [List.mem_singleton.mp hr]
        exact repromotion_canary
      · cases hdecision
        refine hbefore [] ?_
        intro r hr
        cases hr
    · rw [if_neg hready] at h
      obtain ⟨blockers, -, h⟩ := bind_eq_ok.mp h
      cases h
      have hadded : ∀ r ∈ [resumeRepromotionReason ++ ": " ++ blockers], Repromotion r := by
        intro r hr
        rw [List.mem_singleton.mp hr]
        exact repromotion_blocked blockers
      have hnodup : (((("paper_trader_verified", .bool false) :: noAuthority : Fields)).map Prod.fst).Nodup := by
        show (["paper_trader_verified", "live_small_eligible", "live_eligible", "live_allowed"] : List String).Nodup
        decide
      obtain ⟨hkept, hremoved⟩ := resumed_reasons hreasons hadded
        (without ((d.put "resumeEvidence" (.obj evidence)).update (("paper_trader_verified", .bool false) :: noAuthority))
          (paperPins ++ livePins))
      refine ⟨?_, ?_, env.papered_le.trans hlive, hkept, hremoved⟩
      · refine noLive_withReasons ?_ _ _
        exact (noLive_update hnodup (by simp [noAuthority]) (by simp [noAuthority]) _).of_at (at_without (by decide) _)
          (at_without (by decide) _)
      · intro hsmall
        rw [at_withReasons (by decide), at_without (by decide), Fields.at_update_of_mem hnodup (List.mem_cons_of_mem _ small_mem_noAuthority)]
          at hsmall
        cases hsmall
  · cases h
    obtain ⟨hkept, hremoved⟩ := resumed_reasons hreasons (fun r (hr : r ∈ ([] : List String)) => absurd hr List.not_mem_nil) (d.update noAuthority)
    refine ⟨?_, ?_, le_rfl, hkept, hremoved⟩
    · exact noLive_withReasons (noLive_update nodup_noAuthority (by simp [noAuthority]) (by simp [noAuthority]) d) _ _
    · intro hsmall
      rw [at_withReasons (by decide), Fields.at_update_of_mem nodup_noAuthority small_mem_noAuthority] at hsmall
      cases hsmall

theorem resume_eq_ok {status : String} (h : resume env call artifact status permissions = .ok (.move target permissions' reason)) :
    status = "paused" ∧ ∃ from_, pausedFrom env artifact permissions = .ok from_ ∧
      Resumed env call permissions from_ target permissions' := by
  by_cases hstatus : status = "paused"
  · rw [resume, if_neg (not_not_intro hstatus)] at h
    obtain ⟨from_, hfrom, h⟩ := bind_eq_ok.mp h
    obtain ⟨reasons, hreasons, h⟩ := bind_eq_ok.mp h
    exact ⟨hstatus, from_, hfrom, resumeFrom_eq_ok hreasons h⟩
  · rw [resume, if_pos hstatus] at h
    cases h

end LiveTrader.StrategyLifecycle
