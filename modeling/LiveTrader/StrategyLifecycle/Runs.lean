/-
# `StrategyLifecycle.Runs` — no sequence of calls raises a strategy

Beside the store a run carries what the strategy was before it was paused: its stage and its reasons.  A pause of a paused strategy keeps
both, because each pause copies the permissions of the one before, and a resume is bounded by them.
-/
import LiveTrader.StrategyLifecycle.Decisions

namespace LiveTrader.StrategyLifecycle

open Lib Lib.Py

/-! ## What a call finds -/

section runs

variable (env : Env)

/-- The artifact and the deployment that a call is about. -/
def found (call : Call) (store : Store) : Option (Artifact × Deployment) :=
  match call.artifact with
  | none => none
  | some artifact =>
    match (ensureLiveDeployment env call artifact store).1 with
    | .ok deployment => some (artifact, deployment)
    | .error _ => none

/-- The permissions of a deployment; none where they are no dictionary. -/
def permissionsOf (deployment : Deployment) : Fields :=
  match (deployment.permissions.orElse (.obj [])).dict with
  | .ok permissions => permissions
  | .error _ => []

/-- A strategy, before it was paused. -/
structure Before where
  status : String
  reasons : List String

/-- What is remembered of the time before the pause, after a call. -/
def remember (call : Call) (store : Store) (before : Option Before) : Option Before :=
  match (setStrategyLifecycleStatus env call store).1 with
  | .raised _ | .refused _ => before
  | .done _ =>
    if actionOf env call.action = some .pause then
      match found env call store with
      | none => before
      | some (artifact, deployment) =>
        if statusOf env artifact deployment = "paused" then before
        else some ⟨statusOf env artifact deployment, reasonsOf env (permissionsOf deployment)⟩
    else none

/-- The calls, one after another. -/
def runCalls (calls : List Call) (state : Store × Option Before) : Store × Option Before :=
  calls.foldl (fun state call => ((setStrategyLifecycleStatus env call state.1).2, remember env call state.1 state.2)) state

/-- The last stage before the pause; a strategy that was found paused names it itself. -/
def lastLifecycle (before : Option Before) (artifact : Artifact) (deployment : Deployment) : String :=
  match before, pausedFrom env artifact (permissionsOf deployment) with
  | some before, _ => before.status
  | none, .ok from_ => env.normalize (.str from_)
  | none, .error _ => ""

/-- What a call leaves that was done: no live authority, and no stage or reason that the strategy did not have. -/
structure Lowered (call : Call) (before : Option Before) (artifact : Artifact) (deployment : Deployment) (action : Action) (target : String)
    (permissions : Fields) : Prop where
  noLive : NoLive permissions
  small : permissions.at "live_small_eligible" = .bool true → action = .resume ∧ target = "before-live-small" ∧
    ∃ assessed evidence, call.assess assessed = .ok evidence ∧ (evidence.at "ready").isTrue = true
  paused : action = .resume → statusOf env artifact deployment = "paused"
  rank : action = .resume → env.rank target ≤ max (env.rank "backtested") (env.rank (lastLifecycle env before artifact deployment))
  removed : action = .resume → ∀ r ∈ reasonsOf env permissions, r ∉ ["lifecycle-paused", "lifecycle-retired"]
  kept : action = .resume → ∀ time ∈ before, ∀ r, Kept r → (r ∈ reasonsOf env permissions ↔ r ∈ time.reasons)

end runs

section steps

variable {env : Env} {call : Call} {artifact : Artifact} {deployment : Deployment} {permissions permissions' : Fields} {action : Action}
  {store : Store} {before : Option Before} {target reason : String}

theorem dict_obj (permissions : Fields) : ((Json.obj permissions).orElse (.obj [])).dict = .ok permissions := by
  cases permissions with
  | nil => rfl
  | cons entry entries => rfl

/-- What a call that was done went through. -/
structure Moved (env : Env) (call : Call) (store : Store) (artifact : Artifact) (deployment : Deployment) (action : Action)
    (permissions : Fields) (target : String) (permissions' : Fields) (reason : String) : Prop where
  action_eq : actionOf env call.action = some action
  found_eq : found env call store = some (artifact, deployment)
  permissions_eq : (deployment.permissions.orElse (.obj [])).dict = .ok permissions
  decision : decisionOf env call artifact action deployment = .ok (.move target permissions' reason)
  left : (setStrategyLifecycleStatus env call store).2 = some (moved call target permissions')

theorem permissionsOf_eq (h : (deployment.permissions.orElse (.obj [])).dict = .ok permissions) : permissionsOf deployment = permissions := by
  rw [permissionsOf, h]

theorem moved_of_done (h : (setStrategyLifecycleStatus env call store).1 = .done reason) :
    ∃ artifact deployment action permissions target permissions',
      Moved env call store artifact deployment action permissions target permissions' reason := by
  rw [setStrategyLifecycleStatus] at h
  split at h
  · cases h
  · next hid =>
    split at h
    · cases h
    · cases h
    · next action artifact haction hartifact =>
      rw [changeFound] at h
      split at h
      · cases h
      · next deployment left hensure =>
        have hfound : found env call store = some (artifact, deployment) := by
          rw [found, hartifact]
          dsimp only
          rw [hensure]
        rw [change] at h
        split at h
        · cases h
        · cases h
        · next target permissions' reason' hdecision =>
          cases h
          obtain ⟨permissions, hpermissions, -⟩ := bind_eq_ok.mp hdecision
          refine ⟨artifact, deployment, action, permissions, target, permissions', haction, hfound, hpermissions, hdecision, ?_⟩
          rw [setStrategyLifecycleStatus, if_neg hid, haction, hartifact]
          dsimp only
          rw [changeFound, hensure]
          dsimp only
          rw [change, hdecision]
          rfl

theorem Moved.stopped_pause (h : Moved env call store artifact deployment .pause permissions target permissions' reason) :
    target = "paused" ∧ Stopped env (remembered (statusOf env artifact deployment) permissions) "paused" permissions' := by
  obtain ⟨_, hpermissions, hdecision⟩ := bind_eq_ok.mp h.decision
  obtain rfl := Except.ok.inj (h.permissions_eq.symm.trans hpermissions)
  exact stop_eq_ok hdecision

theorem Moved.stopped_retire (h : Moved env call store artifact deployment .retire permissions target permissions' reason) :
    target = "retired" ∧ Stopped env permissions "retired" permissions' := by
  obtain ⟨_, hpermissions, hdecision⟩ := bind_eq_ok.mp h.decision
  obtain rfl := Except.ok.inj (h.permissions_eq.symm.trans hpermissions)
  exact stop_eq_ok hdecision

theorem Moved.resumed (h : Moved env call store artifact deployment .resume permissions target permissions' reason) :
    statusOf env artifact deployment = "paused" ∧ ∃ from_, pausedFrom env artifact permissions = .ok from_ ∧
      Resumed env call permissions from_ target permissions' := by
  obtain ⟨_, hpermissions, hdecision⟩ := bind_eq_ok.mp h.decision
  obtain rfl := Except.ok.inj (h.permissions_eq.symm.trans hpermissions)
  exact resume_eq_ok hdecision

/-! ## The time before the pause -/

/-- A paused deployment carries the stage and the reasons from before. -/
structure Remembers (env : Env) (before : Before) (permissions : Fields) : Prop where
  from_ : ∃ from_, permissions.at "pausedFrom" = .str from_ ∧ from_ ≠ "" ∧
    (env.normalize (.str from_) = before.status ∨ env.normalize (.str from_) = "paused")
  inner : ∃ inner, permissions.at "pausedPermissions" = .obj inner ∧ inner ≠ [] ∧
    ∀ r, Kept r → (r ∈ reasonsOf env inner ↔ r ∈ before.reasons)
  reasons : ∀ r, Kept r → (r ∈ reasonsOf env permissions ↔ r ∈ before.reasons)

/-- What a run keeps. -/
def Inv (env : Env) (state : Store × Option Before) : Prop :=
  ∀ before ∈ state.2, ∃ deployment permissions, state.1 = some deployment ∧ deployment.lifecycle = .str "paused" ∧
    deployment.permissions = .obj permissions ∧ Remembers env before permissions

/-- A deployment in the store is the one that is found. -/
theorem found_eq {deployment' : Deployment} (h : found env call (some deployment) = some (artifact, deployment')) :
    deployment' = deployment := by
  rw [found] at h
  split at h
  · cases h
  · cases h
    rfl

theorem reasonsOf_put {key : String} (hkey : key ≠ "fail_reasons") (value : Json) :
    reasonsOf env (permissions.put key value) = reasonsOf env permissions := by
  refine reasonsOf_congr ?_
  rw [Fields.lookup_put, if_neg hkey.symm]

/-- A pause carries on what its permissions have. -/
theorem remembers_of_stopped {status : String} {time : Before} (hname : status ≠ "")
    (hstatus : env.normalize (.str status) = time.status ∨ env.normalize (.str status) = "paused")
    (hreasons : ∀ r, Kept r → (r ∈ reasonsOf env permissions ↔ r ∈ time.reasons))
    (h : Stopped env (remembered status permissions) "paused" permissions') : Remembers env time permissions' := by
  constructor
  case from_ =>
    refine ⟨status, ?_, hname, hstatus⟩
    rw [Fields.at, h.other _ (by decide), remembered, Fields.lookup_put, if_neg (by decide), Fields.lookup_put, if_pos rfl, Option.getD_some]
  case inner =>
    refine ⟨permissions.put "pausedFrom" (.str status), ?_, ?_, ?_⟩
    · rw [Fields.at, h.other _ (by decide), remembered, Fields.lookup_put, if_pos rfl, Option.getD_some]
    · intro hnil
      have hlookup := Fields.lookup_put permissions "pausedFrom" "pausedFrom" (.str status)
      rw [hnil, if_pos rfl] at hlookup
      cases hlookup
    · intro r hkept
      rw [reasonsOf_put (by decide)]
      exact hreasons r hkept
  case reasons =>
    intro r hkept
    rw [h.reasons, remembered, reasonsOf_put (by decide), reasonsOf_put (by decide), hreasons r hkept]
    constructor
    · rintro (hr | rfl)
      · exact hr
      · exact absurd hkept (by decide)
    · exact .inl

/-- A pause keeps what is carried, or begins with the strategy as it is. -/
theorem inv_step (call : Call) {state : Store × Option Before} (hinv : Inv env state) :
    Inv env ((setStrategyLifecycleStatus env call state.1).2, remember env call state.1 state.2) := by
  obtain ⟨store, before⟩ := state
  intro time htime
  dsimp only at htime ⊢
  rw [remember] at htime
  have hcarried : (∀ reason, (setStrategyLifecycleStatus env call store).1 ≠ .done reason) → time ∈ before →
      ∃ deployment permissions, (setStrategyLifecycleStatus env call store).2 = some deployment ∧ deployment.lifecycle = .str "paused" ∧
        deployment.permissions = .obj permissions ∧ Remembers env time permissions := by
    intro hnot hbefore
    obtain ⟨deployment, permissions, hstore, hrest⟩ := hinv time hbefore
    dsimp only at hstore
    subst hstore
    refine ⟨deployment, permissions, ?_, hrest⟩
    rw [setStrategyLifecycleStatus]
    split
    · rfl
    · split
      · rfl
      · rfl
      · next hid _ _ action artifact haction hartifact =>
        have houtcome := hnot
        rw [setStrategyLifecycleStatus, if_neg hid, haction, hartifact] at houtcome
        dsimp only at houtcome
        rw [changeFound] at houtcome ⊢
        rw [ensureLiveDeployment] at houtcome ⊢
        dsimp only at houtcome ⊢
        rw [change] at houtcome ⊢
        split at houtcome
        · rfl
        · rfl
        · next reason _ => exact absurd rfl (houtcome reason)
  cases houtcome : (setStrategyLifecycleStatus env call store).1 with
  | raised e =>
    rw [houtcome] at htime
    exact hcarried (fun reason hdone => by rw [houtcome] at hdone; cases hdone) htime
  | refused reason =>
    rw [houtcome] at htime
    exact hcarried (fun reason hdone => by rw [houtcome] at hdone; cases hdone) htime
  | done reason =>
    obtain ⟨artifact, deployment, action, permissions, target, permissions', hmoved⟩ := moved_of_done houtcome
    rw [houtcome, hmoved.action_eq] at htime
    dsimp only at htime
    cases action with
    | resume | retire =>
      rw [if_neg (by decide)] at htime
      cases htime
    | pause =>
      rw [if_pos rfl, hmoved.found_eq] at htime
      dsimp only at htime
      obtain ⟨rfl, hstopped⟩ := hmoved.stopped_pause
      refine ⟨moved call "paused" permissions', permissions', hmoved.left, rfl, rfl, ?_⟩
      split at htime
      · next hpaused =>
        -- paused again: the permissions are those that an earlier pause left
        obtain ⟨deployment', carried, hstore, -, hpermissions, hremembers⟩ := hinv time htime
        dsimp only at hstore
        subst hstore
        obtain rfl := found_eq hmoved.found_eq
        have hsame := hmoved.permissions_eq
        rw [hpermissions, dict_obj] at hsame
        obtain rfl := Except.ok.inj hsame
        rw [hpaused] at hstopped
        exact remembers_of_stopped (by decide) (.inr (env.normalize_known "paused" (by decide))) hremembers.reasons hstopped
      · obtain rfl := Option.mem_some_iff.mp htime
        refine remembers_of_stopped (env.normalize_ne _) (.inl (env.normalize_again _)) ?_ hstopped
        intro r _
        rw [permissionsOf_eq hmoved.permissions_eq]

theorem inv_run (calls : List Call) {state : Store × Option Before} (hinv : Inv env state) : Inv env (runCalls env calls state) := by
  induction calls generalizing state with
  | nil => exact hinv
  | cons call calls ih => exact ih (inv_step call hinv)

/-! ## Resume -/

theorem resumeTarget_cases (env : Env) (from_ : String) : resumeTarget env from_ = "backtested" ∨ resumeTarget env from_ = env.normalize (.str from_) := by
  rw [resumeTarget]
  split
  · exact .inl rfl
  · exact .inr rfl

theorem resumeTarget_paused {from_ : String} (h : env.normalize (.str from_) = "paused") : resumeTarget env from_ = "backtested" := by
  rw [resumeTarget, h, if_pos (by decide)]

/-- The permissions from before the pause have the reasons from before it. -/
theorem reasonsOf_restored {inner : Fields} (h : permissions.at "pausedPermissions" = .obj inner) (hne : inner ≠ []) (from_ : String) :
    reasonsOf env (restored permissions from_) = reasonsOf env inner := by
  cases inner with
  | nil => exact absurd rfl hne
  | cons entry entries =>
    rw [restored, h]
    dsimp only
    have hput : reasonsOf env (Fields.put (entry :: entries) "pausedFrom" (.str from_)) = reasonsOf env (entry :: entries) :=
      reasonsOf_put (by decide) _
    rw [← hput]
    exact reasonsOf_congr (lookup_without (by decide) _)

theorem pausedFrom_of_str {from_ : String} (h : permissions.at "pausedFrom" = .str from_) (hne : from_ ≠ "") :
    pausedFrom env artifact permissions = .ok from_ := by
  have htruthy : (Json.str from_).truthy = true := by
    simpa [Json.truthy] using hne
  rw [pausedFrom, h, if_pos htruthy]
  rfl

/-- The goal of a resume is not above the last stage before the pause, or it is `backtested`. -/
theorem rank_resumeTarget (hinv : Inv env (store, before)) (hfound : found env call store = some (artifact, deployment))
    (hpermissions : (deployment.permissions.orElse (.obj [])).dict = .ok permissions) {from_ : String}
    (hfrom : pausedFrom env artifact permissions = .ok from_) :
    env.rank (resumeTarget env from_) ≤ max (env.rank "backtested") (env.rank (lastLifecycle env before artifact deployment)) := by
  rw [lastLifecycle.eq_def]
  cases before with
  | none =>
    rw [permissionsOf_eq hpermissions, hfrom]
    dsimp only
    rcases resumeTarget_cases env from_ with htarget | htarget
    · rw [htarget]
      exact le_max_left _ _
    · rw [htarget]
      exact le_max_right _ _
  | some time =>
    obtain ⟨deployment', carried, hstore, -, hcarried, hremembers⟩ := hinv time rfl
    dsimp only at hstore
    subst hstore
    obtain rfl := found_eq hfound
    rw [hcarried, dict_obj] at hpermissions
    obtain rfl := Except.ok.inj hpermissions
    obtain ⟨named, hnamed, hne, hstatus⟩ := hremembers.from_
    rw [pausedFrom_of_str hnamed hne] at hfrom
    obtain rfl := Except.ok.inj hfrom
    dsimp only
    rcases hstatus with hstatus | hstatus
    · rcases resumeTarget_cases env named with htarget | htarget
      · rw [htarget]
        exact le_max_left _ _
      · rw [htarget, hstatus]
        exact le_max_right _ _
    · rw [resumeTarget_paused hstatus]
      exact le_max_left _ _

end steps

/-! ## A sample strategy -/

def sampleStages : List (String × ℤ) :=
  [("draft", 0), ("backtested", 10), ("before-shadow", 20), ("shadowed", 30), ("papered", 40), ("before-live-small", 50), ("live", 60),
    ("paused", -1), ("retired", -1)]

def sampleNormalize : Json → String
  | .str stage => if (sampleStages.lookup stage).isSome then stage else "unknown"
  | _ => "unknown"

theorem sampleNormalize_ne (value : Json) : sampleNormalize value ≠ "" := by
  rw [sampleNormalize.eq_def]
  split
  · next stage =>
    split
    · next hknown =>
      rintro rfl
      exact absurd hknown (by decide)
    · decide
  · decide

theorem sampleNormalize_again (value : Json) : sampleNormalize (.str (sampleNormalize value)) = sampleNormalize value := by
  have hunknown : sampleNormalize (.str "unknown") = "unknown" := by decide
  rw [sampleNormalize.eq_def value]
  split
  · next stage =>
    split
    · next hknown => rw [sampleNormalize, if_pos hknown]
    · exact hunknown
  · exact hunknown

theorem sampleNormalize_known :
    ∀ stage ∈ ["backtested", "papered", "before-live-small", "paused", "retired"], sampleNormalize (.str stage) = stage := by
  decide

def Env.sample : Env where
  normalize := sampleNormalize
  rank stage := (sampleStages.lookup stage).getD (-1)
  normalize_ne := sampleNormalize_ne
  normalize_again := sampleNormalize_again
  normalize_known := sampleNormalize_known
  papered_le := by decide
  repr _ := ""

/-- A strategy that was promoted up to before live. -/
def sampleArtifact : Artifact :=
  ⟨.str "Cross", .str "before-live-small", .obj [("pausedFrom", .str "")], .obj [("fail_reasons", .arr [.str "risk-check-missing"])]⟩

/-- A call while there is no evidence. -/
def sampleCall (action : String) : Call where
  strategyId := .str "S1"
  action := .str action
  artifact := some sampleArtifact
  created := ⟨.str "draft", .str "MONITOR", .obj []⟩
  assess _ := .ok [("ready", .bool false), ("blockers", .arr [])]
  mode := "MONITOR"

end LiveTrader.StrategyLifecycle
