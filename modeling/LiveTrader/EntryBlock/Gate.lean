/-
# `EntryBlock.Gate` — the switch that stops new entries

`STATE["new_entries_blocked"]`, the flags around it, and the operations that write it: the restore
of a checkpoint, a recovery drill, the end of a dispatch, a change of the environment settings, the
refresh of the account risk budget and `set_flag`.

A number is of any type with an order: nothing here is computed with it, and it is compared once,
with the daily loss limit.  `float(value)` is a parameter, and what the operations ask others for
(the governance of the functional tests, the safety confirmations, the emergency latch, the ledger,
the settings file) comes with the call.
-/
import LiveTrader.Lib.Json
import LiveTrader.Lib.Runs

namespace LiveTrader.EntryBlock

open Lib Lib.Py Lib.Runs

/-! ## State -/

/-- What set the block. -/
inductive Cause where
  | restored
  | drillFailed
  | checkpointFailed
  | identityChanged
  | changedWhileExposed
  | manual
  | dailyLoss
  | killSwitch
  | brokerTruth
  deriving DecidableEq, Repr

/-- The flags of `STATE` that decide about new entries. -/
structure State (F : Type) where
  newEntriesBlocked : Bool
  manualNewEntriesBlocked : Bool
  killSwitch : Bool
  killSwitchRearmRequired : Bool
  brokerTruthBlocked : Bool
  dailyLossGateTripped : Bool
  dailyLossEntriesBlocked : Bool
  dryRun : Bool
  operatorConfirmed : Bool
  /-- `float(STATE["risk_settings"]["daily_loss_limit_pct"])`. -/
  dailyLossLimitPct : F
  accountRisk : Json
  /-- What has set the block since it was last released with a confirmation. -/
  causes : List Cause

/-- What the operations are built on. -/
structure Env (F : Type) where
  /-- `float(value)`. -/
  float : Json → Result F

variable {F : Type}

namespace State

/-- `STATE["new_entries_blocked"] = True`. -/
def block (s : State F) (cause : Cause) : State F :=
  { s with newEntriesBlocked := true, causes := cause :: s.causes }

end State

/-! ## Restores, drills and dispatches -/

/-- `restore_runtime_from_checkpoint`, with a valid checkpoint or without one. -/
def restoreRuntimeFromCheckpoint (s : State F) : State F := { s with dryRun := true }.block .restored

/-- `run_recovery_drill`, by the status of its assurance. -/
def runRecoveryDrill (s : State F) (status : String) : State F :=
  if status ≠ "pass" then s.block .drillFailed else s

/-- The `finally` of `dispatch_live_order_with_checkpoint`, by what `update_order_dispatch` answers. -/
def finishDispatch (s : State F) : Result Bool → State F
  | .ok true => s
  | .ok false | .error (.os _) | .error (.integrity _) | .error (.value _) => s.block .checkpointFailed
  -- any other exception leaves the `finally` before the block is set
  | .error _ => s

/-! ## Settings -/

structure EnvSettingField where
  /-- `field.kind == "secret"`. -/
  secret : Bool
  default : String

/-- What `save_environment_settings` asks for. -/
structure SettingsWorld where
  /-- `ENV_SETTING_FIELDS`, by their keys. -/
  fields : Dict String EnvSettingField
  binanceFunctionalOpen : Bool
  upbitFunctionalOpen : Bool
  realOrdersEnabled : Bool
  /-- The values of the snapshot, as texts. -/
  before : Dict String String
  /-- `save_env_settings`: the values after it. -/
  saved : Result (Dict String String)
  liveExposureActive : Bool

/-- What an operation returns. -/
structure Reply where
  ok : Bool
  reason : String
  changedKeys : List String
  deriving DecidableEq, Repr

def binanceIdentityKeys : List String :=
  ["BINANCE_API_KEY", "BINANCE_API_SECRET", "BINANCE_BASE_URL", "BINANCE_FUTURES_BASE_URL",
    "LIVE_TRADER_ENABLE_REAL_ORDERS"]

def upbitIdentityKeys : List String := ["UPBIT_ACCESS_KEY", "UPBIT_SECRET_KEY", "UPBIT_BASE_URL"]

/-- The values are the texts of `raw_value or ""`. -/
abbrev Submitted := Dict String String

namespace SettingsWorld

/-- The submitted value differs from the one in force. -/
def plansIdentityChange (world : SettingsWorld) (key value : String) : Bool :=
  match world.fields.lookup key with
  | none => false
  | some field =>
    key != "LIVE_TRADER_ENABLE_REAL_ORDERS" &&
      if field.secret then strip value != ""
      else
        let current := world.before.get key ""
        strip value != strip (if current = "" then field.default else current)

def plannedIdentityChanges (world : SettingsWorld) (submitted : Submitted) : List String :=
  (submitted.filter fun e => world.plansIdentityChange e.1 e.2).map Prod.fst

/-- The submitted value was stored. -/
def changed (world : SettingsWorld) (after : Dict String String) (key value : String) : Bool :=
  match world.fields.lookup key with
  | none => false
  | some field =>
    if field.secret then strip value != "" else world.before.get key "" != after.get key ""

def changedKeys (world : SettingsWorld) (after : Dict String String) (submitted : Submitted) : List String :=
  (submitted.filter fun e => world.changed after e.1 e.2).map Prod.fst

/-- A functional test in progress keeps the identity and the order permission. -/
def refusal? (world : SettingsWorld) (submitted : Submitted) : Option String :=
  if world.binanceFunctionalOpen && submitted.any (fun e => e.1 ∈ binanceIdentityKeys) then
    some "binance-functional-session-blocks-global-order-or-identity-change"
  else if world.upbitFunctionalOpen && (submitted.any (fun e => e.1 ∈ upbitIdentityKeys) ||
      lower (strip (submitted.get "LIVE_TRADER_ENABLE_REAL_ORDERS" "")) ∈ ["true", "1", "yes", "on"]) then
    some "upbit-functional-session-blocks-global-order-or-identity-change"
  else if (submitted.lookup "LIVE_TRADER_ENABLE_REAL_ORDERS").isSome then
    some "실거래 권한은 설정 저장이 아니라 실행 시작 시 확인합니다."
  else none

end SettingsWorld

/-- The broker's identity changes while real orders are enabled. -/
def forceDisable (s : State F) : State F :=
  { s with manualNewEntriesBlocked := true, dryRun := true, operatorConfirmed := false }.block .identityChanged

def saveEnvironmentSettings (s : State F) (submitted : Submitted) (world : SettingsWorld) :
    State F × Result Reply :=
  match world.refusal? submitted with
  | some reason => (s, .ok ⟨false, reason, []⟩)
  | none =>
    match world.saved with
    | .error e => (s, .error e)
    | .ok after =>
      let forced := world.realOrdersEnabled && !(world.plannedIdentityChanges submitted).isEmpty
      let changedKeys := world.changedKeys after submitted
      let s := if forced then forceDisable s else s
      let s := if !changedKeys.isEmpty && world.liveExposureActive then s.block .changedWhileExposed else s
      (s, .ok ⟨true, "environment settings saved", changedKeys⟩)

/-! ## The daily loss -/

section budget

variable [Zero F] [LE F] [DecidableLE F] (env : Env F)

/-- `safe_float(value, fallback)`. -/
def safeFloat (value : Json) (fallback : F) : Result F :=
  match env.float value with
  | .error (.type _) | .error (.value _) => .ok fallback
  | answer => answer

/-- The worst result of the day in a row of the budget. -/
def dailyPnlPct (row : Fields) : Result F := do
  let daily ← safeFloat env (row.at "daily_pnl_pct") 0
  safeFloat env (row.at "minimum_daily_pnl_pct") daily

/-- Whether a row is at or below the limit, looked for from the first row on. -/
def anyTripped (limit : F) : List Json → Result Bool
  | [] => .ok false
  | .obj row :: rows => do
    let pnl ← dailyPnlPct env row
    if pnl ≤ limit then .ok true else anyTripped limit rows
  | _ :: rows => anyTripped limit rows

/-- The rows of a budget, none where there is no dictionary of them. -/
def budgetRows (budget : Fields) : List Json :=
  match budget.at "budgets" with
  | .obj rows => rows.map Prod.snd
  | _ => []

/-- What a refresh makes of the flags, by whether the gate has tripped. -/
def applyDailyLoss (s : State F) (tripped : Bool) : State F :=
  let s := { s with dailyLossGateTripped := tripped }
  if tripped then { s with dailyLossEntriesBlocked := true }.block .dailyLoss
  else if s.dailyLossEntriesBlocked then
    let s := { s with dailyLossEntriesBlocked := false }
    if !s.killSwitch && !s.manualNewEntriesBlocked && !s.brokerTruthBlocked then
      { s with newEntriesBlocked := false }
    else s
  else s

def weighBudget (s : State F) (budget : Fields) : State F × Result Fields :=
  let s := { s with accountRisk := .obj budget }
  match anyTripped env s.dailyLossLimitPct (budgetRows budget) with
  | .error e => (s, .error e)
  | .ok tripped => (applyDailyLoss s tripped, .ok budget)

/-- The budget before, with the error of this one. -/
def failedBudget (s : State F) (msg : String) : Fields :=
  Fields.put ((s.accountRisk.fields?).getD []) "error" (.str (String.ofList (msg.toList.take 240)))

/-- `refresh_account_risk_budget`, by what `update_account_risk_budget` answers. -/
def refreshAccountRiskBudget (s : State F) : Result Fields → State F × Result Fields
  | .ok budget => weighBudget env s budget
  | .error (.os msg) => weighBudget env s (failedBudget s msg)
  | .error e => (s, .error e)

end budget

/-! ## Flags -/

/-- The flags `set_flag` knows. -/
inductive Flag where
  | killSwitch
  | newEntriesBlocked
  | operatorConfirmed
  | dryRun
  deriving DecidableEq, Repr

def Flag.ofName? : String → Option Flag
  | "kill_switch" => some .killSwitch
  | "new_entries_blocked" => some .newEntriesBlocked
  | "operator_confirmed" => some .operatorConfirmed
  | "dry_run" => some .dryRun
  | _ => none

/-- What `set_flag` asks for: each answer is whether it is ok, and the reason it gives. -/
structure FlagWorld where
  upbitFunctionalOpen : Bool
  binanceFunctionalOpen : Bool
  emergencyStopActive : Bool
  /-- `consume_safety_confirmation` for the release of this flag. -/
  challenge : Bool × String
  engage : Bool × String
  clear : Bool × String

/-- Turning the flag off takes a protection away. -/
def riskyRelease (s : State F) (flag : Flag) (value : Bool) (world : FlagWorld) : Bool :=
  !value && match flag with
    | .killSwitch => s.killSwitch || world.emergencyStopActive
    | .newEntriesBlocked => s.newEntriesBlocked
    | .dryRun => s.dryRun
    | .operatorConfirmed => false

def Flag.label : Flag → String
  | .killSwitch => "Kill Switch 해제"
  | .newEntriesBlocked => "신규 진입 차단 해제"
  | .dryRun => "Dry Run 보호 해제"
  | .operatorConfirmed => ""

/-- The value is stored; a release of the entry block forgets what had set it. -/
def State.store (s : State F) (value : Bool) : Flag → State F
  | .killSwitch => { s with killSwitch := value }
  | .newEntriesBlocked =>
    { s with
      newEntriesBlocked := value
      manualNewEntriesBlocked := value
      causes := if value then .manual :: s.causes else if s.newEntriesBlocked then [] else s.causes }
  | .operatorConfirmed => { s with operatorConfirmed := value }
  | .dryRun => { s with dryRun := value }

/-- `x or default`, for texts. -/
def orText (text default : String) : String := if text = "" then default else text

/-- The part of `set_flag` after its refusals. -/
def commitFlag (s : State F) (flag : Flag) (value : Bool) (world : FlagWorld) : State F × Reply :=
  match flag, value with
  | .killSwitch, true =>
    (s.store true .killSwitch, ⟨world.engage.1,
      if world.engage.1 then "flag changed" else orText world.engage.2 "emergency-stop-write-failed", []⟩)
  | .killSwitch, false =>
    if world.clear.1 then (s.store false .killSwitch, ⟨true, "flag changed", []⟩)
    else ({ s with killSwitch := true, killSwitchRearmRequired := true },
      ⟨false, orText world.clear.2 "emergency-stop-release-failed", []⟩)
  | flag, value => (s.store value flag, ⟨true, "flag changed", []⟩)

def setFlag (s : State F) (name : String) (value confirmed : Bool) (world : FlagWorld) : State F × Reply :=
  match Flag.ofName? name with
  | none => (s, ⟨false, "unknown flag", []⟩)
  | some flag =>
    if flag = .newEntriesBlocked ∧ value = false ∧ world.upbitFunctionalOpen = true then
      (s, ⟨false, "upbit-functional-session-keeps-new-entries-blocked", []⟩)
    else if flag = .newEntriesBlocked ∧ value = false ∧ world.binanceFunctionalOpen = true then
      (s, ⟨false, "binance-functional-session-keeps-new-entries-blocked", []⟩)
    else if riskyRelease s flag value world ∧ confirmed = false then
      (s, ⟨false, flag.label ++ "는 명시 확인이 필요합니다.", []⟩)
    else if riskyRelease s flag value world ∧ world.challenge.1 = false then
      (s, ⟨false, orText world.challenge.2 "safety-confirmation-required", []⟩)
    else commitFlag s flag value world

/-! ## Operations -/

inductive Op where
  | restore
  | drill (status : String)
  | finishDispatch (saved : Result Bool)
  | saveSettings (submitted : Submitted) (world : SettingsWorld)
  | refresh (answer : Result Fields)
  | setFlag (name : String) (value confirmed : Bool) (world : FlagWorld)

/-- What an operation makes of the state. -/
def apply [Zero F] [LE F] [DecidableLE F] (env : Env F) (s : State F) : Op → State F
  | .restore => restoreRuntimeFromCheckpoint s
  | .drill status => runRecoveryDrill s status
  | .finishDispatch saved => EntryBlock.finishDispatch s saved
  | .saveSettings submitted world => (saveEnvironmentSettings s submitted world).1
  | .refresh answer => (refreshAccountRiskBudget env s answer).1
  | .setFlag name value confirmed world => (EntryBlock.setFlag s name value confirmed world).1

/-- Every operation can be called in every state. -/
def step [Zero F] [LE F] [DecidableLE F] (env : Env F) (s : State F) (op : Op) : Option (State F) :=
  some (apply env s op)

end LiveTrader.EntryBlock
