/-
# `CapitalRollout.Check` — the stages of a capital rollout, and the cap of a mode

`build_capital_rollout` reads the evidence of a deployment, caps the notional of each stage and lists what blocks it.  The mapping it
returns repeats the evidence, so that `capital_cap_for_mode` can build it again.

Numbers are exact; `float(text)` and the texts of other objects are left open.

`capital_cap_for_mode` takes any mapping: it reads the evidence, builds the stages again and compares them with those of the mapping.
What does not agree is an integrity blocker, and with one the cap is zero.
-/
import LiveTrader.Lib.Json
import LiveTrader.Lib.UpperCase

namespace LiveTrader.CapitalRollout

open Lib Lib.Py

/-! ## Values -/

/-- A value of a mapping. -/
inductive Value where
  | none
  | bool (b : Bool)
  | int (n : ℤ)
  | float (x : Number)
  | str (s : String)
  | list (items : List Value)
  | dict (fields : List (String × Value))
  /-- Any other object, by its text and its truth. -/
  | other (text : String) (truth : Bool)
  deriving Inhabited

abbrev Fields := Dict String Value

structure Env where
  /-- `float(text)`. -/
  float : String → Option Number
  /-- `str` of a `float`. -/
  repr : Number → String
  /-- `str` of a list or a dictionary. -/
  text : Value → String

section values

variable (env : Env)

/-- `bool(value)`. -/
def Value.truthy : Value → Bool
  | .none => false
  | .bool b => b
  | .int n => n ≠ 0
  | .float x => x ≠ .finite 0
  | .str s => s ≠ ""
  | .list items => !items.isEmpty
  | .dict fields => !fields.isEmpty
  | .other _ truth => truth

/-- `str(value)`. -/
def Env.str : Value → String
  | .none => "None"
  | .bool b => if b then "True" else "False"
  | .int n => toString n
  | .float x => env.repr x
  | .str s => s
  | .list items => env.text (.list items)
  | .dict fields => env.text (.dict fields)
  | .other text _ => text

/-- `str(value or default)`. -/
def Env.strOr (value : Value) (default : String) : String := if value.truthy then env.str value else default

/-- `float(str(value).replace(",", "").strip())`; the text of a number is that number again, those of `None` and of a truth value are
none. -/
def Env.parse : Value → Option Number
  | .none => none
  | .bool _ => none
  | .int n => some (.finite n)
  | .float x => some x
  | .str s => env.float (uncommaed s)
  | .list items => env.float (uncommaed (env.text (.list items)))
  | .dict fields => env.float (uncommaed (env.text (.dict fields)))
  | .other text _ => env.float (uncommaed text)

/-- A finite number of a value. -/
def finite? (value : Value) : Option ℚ :=
  match env.parse value with
  | some (.finite q) => some q
  | _ => none

/-- `_number(value)`. -/
def number (value : Value) : ℚ := (finite? env value).getD 0

/-- `_finite_number`; `None` stands for `(0.0, False)`. -/
def finiteNumber (value : Value) : Option ℚ := finite? env value

/-- `_valid_notional_percent`. -/
def validNotionalPercent (value : Value) : Option ℚ := (finite? env value).filter fun q => 0 ≤ q && q ≤ 100

/-- `_valid_nonnegative_integer`. -/
def validNonnegativeInteger (value : Value) : Option ℤ := ((finite? env value).filter fun q => 0 ≤ q && q.den = 1).map (·.num)

/-- `_valid_nonnegative_number`. -/
def validNonnegativeNumber (value : Value) : Option ℚ := (finite? env value).filter fun q => 0 ≤ q

/-- `value is True`. -/
def Value.isTrue : Value → Bool
  | .bool b => b
  | _ => false

end values

/-! ## Evidence -/

/-- The arguments of `build_capital_rollout`. -/
structure Arguments where
  accountEquity : Value
  availableCash : Value
  maxNotionalPercent : Value
  canaryFills : Value := .int 0
  blockedOrders : Value := .int 0
  observationHours : Value := .int 0
  reconciliationFresh : Value := .bool false
  lineageValid : Value := .bool false
  policyValid : Value := .bool false
  soakStatus : Value := .str ""

/-- The arguments as they are read; `None` where a number is not valid. -/
structure Evidence where
  equity : ℚ
  available : ℚ
  notionalPercent : Option ℚ
  fills : Option ℤ
  blocked : Option ℤ
  hours : Option ℚ
  reconciliation : Bool
  lineage : Bool
  policy : Bool
  soak : String
  deriving DecidableEq

def Arguments.read (env : Env) (a : Arguments) : Evidence where
  equity := max 0 (number env a.accountEquity)
  available := max 0 (number env a.availableCash)
  notionalPercent := validNotionalPercent env a.maxNotionalPercent
  fills := validNonnegativeInteger env a.canaryFills
  blocked := validNonnegativeInteger env a.blockedOrders
  hours := validNonnegativeNumber env a.observationHours
  reconciliation := a.reconciliationFresh.isTrue
  lineage := a.lineageValid.isTrue
  policy := a.policyValid.isTrue
  soak := upper (strip (env.strOr a.soakStatus ""))

/-! ## Stages -/

inductive Stage where
  | canary | smallLive | fullLive
  deriving DecidableEq

/-- `ROLLOUT_STAGE_IDS`. -/
def Stage.all : List Stage := [.canary, .smallLive, .fullLive]

def Stage.id : Stage → String
  | .canary => "CANARY"
  | .smallLive => "SMALL_LIVE"
  | .fullLive => "FULL_LIVE"

def canaryMaxNotionalUsdt : ℚ := 10
def smallLiveMaxNotionalUsdt : ℚ := 25
def minimumCanaryFills : ℤ := 3
def minimumFullLiveFills : ℤ := 20
def minimumFullLiveObservationHours : ℚ := 168

namespace Evidence

variable (e : Evidence)

def policyCap : ℚ :=
  match e.notionalPercent with
  | some percent => min e.available (e.equity * (percent / 100))
  | none => 0

/-- `evidence_bounded_cap`. -/
def boundedCap : ℚ := if e.fills.isSome ∧ e.blocked.isSome ∧ e.hours.isSome then e.policyCap else 0

def cap : Stage → ℚ
  | .canary => min e.boundedCap canaryMaxNotionalUsdt
  | .smallLive => min e.boundedCap smallLiveMaxNotionalUsdt
  | .fullLive => e.boundedCap

def commonBlockers : List String :=
  blocker (e.equity ≤ 0) "account-equity-invalid" ++ blocker (e.available ≤ 0) "available-cash-invalid" ++
  blocker (e.notionalPercent = none) "max-notional-percent-invalid" ++ blocker (e.policy = false) "futures-policy-invalid" ++
  blocker (e.lineage = false) "lineage-invalid" ++ blocker (e.reconciliation = false) "reconciliation-not-fresh" ++
  blocker (e.fills = none) "canary-fills-invalid" ++ blocker (e.blocked = none) "blocked-orders-invalid" ++
  blocker (e.hours = none) "observation-hours-invalid" ++ blocker (0 < e.blocked.getD 0) "blocked-orders-present"

def canaryBlockers : List String := e.commonBlockers ++ blocker (e.cap .canary ≤ 0) "canary-cap-unavailable"

def smallBlockers : List String :=
  e.commonBlockers ++ blocker (e.fills.getD 0 < minimumCanaryFills) "minimum-canary-fills-not-met" ++
  blocker (e.soak ∉ ["PASS", "PASS_WITH_WARNING"]) "soak-not-accepted" ++
  blocker (e.cap .smallLive ≤ 0) "small-live-cap-unavailable"

def fullBlockers : List String :=
  e.smallBlockers ++ blocker (e.fills.getD 0 < minimumFullLiveFills) "minimum-full-live-fills-not-met" ++
  blocker (e.hours.getD 0 < minimumFullLiveObservationHours) "minimum-full-live-observation-not-met" ++
  blocker (e.soak ≠ "PASS") "full-live-requires-clean-soak-pass" ++ blocker (e.cap .fullLive ≤ 0) "full-live-cap-unavailable"

def blockers : Stage → List String
  | .canary => e.canaryBlockers
  | .smallLive => e.smallBlockers
  | .fullLive => e.fullBlockers

def ready (stage : Stage) : Bool := e.blockers stage = []

end Evidence

def Stage.label : Stage → String
  | .canary => "최소 Canary"
  | .smallLive => "Small Live"
  | .fullLive => "Full Live"

def Stage.requirements : Stage → List String
  | .canary => ["유효한 전략 계보·Futures 정책", "최신 계좌·포지션 대조", "주문당 최대 10 USDT와 정책 상한 중 작은 값"]
  | .smallLive =>
    ["동일 artifact·deployment 실제 체결 최소 3건", "차단 주문 0건", "PASS 또는 복구 완료 PASS_WITH_WARNING Soak",
      "주문당 최대 25 USDT와 정책 상한 중 작은 값"]
  | .fullLive =>
    ["실제 체결 최소 20건", "무인 관찰 최소 7일", "경고 없는 clean PASS Soak", "Artifact 최대 명목금액 정책 안에서만 확대"]

/-- A list of texts. -/
def Value.texts (texts : List String) : Value := .list (texts.map .str)

/-- A number of the mapping. -/
def Value.amount (q : ℚ) : Value := .float (.finite q)

/-- A stage of the mapping. -/
def Evidence.stageRow (e : Evidence) (stage : Stage) : Fields :=
  [("id", .str stage.id), ("label", .str stage.label), ("maxNotional", .amount (e.cap stage)), ("ready", .bool (e.ready stage)),
    ("blockers", .texts (e.blockers stage).eraseDups), ("requirements", .texts stage.requirements)]

/-- `ROLLOUT_SCHEMA_VERSION`. -/
def rolloutSchemaVersion : String := "capital-rollout-v1"

/-- The mapping that is returned. -/
def Evidence.toDict (e : Evidence) : Fields :=
  [("schemaVersion", .str rolloutSchemaVersion), ("accountEquity", .amount e.equity), ("availableCash", .amount e.available),
    ("policyMaxNotionalPercent", .amount (e.notionalPercent.getD 0)),
    ("policyMaxNotionalPercentValid", .bool e.notionalPercent.isSome), ("policyCap", .amount e.policyCap),
    ("reconciliationFresh", .bool e.reconciliation), ("lineageValid", .bool e.lineage), ("policyValid", .bool e.policy),
    ("canaryFills", .int (e.fills.getD 0)), ("canaryFillsValid", .bool e.fills.isSome), ("blockedOrders", .int (e.blocked.getD 0)),
    ("blockedOrdersValid", .bool e.blocked.isSome), ("observationHours", .amount (e.hours.getD 0)),
    ("observationHoursValid", .bool e.hours.isSome), ("soakStatus", .str (if e.soak = "" then "NOT_RUN" else e.soak)),
    ("stages", .list (Stage.all.map fun stage => .dict (e.stageRow stage)))]

/-- `build_capital_rollout`. -/
def buildCapitalRollout (env : Env) (a : Arguments) : Fields := (a.read env).toDict

/-! ## What is read -/

/-- `1e-9`. -/
def tolerance : ℚ := 1 / 1000000000

/-- `math.isclose(a, b, rel_tol=1e-9, abs_tol=1e-9)`. -/
def isNear (a b : ℚ) : Bool := isClose a b tolerance tolerance

/-- The fields of a mapping, as they are read. -/
structure Reading where
  equity : Option ℚ
  available : Option ℚ
  policyCap : Option ℚ
  percent : Option ℚ
  percentFlag : Value
  reconciliation : Value
  lineage : Value
  policy : Value
  fills : Option ℚ
  blocked : Option ℚ
  hours : Option ℚ
  fillsFlag : Value
  blockedFlag : Value
  hoursFlag : Value
  soak : Value
  stages : Value

def readFields (env : Env) (rollout : Fields) : Reading where
  equity := finiteNumber env (rollout.get "accountEquity" .none)
  available := finiteNumber env (rollout.get "availableCash" .none)
  policyCap := finiteNumber env (rollout.get "policyCap" .none)
  percent := validNotionalPercent env (rollout.get "policyMaxNotionalPercent" .none)
  percentFlag := rollout.get "policyMaxNotionalPercentValid" .none
  reconciliation := rollout.get "reconciliationFresh" .none
  lineage := rollout.get "lineageValid" .none
  policy := rollout.get "policyValid" .none
  fills := finiteNumber env (rollout.get "canaryFills" .none)
  blocked := finiteNumber env (rollout.get "blockedOrders" .none)
  hours := finiteNumber env (rollout.get "observationHours" .none)
  fillsFlag := rollout.get "canaryFillsValid" .none
  blockedFlag := rollout.get "blockedOrdersValid" .none
  hoursFlag := rollout.get "observationHoursValid" .none
  soak := rollout.get "soakStatus" .none
  stages := rollout.get "stages" .none

/-- `type(value) is bool`. -/
def Value.isBool : Value → Bool
  | .bool _ => true
  | _ => false

/-- `isinstance(value, str)`. -/
def Value.isStr : Value → Bool
  | .str _ => true
  | _ => false

/-- The items of a list, none of any other value. -/
def Value.items : Value → List Value
  | .list items => items
  | _ => []

def Value.isList : Value → Bool
  | .list _ => true
  | _ => false

/-- A mapping. -/
def Value.dict? : Value → Option Fields
  | .dict fields => some fields
  | _ => Option.none

def Value.str? : Value → Option String
  | .str s => some s
  | _ => Option.none

/-- A list of texts. -/
def Value.texts? (value : Value) : Option (List String) := if value.isList then value.items.mapM Value.str? else Option.none

namespace Reading

variable (r : Reading)

/-- `expected_policy_cap`. -/
def expectedPolicyCap : ℚ :=
  match r.equity, r.available, r.percent with
  | some equity, some available, some percent =>
    if 0 ≤ equity ∧ 0 ≤ available ∧ r.percentFlag.isTrue = true then min available (equity * (percent / 100)) else 0
  | _, _, _ => 0

/-- A number that is missing or negative. -/
def negative (value : Option ℚ) : Bool :=
  match value with
  | some q => q < 0
  | none => true

/-- A flag and the number it is about. -/
def flagFails (flag : Value) (valid : Bool) (isZero : Bool) : Bool :=
  match flag with
  | .bool true => !valid
  | .bool false => !valid || !isZero
  | _ => true

/-- A whole number that is not negative. -/
def isCount (value : Option ℚ) : Bool :=
  match value with
  | some q => 0 ≤ q && q.den = 1
  | none => false

def isNonnegative (value : Option ℚ) : Bool :=
  match value with
  | some q => 0 ≤ q
  | none => false

def numberBlockers : List String :=
  blocker (negative r.equity = true) "capital-rollout-account-equity-invalid" ++
  blocker (negative r.available = true) "capital-rollout-available-cash-invalid" ++
  blocker (negative r.policyCap = true) "capital-rollout-policy-cap-invalid" ++
  blocker (flagFails r.percentFlag r.percent.isSome (r.percent = some 0) = true)
    "capital-rollout-max-notional-percent-invalid" ++
  blocker (∃ declared ∈ r.policyCap, 0 ≤ declared ∧ isNear declared r.expectedPolicyCap = false)
    "capital-rollout-policy-cap-stale"

/-- One of the three flags is no truth value, or one does not fit its number. -/
def flagsFail : Bool :=
  if r.fillsFlag.isBool = false ∨ r.blockedFlag.isBool = false ∨ r.hoursFlag.isBool = false then true
  else flagFails r.fillsFlag (isCount r.fills) (r.fills = some 0) || flagFails r.blockedFlag (isCount r.blocked) (r.blocked = some 0) ||
    flagFails r.hoursFlag (isNonnegative r.hours) (r.hours = some 0)

def evidenceBlockers : List String :=
  blocker (r.reconciliation.isBool = false ∨ r.lineage.isBool = false ∨ r.policy.isBool = false)
    "capital-rollout-evidence-invalid" ++
  blocker (r.flagsFail = true) "capital-rollout-evidence-invalid" ++
  blocker (r.soak.isStr = false) "capital-rollout-evidence-invalid"

def stageRows : List Fields := r.stages.items.filterMap Value.dict?

def stageIds (env : Env) : List String := r.stageRows.map fun row => env.strOr (row.get "id" .none) ""

def stagesBlockers (env : Env) : List String :=
  blocker (r.stages.isList = false) "capital-rollout-stages-invalid" ++
  blocker (r.stageRows.length ≠ r.stages.items.length ∨ r.stageRows.length ≠ Stage.all.length ∨
    (∃ id ∈ r.stageIds env, id ∉ Stage.all.map Stage.id) ∨ (∃ id ∈ Stage.all.map Stage.id, id ∉ r.stageIds env) ∨
    ¬(r.stageIds env).Nodup) "capital-rollout-stages-invalid"

/-- `by_id.get(stage_id, {})`; the last row of an id stands. -/
def stageOf (env : Env) (stage : Stage) : Fields :=
  (r.stageRows.reverse.find? fun row => env.strOr (row.get "id" .none) "" = stage.id).getD []

/-! ## The stages, built again -/

/-- A number where its flag is true, else NaN. -/
def flagged (flag : Value) (value : Option ℚ) : Value := if flag.isTrue then .amount (value.getD 0) else .float .nan

/-- The arguments with which the stages are built again. -/
def rebuild : Arguments where
  accountEquity := .amount (r.equity.getD 0)
  availableCash := .amount (r.available.getD 0)
  maxNotionalPercent := flagged r.percentFlag r.percent
  canaryFills := flagged r.fillsFlag r.fills
  blockedOrders := flagged r.blockedFlag r.blocked
  observationHours := flagged r.hoursFlag r.hours
  reconciliationFresh := r.reconciliation
  lineageValid := r.lineage
  policyValid := r.policy
  soakStatus := r.soak

/-- `min(equity, available, declared_policy_cap, expected_policy_cap)`. -/
def least : ℚ := min (min (min (r.equity.getD 0) (r.available.getD 0)) (r.policyCap.getD 0)) r.expectedPolicyCap

/-- The static cap of a stage, with what stands for one at the last stage. -/
def staticCap (full : ℚ) : Stage → ℚ
  | .canary => canaryMaxNotionalUsdt
  | .smallLive => smallLiveMaxNotionalUsdt
  | .fullLive => full

/-- `stage_ceiling`. -/
def stageCeiling (stage : Stage) : ℚ := min (max 0 r.least) (staticCap (max 0 r.least) stage)

/-- `effective_ceiling`. -/
def effectiveCeiling (stage : Stage) : ℚ := max 0 (min r.least (staticCap r.expectedPolicyCap stage))

end Reading

/-- A stage that was built again. -/
structure Canonical where
  ready : Bool
  maxNotional : ℚ
  blockers : List String

def Evidence.canonical (e : Evidence) (stage : Stage) : Canonical := ⟨e.ready stage, e.cap stage, (e.blockers stage).eraseDups⟩

/-- A truth value that is not the one that is expected. -/
def isNotBool (value : Value) (expected : Bool) : Bool :=
  match value with
  | .bool b => b != expected
  | _ => true

/-- What is wrong with a row of the mapping. -/
def rowBlockers (env : Env) (row : Fields) (ceiling : ℚ) (canonical : Option Canonical) : List String :=
  let cap := finiteNumber env (row.get "maxNotional" .none)
  let ready := row.get "ready" .none
  let blockers := (row.get "blockers" .none).texts?
  blocker (Reading.negative cap = true ∨ ceiling + tolerance < cap.getD 0) "capital-rollout-stage-cap-invalid" ++
  blocker (ready.isBool = false ∨ blockers = none) "capital-rollout-stage-invalid" ++
  blocker (∃ expected ∈ canonical, isNotBool ready expected.ready = true ∨ isNear (cap.getD 0) expected.maxNotional = false ∨
    blockers ≠ some expected.blockers) "capital-rollout-stage-stale"

/-! ## The cap -/

/-- What is returned, with the blockers of the mapping itself. -/
structure Outcome where
  stage : Stage
  ready : Bool
  maxNotional : ℚ
  blockers : List String
  integrity : List String
  deriving DecidableEq

/-- `normalized_mode`. -/
def modeText (env : Env) (mode : Value) : String := upper (strip (env.strOr mode "MONITOR"))

/-- The blockers that are found before the stages are built again. -/
def earlyBlockers (env : Env) (rollout : Value) (mode : Value) : List String :=
  let fields := rollout.dict?.getD []
  let r := readFields env fields
  blocker (rollout.dict? = none) "capital-rollout-structure-invalid" ++
  blocker ((fields.get "schemaVersion" .none).str? ≠ some rolloutSchemaVersion) "capital-rollout-schema-invalid" ++
  blocker (modeText env mode ∉ ["SMALL_LIVE", "FULL_LIVE"]) "capital-rollout-mode-invalid" ++
  r.numberBlockers ++ r.evidenceBlockers ++ r.stagesBlockers env

/-- The stages that are built again, where nothing is wrong so far. -/
def canonicalEvidence (env : Env) (rollout mode : Value) : Option Evidence :=
  if earlyBlockers env rollout mode = [] then some ((readFields env (rollout.dict?.getD [])).rebuild.read env) else none

/-- The stage of a mode; `SMALL_LIVE` begins under the cap of the canary. -/
def targetOf (env : Env) (mode : Value) (canonical : Option Evidence) : Stage :=
  if modeText env mode = "FULL_LIVE" then .fullLive
  else if modeText env mode = "SMALL_LIVE" ∧ ∃ e ∈ canonical, e.ready .smallLive = true then .smallLive
  else .canary

/-- What is wrong with the stages. -/
def stageBlockers (env : Env) (r : Reading) (canonical : Option Evidence) : List String :=
  match canonical with
  | some e => Stage.all.flatMap fun stage => rowBlockers env (r.stageOf env stage) (r.stageCeiling stage) (some (e.canonical stage))
  | none => []

/-- `capital_cap_for_mode`. -/
def capitalCapForMode (env : Env) (rollout mode : Value) : Outcome :=
  let r := readFields env (rollout.dict?.getD [])
  let canonical := canonicalEvidence env rollout mode
  let target := targetOf env mode canonical
  let row := r.stageOf env target
  let ceiling := r.effectiveCeiling target
  let integrity := earlyBlockers env rollout mode ++ stageBlockers env r canonical ++
    rowBlockers env row ceiling (canonical.map (·.canonical target))
  {
    stage := target
    ready := integrity = [] && (row.get "ready" .none).isTrue
    maxNotional := if integrity = [] then min (max 0 ((finiteNumber env (row.get "maxNotional" .none)).getD 0)) ceiling else 0
    blockers := ((((row.get "blockers" .none).items.map env.str) ++ integrity).filter (· ≠ "")).eraseDups
    integrity := integrity }

end LiveTrader.CapitalRollout
