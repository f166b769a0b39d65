/-
# `EntryBlock.Lift` — what lifts the entry block

The block is lifted by a release that consumed a confirmation, or by the recovery of the daily loss.
The recovery looks at three flags, and some causes of a block leave none of them: a restore, a
failed drill, a failed checkpoint, a change of the settings during live exposure.  In every run in
which no recovery meets such a cause, the block is lifted only when everything that set it is gone
(`blockKept_of_run`); a failed drill between a loss and its recovery is forgotten
(`sample_drill_forgotten`).
-/
import LiveTrader.EntryBlock.Gate

namespace LiveTrader.EntryBlock

open Lib Lib.Py Lib.Runs

variable {F : Type} {env : Env F} {s t : State F}

/-! ## What is claimed -/

/-- A release of the block that was confirmed, and whose confirmation was consumed. -/
def Op.Releases : Op → Prop
  | .setFlag name value confirmed world =>
    name = "new_entries_blocked" ∧ value = false ∧ confirmed = true ∧ world.challenge.1 = true
  | _ => False

/-- A refresh after a daily loss, and only the daily loss has set the block. -/
def Op.Recovers (s : State F) : Op → Prop
  | .refresh _ => s.dailyLossEntriesBlocked = true ∧ ∀ cause ∈ s.causes, cause = .dailyLoss
  | _ => False

section claim

variable [Zero F] [LE F] [DecidableLE F]

variable (env) in
/-- The row is at or below the limit. -/
def AtLimit (limit : F) : Json → Prop
  | .obj row => ∃ pnl, dailyPnlPct env row = .ok pnl ∧ pnl ≤ limit
  | _ => False

variable (env) in
/-- The block is lifted only when every cause of it is gone. -/
structure BlockKept (s : State F) (op : Op) : Prop where
  lifted : s.newEntriesBlocked = true → (apply env s op).newEntriesBlocked = false → op.Releases ∨ op.Recovers s
  /-- A refresh that returns a budget with a row at or below the limit leaves entries blocked. -/
  held : ∀ answer budget row, op = .refresh answer → (refreshAccountRiskBudget env s answer).2 = .ok budget →
    row ∈ budgetRows budget → AtLimit env s.dailyLossLimitPct row → (apply env s op).newEntriesBlocked = true

end claim

/-! ## The condition -/

/-- No flag tells that this set the block. -/
def Cause.silent : Cause → Bool
  | .restored | .drillFailed | .checkpointFailed | .changedWhileExposed | .killSwitch => true
  | .identityChanged | .manual | .dailyLoss | .brokerTruth => false

/-- The budget a refresh weighs. -/
def weighed (s : State F) : Result Fields → Option Fields
  | .ok budget => some budget
  | .error (.os msg) => some (failedBudget s msg)
  | .error _ => none

section condition

variable [Zero F] [LE F] [DecidableLE F]

variable (env) in
/-- The refresh finds no row at the limit and none of its three flags. -/
def FindsRecovered (s : State F) (answer : Result Fields) : Prop :=
  (∃ budget, weighed s answer = some budget ∧
    anyTripped env s.dailyLossLimitPct (budgetRows budget) = .ok false) ∧
  s.dailyLossEntriesBlocked = true ∧ s.killSwitch = false ∧ s.manualNewEntriesBlocked = false ∧
  s.brokerTruthBlocked = false

variable (env) in
/-- A refresh that finds the daily loss recovered meets no silent cause. -/
def Meets (s : State F) : Op → Prop
  | .refresh answer => FindsRecovered env s answer → ∀ cause ∈ s.causes, cause.silent = false
  | _ => True

end condition

/-! ## The invariant -/

/-- The causes with a flag have it. -/
structure Consistent (s : State F) : Prop where
  blocked : s.manualNewEntriesBlocked = true → s.newEntriesBlocked = true
  manual : Cause.manual ∈ s.causes → s.manualNewEntriesBlocked = true
  identity : Cause.identityChanged ∈ s.causes → s.manualNewEntriesBlocked = true
  truth : Cause.brokerTruth ∈ s.causes → s.brokerTruthBlocked = true

/-- Without the flags, and without a silent cause, only the daily loss is left. -/
theorem Consistent.eq_dailyLoss (h : Consistent s) (hmanual : s.manualNewEntriesBlocked = false)
    (htruth : s.brokerTruthBlocked = false) (hsilent : ∀ cause ∈ s.causes, cause.silent = false) :
    ∀ cause ∈ s.causes, cause = .dailyLoss := by
  intro cause hcause
  have hnot := hsilent cause hcause
  cases cause with
  | dailyLoss => rfl
  | manual => exact absurd (h.manual hcause) (by rw [hmanual]; exact Bool.false_ne_true)
  | identityChanged => exact absurd (h.identity hcause) (by rw [hmanual]; exact Bool.false_ne_true)
  | brokerTruth => exact absurd (h.truth hcause) (by rw [htruth]; exact Bool.false_ne_true)
  | restored => exact absurd hnot (by decide)
  | drillFailed => exact absurd hnot (by decide)
  | checkpointFailed => exact absurd hnot (by decide)
  | changedWhileExposed => exact absurd hnot (by decide)
  | killSwitch => exact absurd hnot (by decide)

/-- A block whose cause has no flag of its own. -/
theorem Consistent.block (h : Consistent s) (cause : Cause) (hmanual : cause ≠ .manual)
    (hidentity : cause ≠ .identityChanged) (htruth : cause ≠ .brokerTruth) : Consistent (s.block cause) where
  blocked _ := rfl
  manual hmem := h.manual ((List.mem_cons.mp hmem).resolve_left hmanual.symm)
  identity hmem := h.identity ((List.mem_cons.mp hmem).resolve_left hidentity.symm)
  truth hmem := h.truth ((List.mem_cons.mp hmem).resolve_left htruth.symm)

theorem Consistent.congr (h : Consistent s) (hblocked : t.newEntriesBlocked = s.newEntriesBlocked)
    (hmanual : t.manualNewEntriesBlocked = s.manualNewEntriesBlocked)
    (htruth : t.brokerTruthBlocked = s.brokerTruthBlocked) (hcauses : t.causes = s.causes) : Consistent t where
  blocked := by rw [hblocked, hmanual]; exact h.blocked
  manual := by rw [hcauses, hmanual]; exact h.manual
  identity := by rw [hcauses, hmanual]; exact h.identity
  truth := by rw [hcauses, htruth]; exact h.truth

/-! ## The daily loss -/

section budget

variable [Zero F] [LE F] [DecidableLE F]

/-- A row at the limit is found, or the search raises. -/
theorem anyTripped_of_atLimit {limit : F} {rows : List Json} {row : Json} {tripped : Bool}
    (h : anyTripped env limit rows = .ok tripped) (hrow : row ∈ rows) (hlimit : AtLimit env limit row) :
    tripped = true := by
  induction rows with
  | nil => exact absurd hrow List.not_mem_nil
  | cons first rows ih =>
    cases first with
    | obj fields =>
      rw [anyTripped] at h
      obtain ⟨pnl, hpnl, h⟩ := bind_eq_ok.mp h
      split at h
      · exact (Except.ok.inj h).symm
      · next habove =>
        rcases List.mem_cons.mp hrow with rfl | hrow
        · obtain ⟨pnl', hpnl', hle⟩ := hlimit
          obtain rfl := Except.ok.inj (hpnl.symm.trans hpnl')
          exact absurd hle habove
        · exact ih h hrow
    | _ =>
      rcases List.mem_cons.mp hrow with rfl | hrow
      · exact hlimit.elim
      · exact ih h hrow

/-- What a refresh does: it raises with the flags as they were, or it weighs a budget. -/
theorem refresh_cases (env : Env F) (s : State F) (answer : Result Fields) :
    (∃ risk e, refreshAccountRiskBudget env s answer = ({ s with accountRisk := risk }, .error e)) ∨
    ∃ budget tripped, weighed s answer = some budget ∧
      anyTripped env s.dailyLossLimitPct (budgetRows budget) = .ok tripped ∧
      refreshAccountRiskBudget env s answer =
        (applyDailyLoss { s with accountRisk := .obj budget } tripped, .ok budget) := by
  have hweigh : ∀ budget, (∃ risk e, weighBudget env s budget = ({ s with accountRisk := risk }, .error e)) ∨
      ∃ tripped, anyTripped env s.dailyLossLimitPct (budgetRows budget) = .ok tripped ∧
        weighBudget env s budget = (applyDailyLoss { s with accountRisk := .obj budget } tripped, .ok budget) := by
    intro budget
    rw [weighBudget]
    dsimp only
    cases htripped : anyTripped env s.dailyLossLimitPct (budgetRows budget) with
    | error e => exact .inl ⟨_, e, rfl⟩
    | ok tripped => exact .inr ⟨tripped, rfl, rfl⟩
  cases answer with
  | ok budget =>
    rcases hweigh budget with hraised | ⟨tripped, htripped, heq⟩
    · exact .inl hraised
    · exact .inr ⟨budget, tripped, rfl, htripped, heq⟩
  | error e =>
    cases e with
    | os msg =>
      rcases hweigh (failedBudget s msg) with hraised | ⟨tripped, htripped, heq⟩
      · exact .inl hraised
      · exact .inr ⟨_, tripped, rfl, htripped, heq⟩
    | _ => exact .inl ⟨s.accountRisk, _, rfl⟩

end budget

theorem applyDailyLoss_cases (s : State F) (tripped : Bool) :
    (tripped = true ∧ applyDailyLoss s tripped =
      { s with dailyLossGateTripped := true, dailyLossEntriesBlocked := true }.block .dailyLoss) ∨
    (tripped = false ∧ s.dailyLossEntriesBlocked = true ∧ s.killSwitch = false ∧
      s.manualNewEntriesBlocked = false ∧ s.brokerTruthBlocked = false ∧ applyDailyLoss s tripped =
      { s with dailyLossGateTripped := false, dailyLossEntriesBlocked := false, newEntriesBlocked := false }) ∨
    (tripped = false ∧ ∃ flag, applyDailyLoss s tripped =
      { s with dailyLossGateTripped := false, dailyLossEntriesBlocked := flag }) := by
  cases tripped with
  | true => exact .inl ⟨rfl, rfl⟩
  | false =>
    refine .inr ?_
    rw [applyDailyLoss]
    simp only [Bool.false_eq_true, if_false]
    split
    · next hdaily =>
      split
      · next hclear =>
        simp only [Bool.and_eq_true, Bool.not_eq_true'] at hclear
        exact .inl ⟨trivial, hdaily, hclear.1.1, hclear.1.2, hclear.2, rfl⟩
      · exact .inr ⟨trivial, false, rfl⟩
    · exact .inr ⟨trivial, s.dailyLossEntriesBlocked, rfl⟩

theorem Consistent.dailyLoss (h : Consistent s) (tripped : Bool) :
    Consistent (applyDailyLoss s tripped) := by
  rcases applyDailyLoss_cases s tripped with ⟨-, heq⟩ | ⟨-, -, -, hmanual, -, heq⟩ | ⟨-, flag, heq⟩
  · rw [heq]
    have hset : Consistent { s with dailyLossGateTripped := true, dailyLossEntriesBlocked := true } :=
      h.congr rfl rfl rfl rfl
    exact hset.block .dailyLoss (by decide) (by decide) (by decide)
  · rw [heq]
    refine ⟨fun hset => ?_, h.manual, h.identity, h.truth⟩
    rw [hmanual] at hset
    exact absurd hset Bool.false_ne_true
  · rw [heq]
    exact h.congr rfl rfl rfl rfl

/-! ## Flags -/

theorem Flag.ofName?_eq {name : String} (h : Flag.ofName? name = some .newEntriesBlocked) :
    name = "new_entries_blocked" := by
  rw [ofName?.eq_def] at h
  split at h
  · cases h
  · rfl
  · cases h
  · cases h
  · cases h

/-- What `set_flag` does to the block. -/
theorem setFlag_cases (s : State F) (name : String) (value confirmed : Bool) (world : FlagWorld) :
    (name = "new_entries_blocked" ∧ (s.newEntriesBlocked = true → value = false →
        confirmed = true ∧ world.challenge.1 = true) ∧
      (setFlag s name value confirmed world).1 = s.store value .newEntriesBlocked) ∨
    ((setFlag s name value confirmed world).1.newEntriesBlocked = s.newEntriesBlocked ∧
      (setFlag s name value confirmed world).1.manualNewEntriesBlocked = s.manualNewEntriesBlocked ∧
      (setFlag s name value confirmed world).1.brokerTruthBlocked = s.brokerTruthBlocked ∧
      (setFlag s name value confirmed world).1.causes = s.causes) := by
  rw [setFlag]
  split
  · exact .inr ⟨rfl, rfl, rfl, rfl⟩
  · next flag hflag =>
    split
    · exact .inr ⟨rfl, rfl, rfl, rfl⟩
    · split
      · exact .inr ⟨rfl, rfl, rfl, rfl⟩
      · split
        · exact .inr ⟨rfl, rfl, rfl, rfl⟩
        · next hconfirmed =>
          split
          · exact .inr ⟨rfl, rfl, rfl, rfl⟩
          · next hconsumed =>
            cases flag with
            | newEntriesBlocked =>
              refine .inl ⟨Flag.ofName?_eq hflag, fun hblocked hvalue => ?_, by cases value <;> rfl⟩
              have hrisky : riskyRelease s .newEntriesBlocked value world = true := by
                rw [riskyRelease, hvalue, hblocked]; rfl
              exact ⟨Bool.eq_true_of_not_eq_false fun hno => hconfirmed ⟨hrisky, hno⟩,
                Bool.eq_true_of_not_eq_false fun hno => hconsumed ⟨hrisky, hno⟩⟩
            | killSwitch =>
              cases value with
              | true => exact .inr ⟨rfl, rfl, rfl, rfl⟩
              | false =>
                refine .inr ?_
                rw [commitFlag]
                split <;> exact ⟨rfl, rfl, rfl, rfl⟩
            | operatorConfirmed => exact .inr (by cases value <;> exact ⟨rfl, rfl, rfl, rfl⟩)
            | dryRun => exact .inr (by cases value <;> exact ⟨rfl, rfl, rfl, rfl⟩)

theorem Consistent.setFlag (h : Consistent s) (name : String) (value confirmed : Bool) (world : FlagWorld) :
    Consistent (setFlag s name value confirmed world).1 := by
  rcases setFlag_cases s name value confirmed world with ⟨-, -, heq⟩ | ⟨hblocked, hmanual, htruth, hcauses⟩
  · rw [heq]
    cases value with
    | true =>
      refine ⟨fun _ => rfl, fun _ => rfl, fun _ => rfl, fun hmem => h.truth ?_⟩
      exact (List.mem_cons.mp hmem).resolve_left (by decide)
    | false =>
      cases hset : s.newEntriesBlocked with
      | true =>
        have hcauses : (s.store false .newEntriesBlocked).causes = [] := by
          rw [State.store]
          simp only [Bool.false_eq_true, if_false, hset, if_true]
        exact ⟨fun hno => absurd hno Bool.false_ne_true, by rw [hcauses]; exact fun hmem => absurd hmem List.not_mem_nil,
          by rw [hcauses]; exact fun hmem => absurd hmem List.not_mem_nil,
          by rw [hcauses]; exact fun hmem => absurd hmem List.not_mem_nil⟩
      | false =>
        -- nothing was blocked, so no manual cause is left
        have hnot : ¬ s.manualNewEntriesBlocked = true := fun hmanual => by
          rw [h.blocked hmanual] at hset
          cases hset
        have hcauses : (s.store false .newEntriesBlocked).causes = s.causes := by
          rw [State.store]
          simp only [Bool.false_eq_true, if_false, hset]
        exact ⟨fun hno => absurd hno Bool.false_ne_true,
          by rw [hcauses]; exact fun hmem => absurd (h.manual hmem) hnot,
          by rw [hcauses]; exact fun hmem => absurd (h.identity hmem) hnot,
          by rw [hcauses]; exact h.truth⟩
  · exact h.congr hblocked hmanual htruth hcauses

/-! ## Settings -/

theorem Consistent.forceDisable (h : Consistent s) : Consistent (forceDisable s) :=
  ⟨fun _ => rfl, fun _ => rfl, fun _ => rfl,
    fun hmem => h.truth ((List.mem_cons.mp hmem).resolve_left (by decide))⟩

theorem Consistent.saveEnvironmentSettings (h : Consistent s) (submitted : Submitted) (world : SettingsWorld) :
    Consistent (saveEnvironmentSettings s submitted world).1 := by
  rw [EntryBlock.saveEnvironmentSettings]
  split
  · exact h
  · split
    · exact h
    · next after _ =>
      have hforced : Consistent (if (world.realOrdersEnabled && !(world.plannedIdentityChanges submitted).isEmpty) = true
          then EntryBlock.forceDisable s else s) := by
        split
        · exact h.forceDisable
        · exact h
      dsimp only
      split
      · exact hforced.block _ (by decide) (by decide) (by decide)
      · exact hforced

/-- A change of the settings lifts nothing. -/
theorem saveEnvironmentSettings_blocked (submitted : Submitted) (world : SettingsWorld)
    (h : s.newEntriesBlocked = true) : (saveEnvironmentSettings s submitted world).1.newEntriesBlocked = true := by
  rw [saveEnvironmentSettings]
  split
  · exact h
  · split
    · exact h
    · dsimp only
      split
      · rfl
      · split
        · rfl
        · exact h

/-! ## Runs -/

section runs

variable [Zero F] [LE F] [DecidableLE F]

theorem Consistent.operation (h : Consistent s) (op : Op) : Consistent (apply env s op) := by
  cases op with
  | restore =>
    have hdry : Consistent { s with dryRun := true } := h.congr rfl rfl rfl rfl
    exact hdry.block _ (by decide) (by decide) (by decide)
  | drill status =>
    rw [apply, runRecoveryDrill]
    split
    · exact h.block _ (by decide) (by decide) (by decide)
    · exact h
  | finishDispatch saved =>
    rw [apply, EntryBlock.finishDispatch.eq_def]
    split
    · exact h
    · exact h.block _ (by decide) (by decide) (by decide)
    · exact h.block _ (by decide) (by decide) (by decide)
    · exact h.block _ (by decide) (by decide) (by decide)
    · exact h.block _ (by decide) (by decide) (by decide)
    · exact h
  | saveSettings submitted world => exact h.saveEnvironmentSettings submitted world
  | refresh answer =>
    have hrisk : ∀ risk, Consistent { s with accountRisk := risk } := fun risk => h.congr rfl rfl rfl rfl
    rw [apply]
    rcases refresh_cases env s answer with ⟨risk, e, heq⟩ | ⟨budget, tripped, -, -, heq⟩
    · rw [heq]
      exact hrisk risk
    · rw [heq]
      exact (hrisk _).dailyLoss tripped
  | setFlag name value confirmed world => exact h.setFlag name value confirmed world

/-- One operation, from a state whose causes have their flags. -/
theorem Consistent.blockKept (h : Consistent s) {op : Op} (hmeets : Meets env s op) : BlockKept env s op := by
  refine ⟨fun hblocked hopen => ?_, ?_⟩
  · cases op with
    | restore => cases hopen
    | drill status =>
      rw [apply, runRecoveryDrill] at hopen
      split at hopen
      · cases hopen
      · rw [hblocked] at hopen
        cases hopen
    | finishDispatch saved =>
      rw [apply, finishDispatch.eq_def] at hopen
      split at hopen
      · exact absurd (hblocked.symm.trans hopen) (by decide)
      · cases hopen
      · cases hopen
      · cases hopen
      · cases hopen
      · exact absurd (hblocked.symm.trans hopen) (by decide)
    | saveSettings submitted world =>
      rw [apply, saveEnvironmentSettings_blocked submitted world hblocked] at hopen
      cases hopen
    | refresh answer =>
      rw [apply] at hopen
      rcases refresh_cases env s answer with ⟨risk, e, heq⟩ | ⟨budget, tripped, hweighed, htripped, heq⟩
      · rw [heq] at hopen
        exact absurd (hblocked.symm.trans hopen) (by decide)
      · rw [heq] at hopen
        dsimp only at hopen
        rcases applyDailyLoss_cases { s with accountRisk := .obj budget } tripped with
          ⟨-, hs⟩ | ⟨hno, hdaily, hkill, hmanual, htruth, -⟩ | ⟨-, flag, hs⟩
        · rw [hs] at hopen
          cases hopen
        · rw [hno] at htripped
          refine .inr ⟨hdaily, h.eq_dailyLoss hmanual htruth ?_⟩
          exact hmeets ⟨⟨budget, hweighed, htripped⟩, hdaily, hkill, hmanual, htruth⟩
        · rw [hs] at hopen
          exact absurd (hblocked.symm.trans hopen) (by decide)
    | setFlag name value confirmed world =>
      rw [apply] at hopen
      rcases setFlag_cases s name value confirmed world with ⟨hname, hconfirmed, heq⟩ | ⟨hsame, -⟩
      · rw [heq] at hopen
        have hvalue : value = false := hopen
        exact .inl ⟨hname, hvalue, hconfirmed hblocked hvalue⟩
      · rw [hsame, hblocked] at hopen
        cases hopen
  · rintro answer budget row rfl hreturned hrow hlimit
    rw [apply]
    rcases refresh_cases env s answer with ⟨risk, e, heq⟩ | ⟨budget', tripped, -, htripped, heq⟩
    · rw [heq] at hreturned
      cases hreturned
    · rw [heq] at hreturned ⊢
      obtain rfl := Except.ok.inj hreturned
      rw [anyTripped_of_atLimit htripped hrow hlimit]
      rfl

/-- **Lifts.**  In every run whose recoveries meet no silent cause, every operation lifts the block
only when every cause of it is gone, and no refresh leaves entries open below the limit. -/
theorem blockKept_of_run (hs : Consistent s) {ops : List Op} (h : Run (step env) (Meets env) s ops t)
    {op : Op} (hop : Meets env t op) : BlockKept env t op := by
  have ht : Consistent t := h.invariant (fun {u op u'} _ hstep hu => by
    obtain rfl := Option.some.inj hstep
    exact hu.operation op) hs
  exact ht.blockKept hop

end runs

/-! ## A run -/

/-- Numbers are integers. -/
def sampleEnv : Env ℤ where
  float
    | .int n => .ok n
    | _ => .error (.type "float() argument must be a string or a real number")

/-- Entries are open: the operator has released the block. -/
def sampleState : State ℤ where
  newEntriesBlocked := false
  manualNewEntriesBlocked := false
  killSwitch := false
  killSwitchRearmRequired := false
  brokerTruthBlocked := false
  dailyLossGateTripped := false
  dailyLossEntriesBlocked := false
  dryRun := false
  operatorConfirmed := true
  dailyLossLimitPct := -3
  accountRisk := .null
  causes := []

/-- The worst result of the day. -/
def sampleBudget (pnl : ℤ) : Fields :=
  [("budgets", .obj [("upbit:KRW", .obj [("daily_pnl_pct", .int pnl), ("minimum_daily_pnl_pct", .int pnl)])])]

/-- A loss of five percent. -/
def sampleLoss : Op := .refresh (.ok (sampleBudget (-5)))

/-- The next day. -/
def sampleRecovery : Op := .refresh (.ok (sampleBudget 0))

theorem consistent_sampleState : Consistent sampleState :=
  ⟨fun h => absurd h (by decide), fun h => absurd h List.not_mem_nil, fun h => absurd h List.not_mem_nil,
    fun h => absurd h List.not_mem_nil⟩

/-- A loss, and its recovery. -/
theorem blockKept_of_run_sample :
    (apply sampleEnv sampleState sampleLoss).newEntriesBlocked = true ∧
    (apply sampleEnv (apply sampleEnv sampleState sampleLoss) sampleRecovery).newEntriesBlocked = false ∧
    BlockKept sampleEnv (apply sampleEnv sampleState sampleLoss) sampleRecovery := by
  refine ⟨by decide, by decide, ?_⟩
  have hloss : Meets sampleEnv sampleState sampleLoss := fun _ cause hcause => absurd hcause List.not_mem_nil
  refine blockKept_of_run consistent_sampleState (.single hloss rfl) fun _ cause hcause => ?_
  obtain rfl := List.mem_singleton.mp hcause
  rfl

/-- A recovery drill fails after the loss.  The next day the recovery of the daily loss lifts the
block that the drill set. -/
theorem sample_drill_forgotten :
    Consistent sampleState ∧
    ∃ t, Run (step sampleEnv) Free sampleState [sampleLoss, .drill "fail"] t ∧
      Cause.drillFailed ∈ t.causes ∧ t.newEntriesBlocked = true ∧
      (apply sampleEnv t sampleRecovery).newEntriesBlocked = false ∧ ¬ BlockKept sampleEnv t sampleRecovery := by
  refine ⟨consistent_sampleState, _, .cons trivial rfl (.cons trivial rfl (.nil _)), by decide, by decide, by decide, ?_⟩
  intro h
  rcases h.lifted (by decide) (by decide) with hreleases | ⟨-, honly⟩
  · exact hreleases
  · exact absurd (honly .drillFailed (by decide)) (by decide)

end LiveTrader.EntryBlock
