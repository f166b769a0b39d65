/-
# `CapitalRollout.Sound` — a cap is backed by the evidence of its mapping

A mapping that is read without a blocker records an evidence in its fields (`Records`), and that evidence is what the stages are built
from again (`rebuild_records`).  A mode whose cap is ready has a stage whose requirements the evidence meets (`Meets`).
-/
import LiveTrader.CapitalRollout.Check
import Mathlib.Tactic.NormNum

namespace LiveTrader.CapitalRollout

open Lib Lib.Py

/-! ## What a stage asks for -/

def Stage.minimumFills : Stage → ℤ
  | .canary => 0
  | .smallLive => minimumCanaryFills
  | .fullLive => minimumFullLiveFills

def Stage.minimumHours : Stage → ℚ
  | .canary => 0
  | .smallLive => 0
  | .fullLive => minimumFullLiveObservationHours

/-- The soaks that a stage takes. -/
def Stage.Takes : Stage → String → Prop
  | .canary, _ => True
  | .smallLive, soak => soak ∈ ["PASS", "PASS_WITH_WARNING"]
  | .fullLive, soak => soak = "PASS"

/-- The requirements of a stage. -/
structure Evidence.Meets (e : Evidence) (stage : Stage) : Prop where
  equity : 0 < e.equity
  available : 0 < e.available
  percent : ∃ p ∈ e.notionalPercent, 0 ≤ p ∧ p ≤ 100
  policy : e.policy = true
  lineage : e.lineage = true
  reconciliation : e.reconciliation = true
  fills : ∃ n ∈ e.fills, stage.minimumFills ≤ n
  blocked : e.blocked = some 0
  hours : ∃ h ∈ e.hours, stage.minimumHours ≤ h
  soak : stage.Takes e.soak
  cap : 0 < e.cap stage

/-- The evidence that the fields of a mapping record: each number under its flag, the flags and the text of the soak. -/
structure Records (env : Env) (fields : Fields) (e : Evidence) : Prop where
  equity : finiteNumber env (fields.get "accountEquity" .none) = some e.equity
  available : finiteNumber env (fields.get "availableCash" .none) = some e.available
  percent : ∀ p ∈ e.notionalPercent, fields.get "policyMaxNotionalPercentValid" .none = .bool true ∧
    validNotionalPercent env (fields.get "policyMaxNotionalPercent" .none) = some p
  fills : ∀ n ∈ e.fills, fields.get "canaryFillsValid" .none = .bool true ∧
    validNonnegativeInteger env (fields.get "canaryFills" .none) = some n
  blocked : ∀ n ∈ e.blocked, fields.get "blockedOrdersValid" .none = .bool true ∧
    validNonnegativeInteger env (fields.get "blockedOrders" .none) = some n
  hours : ∀ h ∈ e.hours, fields.get "observationHoursValid" .none = .bool true ∧
    validNonnegativeNumber env (fields.get "observationHours" .none) = some h
  reconciliation : fields.get "reconciliationFresh" .none = .bool e.reconciliation
  lineage : fields.get "lineageValid" .none = .bool e.lineage
  policy : fields.get "policyValid" .none = .bool e.policy
  soak : ∃ text, fields.get "soakStatus" .none = .str text ∧ e.soak = upper (strip text)

/-! ## The evidence of a stage that is ready -/

/-- What holds of every evidence that is read. -/
structure Evidence.WellRead (e : Evidence) : Prop where
  equity : 0 ≤ e.equity
  available : 0 ≤ e.available
  percent : ∀ p ∈ e.notionalPercent, 0 ≤ p ∧ p ≤ 100
  fills : ∀ n ∈ e.fills, 0 ≤ n
  blocked : ∀ n ∈ e.blocked, 0 ≤ n
  hours : ∀ h ∈ e.hours, 0 ≤ h
  soak : upper (strip e.soak) = e.soak

section reading

variable {env : Env}

theorem validNotionalPercent_eq_some {value : Value} {p : ℚ} :
    validNotionalPercent env value = some p ↔ finite? env value = some p ∧ 0 ≤ p ∧ p ≤ 100 := by
  rw [validNotionalPercent, Option.filter_eq_some_iff, Bool.and_eq_true, decide_eq_true_eq, decide_eq_true_eq]

theorem validNonnegativeNumber_eq_some {value : Value} {h : ℚ} :
    validNonnegativeNumber env value = some h ↔ finite? env value = some h ∧ 0 ≤ h := by
  rw [validNonnegativeNumber, Option.filter_eq_some_iff, decide_eq_true_eq]

theorem validNonnegativeInteger_eq_some {value : Value} {n : ℤ} :
    validNonnegativeInteger env value = some n ↔ finite? env value = some (n : ℚ) ∧ 0 ≤ n := by
  rw [validNonnegativeInteger, Option.map_eq_some_iff]
  constructor
  · rintro ⟨q, hq, rfl⟩
    rw [Option.filter_eq_some_iff, Bool.and_eq_true, decide_eq_true_eq, decide_eq_true_eq] at hq
    obtain ⟨hvalue, hnonneg, hwhole⟩ := hq
    rw [show ((q.num : ℤ) : ℚ) = q from Rat.coe_int_num_of_den_eq_one hwhole]
    exact ⟨hvalue, Rat.num_nonneg.mpr hnonneg⟩
  · rintro ⟨hvalue, hnonneg⟩
    refine ⟨n, ?_, Rat.num_intCast n⟩
    rw [Option.filter_eq_some_iff, Bool.and_eq_true, decide_eq_true_eq, decide_eq_true_eq]
    exact ⟨hvalue, Int.cast_nonneg hnonneg, Rat.den_intCast n⟩

theorem Arguments.wellRead (a : Arguments) : (a.read env).WellRead where
  equity := le_max_left _ _
  available := le_max_left _ _
  percent _ hp := (validNotionalPercent_eq_some.mp hp).2
  fills _ hn := (validNonnegativeInteger_eq_some.mp hn).2
  blocked _ hn := (validNonnegativeInteger_eq_some.mp hn).2
  hours _ hh := (validNonnegativeNumber_eq_some.mp hh).2
  soak := upper_strip_upper_strip _

end reading

namespace Evidence

variable {e : Evidence}

theorem commonBlockers_eq_nil (h : e.commonBlockers = []) : 0 < e.equity ∧ 0 < e.available ∧ e.notionalPercent.isSome = true ∧
    e.policy = true ∧ e.lineage = true ∧ e.reconciliation = true ∧ e.fills.isSome = true ∧ (∃ n ∈ e.blocked, n ≤ 0) ∧
    e.hours.isSome = true := by
  simp only [commonBlockers, List.append_eq_nil_iff, blocker_eq_nil, not_le, not_lt, Bool.not_eq_false,
    Option.ne_none_iff_isSome, ← ne_eq] at h
  obtain ⟨⟨⟨⟨⟨⟨⟨⟨⟨hequity, havailable⟩, hpercent⟩, hpolicy⟩, hlineage⟩, hreconciliation⟩, hfills⟩, hblocked⟩, hhours⟩, hnone⟩ := h
  obtain ⟨n, hn⟩ := Option.isSome_iff_exists.mp hblocked
  rw [hn, Option.getD_some] at hnone
  exact ⟨hequity, havailable, hpercent, hpolicy, hlineage, hreconciliation, hfills, ⟨n, hn, hnone⟩, hhours⟩

/-- The least requirements of a stage, from the common ones and from what the stage adds. -/
theorem WellRead.meets (hread : e.WellRead) {stage : Stage} (hcommon : e.commonBlockers = []) (hfills : stage.minimumFills ≤ e.fills.getD 0)
    (hhours : stage.minimumHours ≤ e.hours.getD 0) (hsoak : stage.Takes e.soak) (hcap : 0 < e.cap stage) : e.Meets stage := by
  obtain ⟨hequity, havailable, hpercent, hpolicy, hlineage, hreconciliation, hsome, ⟨b, hblocked, hnone⟩, hobserved⟩ :=
    commonBlockers_eq_nil hcommon
  obtain ⟨p, hp⟩ := Option.isSome_iff_exists.mp hpercent
  obtain ⟨n, hn⟩ := Option.isSome_iff_exists.mp hsome
  obtain ⟨h, hh⟩ := Option.isSome_iff_exists.mp hobserved
  rw [hn, Option.getD_some] at hfills
  rw [hh, Option.getD_some] at hhours
  have hzero : b = 0 := le_antisymm hnone (hread.blocked b hblocked)
  exact ⟨hequity, havailable, ⟨p, hp, hread.percent p hp⟩, hpolicy, hlineage, hreconciliation, ⟨n, hn, hfills⟩, hzero ▸ hblocked,
    ⟨h, hh, hhours⟩, hsoak, hcap⟩

/-- **What is ready** meets the requirements of its stage. -/
theorem WellRead.meets_of_ready (hread : e.WellRead) {stage : Stage} (h : e.ready stage = true) : e.Meets stage := by
  have hnone : e.blockers stage = [] := of_decide_eq_true h
  cases stage with
  | canary =>
    simp only [blockers, canaryBlockers, List.append_eq_nil_iff, blocker_eq_nil, not_le] at hnone
    obtain ⟨hcommon, hcap⟩ := hnone
    refine hread.meets hcommon ?_ ?_ trivial hcap
    · show (0 : ℤ) ≤ e.fills.getD 0
      cases hfills : e.fills with
      | none => exact le_rfl
      | some n => exact hread.fills n hfills
    · show (0 : ℚ) ≤ e.hours.getD 0
      cases hhours : e.hours with
      | none => exact le_rfl
      | some q => exact hread.hours q hhours
  | smallLive =>
    simp only [blockers, smallBlockers, List.append_eq_nil_iff, blocker_eq_nil, not_le, not_lt, not_not] at hnone
    obtain ⟨⟨⟨hcommon, hfills⟩, hsoak⟩, hcap⟩ := hnone
    refine hread.meets hcommon hfills ?_ hsoak hcap
    show (0 : ℚ) ≤ e.hours.getD 0
    cases hhours : e.hours with
    | none => exact le_rfl
    | some q => exact hread.hours q hhours
  | fullLive =>
    simp only [blockers, fullBlockers, smallBlockers, List.append_eq_nil_iff, blocker_eq_nil, not_le, not_lt, not_not, ne_eq] at hnone
    obtain ⟨⟨⟨⟨⟨⟨⟨hcommon, -⟩, -⟩, -⟩, hfills⟩, hhours⟩, hsoak⟩, hcap⟩ := hnone
    exact hread.meets hcommon hfills hhours hsoak hcap

end Evidence

/-! ## The evidence that is read again -/

section rebuild

variable {env : Env}

theorem negative_eq_false {value : Option ℚ} : Reading.negative value = false ↔ ∃ q ∈ value, 0 ≤ q := by
  cases value with
  | none => exact iff_of_false (by decide) (by rintro ⟨q, hq, -⟩; cases hq)
  | some q =>
    show decide (q < 0) = false ↔ _
    rw [decide_eq_false_iff_not, not_lt]
    exact ⟨fun h => ⟨q, rfl, h⟩, by rintro ⟨_, ⟨⟩, h⟩; exact h⟩

/-- A flag that does not fail is a truth value, and a number under a true one is valid. -/
theorem flagFails_eq_false {flag : Value} {valid isZero : Bool} (h : Reading.flagFails flag valid isZero = false) :
    flag = .bool true ∧ valid = true ∨ flag = .bool false := by
  cases flag with
  | bool b =>
    cases b with
    | true => exact .inl ⟨rfl, by simpa [Reading.flagFails] using h⟩
    | false => exact .inr rfl
  | none | int | float | str | list | dict | other => exact absurd h (by simp [Reading.flagFails])

/-- A number under its flag reads as it was, if the flag is true. -/
theorem finite?_flagged {flag : Value} {value : Option ℚ} {q : ℚ} (h : finite? env (Reading.flagged flag value) = some q) :
    flag.isTrue = true ∧ q = value.getD 0 := by
  rw [Reading.flagged] at h
  cases hflag : flag.isTrue with
  | true =>
    rw [hflag, if_pos rfl] at h
    exact ⟨rfl, (Option.some.inj h).symm⟩
  | false =>
    rw [hflag, if_neg Bool.false_ne_true] at h
    cases h

theorem Value.eq_of_isTrue {value : Value} (h : value.isTrue = true) : value = .bool true := by
  cases value with
  | bool b => exact congrArg Value.bool h
  | none | int | float | str | list | dict | other => cases h

theorem Value.eq_of_isBool {value : Value} (h : value.isBool = true) : value = .bool value.isTrue := by
  cases value with
  | bool b => rfl
  | none | int | float | str | list | dict | other => cases h

theorem isCount_eq_true {value : Option ℚ} (h : Reading.isCount value = true) : value.isSome = true := by
  cases value with
  | none => cases h
  | some q => rfl

theorem isNonnegative_eq_true {value : Option ℚ} (h : Reading.isNonnegative value = true) : value.isSome = true := by
  cases value with
  | none => cases h
  | some q => rfl

/-- The number of a field, where the rebuilt one is read under a flag that does not fail. -/
theorem finite?_field {flag : Value} {value : Option ℚ} {valid isZero : Bool} (hflag : Reading.flagFails flag valid isZero = false)
    (hvalid : valid = true → value.isSome = true) {q : ℚ} (h : finite? env (Reading.flagged flag value) = some q) :
    flag = .bool true ∧ value = some q := by
  obtain ⟨htrue, rfl⟩ := finite?_flagged h
  rcases flagFails_eq_false hflag with ⟨hflag, hgiven⟩ | hflag
  · obtain ⟨x, hx⟩ := Option.isSome_iff_exists.mp (hvalid hgiven)
    exact ⟨hflag, by rw [hx, Option.getD_some]⟩
  · rw [hflag] at htrue
    cases htrue

variable {rollout mode : Value}

/-- **The evidence of a mapping without early blockers** is what its fields record. -/
theorem rebuild_records (h : earlyBlockers env rollout mode = []) :
    Records env (rollout.dict?.getD []) ((readFields env (rollout.dict?.getD [])).rebuild.read env) := by
  generalize hfields : rollout.dict?.getD [] = fields at *
  rw [earlyBlockers, hfields] at h
  simp only [List.append_eq_nil_iff, Reading.numberBlockers, Reading.evidenceBlockers, blocker_eq_nil, Bool.not_eq_true] at h
  obtain ⟨⟨⟨-, ⟨⟨⟨hequity, havailable⟩, -⟩, hpercent⟩, -⟩, ⟨hbools, hflags⟩, hsoak⟩, -⟩ := h
  simp only [not_or, Bool.not_eq_false] at hbools hsoak
  obtain ⟨hreconciliation, hlineage, hpolicy⟩ := hbools
  obtain ⟨equity, hequity, hequity'⟩ := negative_eq_false.mp hequity
  obtain ⟨available, havailable, havailable'⟩ := negative_eq_false.mp havailable
  -- the three flags
  rw [Reading.flagsFail] at hflags
  split at hflags
  · cases hflags
  simp only [Bool.or_eq_false_iff] at hflags
  obtain ⟨⟨hfills, hblocked⟩, hhours⟩ := hflags
  constructor
  case equity =>
    refine hequity.trans (congrArg some ?_)
    show equity = max 0 (((readFields env fields).equity).getD 0)
    rw [hequity, Option.getD_some, max_eq_right hequity']
  case available =>
    refine havailable.trans (congrArg some ?_)
    show available = max 0 (((readFields env fields).available).getD 0)
    rw [havailable, Option.getD_some, max_eq_right havailable']
  case percent =>
    intro p hp
    obtain ⟨hp, -⟩ := validNotionalPercent_eq_some.mp hp
    exact finite?_field hpercent id hp
  case fills =>
    intro n hn
    obtain ⟨hn, hnonneg⟩ := validNonnegativeInteger_eq_some.mp hn
    obtain ⟨hflag, hvalue⟩ := finite?_field hfills isCount_eq_true hn
    exact ⟨hflag, validNonnegativeInteger_eq_some.mpr ⟨hvalue, hnonneg⟩⟩
  case blocked =>
    intro n hn
    obtain ⟨hn, hnonneg⟩ := validNonnegativeInteger_eq_some.mp hn
    obtain ⟨hflag, hvalue⟩ := finite?_field hblocked isCount_eq_true hn
    exact ⟨hflag, validNonnegativeInteger_eq_some.mpr ⟨hvalue, hnonneg⟩⟩
  case hours =>
    intro q hq
    obtain ⟨hq, hnonneg⟩ := validNonnegativeNumber_eq_some.mp hq
    obtain ⟨hflag, hvalue⟩ := finite?_field hhours isNonnegative_eq_true hq
    exact ⟨hflag, validNonnegativeNumber_eq_some.mpr ⟨hvalue, hnonneg⟩⟩
  case reconciliation => exact Value.eq_of_isBool hreconciliation
  case lineage => exact Value.eq_of_isBool hlineage
  case policy => exact Value.eq_of_isBool hpolicy
  case soak =>
    obtain ⟨text, htext⟩ : ∃ text, (readFields env fields).soak = .str text := by
      cases hvalue : (readFields env fields).soak with
      | str text => exact ⟨text, rfl⟩
      | none | bool | int | float | list | dict | other => rw [hvalue] at hsoak; cases hsoak
    refine ⟨text, htext, ?_⟩
    show upper (strip (env.strOr (readFields env fields).soak "")) = _
    rw [htext, Env.strOr]
    by_cases hempty : text = ""
    · rw [hempty]
      rfl
    · rw [show (Value.str text).truthy = true from decide_eq_true hempty]
      rfl

/-! ## The cap that is reported -/

/-- The cap that the fields of a mapping give is that of its evidence. -/
theorem expectedPolicyCap_eq (h : earlyBlockers env rollout mode = []) : (readFields env (rollout.dict?.getD [])).expectedPolicyCap =
    ((readFields env (rollout.dict?.getD [])).rebuild.read env).policyCap := by
  have hrecords := rebuild_records h
  generalize hfields : rollout.dict?.getD [] = fields at *
  rw [earlyBlockers, hfields] at h
  simp only [List.append_eq_nil_iff, Reading.numberBlockers, blocker_eq_nil, Bool.not_eq_true] at h
  obtain ⟨⟨⟨-, ⟨⟨⟨hequity, havailable⟩, -⟩, hpercent⟩, -⟩, -⟩, -⟩ := h
  obtain ⟨equity, hequity, hequity'⟩ := negative_eq_false.mp hequity
  obtain ⟨available, havailable, havailable'⟩ := negative_eq_false.mp havailable
  have hequal : equity = ((readFields env fields).rebuild.read env).equity := Option.some.inj (hequity.symm.trans hrecords.equity)
  have havail : available = ((readFields env fields).rebuild.read env).available :=
    Option.some.inj (havailable.symm.trans hrecords.available)
  rw [Evidence.policyCap, ← hequal, ← havail, Reading.expectedPolicyCap, hequity, havailable]
  rcases flagFails_eq_false hpercent with ⟨hflag, hgiven⟩ | hflag
  · obtain ⟨p, hp⟩ := Option.isSome_iff_exists.mp hgiven
    have hvalid : validNotionalPercent env (.amount p) = some p :=
      validNotionalPercent_eq_some.mpr ⟨rfl, (validNotionalPercent_eq_some.mp hp).2⟩
    have hread : ((readFields env fields).rebuild.read env).notionalPercent = some p := by
      show validNotionalPercent env (Reading.flagged (readFields env fields).percentFlag (readFields env fields).percent) = some p
      rw [hflag, hp]
      exact hvalid
    rw [hread, hp, hflag]
    exact if_pos ⟨hequity', havailable', rfl⟩
  · have hread : ((readFields env fields).rebuild.read env).notionalPercent = none := by
      show validNotionalPercent env (Reading.flagged (readFields env fields).percentFlag (readFields env fields).percent) = none
      rw [hflag]
      rfl
    rw [hread, hflag]
    cases (readFields env fields).percent with
    | none => rfl
    | some p => exact if_neg fun h => Bool.false_ne_true h.2.2

/-- The cap of a stage that does not hang on the account. -/
def Stage.limit : Stage → Option ℚ
  | .canary => some canaryMaxNotionalUsdt
  | .smallLive => some smallLiveMaxNotionalUsdt
  | .fullLive => none

theorem Reading.effectiveCeiling_le {r : Reading} {stage : Stage} {x : ℚ} (hnonneg : 0 ≤ x) (h : r.expectedPolicyCap ≤ x) :
    r.effectiveCeiling stage ≤ x :=
  max_le hnonneg ((min_le_left _ _).trans ((min_le_right _ _).trans h))

theorem Reading.effectiveCeiling_le_limit {r : Reading} {stage : Stage} {x : ℚ} (h : x ∈ stage.limit) : r.effectiveCeiling stage ≤ x := by
  cases stage with
  | canary =>
    obtain rfl := Option.some.inj h
    exact max_le (by norm_num [canaryMaxNotionalUsdt]) (min_le_right _ _)
  | smallLive =>
    obtain rfl := Option.some.inj h
    exact max_le (by norm_num [smallLiveMaxNotionalUsdt]) (min_le_right _ _)
  | fullLive => cases h

namespace Evidence

variable {e : Evidence}

theorem policyCap_le_available (h : 0 ≤ e.available) : e.policyCap ≤ e.available := by
  rw [policyCap]
  split
  · exact min_le_left _ _
  · exact h

theorem policyCap_le_percent {p : ℚ} (h : p ∈ e.notionalPercent) : e.policyCap ≤ e.equity * (p / 100) := by
  rw [policyCap, Option.mem_def.mp h]
  exact min_le_right _ _

end Evidence

/-- A row of a stage that was built again, where nothing is wrong with it. -/
theorem ready_of_rowBlockers {row : Fields} {ceiling : ℚ} {canonical : Canonical} (h : rowBlockers env row ceiling (some canonical) = [])
    (hready : (row.get "ready" .none).isTrue = true) : canonical.ready = true := by
  simp only [rowBlockers, List.append_eq_nil_iff, blocker_eq_nil, Option.mem_def, Option.some.injEq, exists_eq_left', not_or,
    Bool.not_eq_true] at h
  have hsame := h.2.1
  rw [Value.eq_of_isTrue hready] at hsame
  simpa [isNotBool] using hsame

/-- What is read off the checks of a cap that is ready. -/
theorem outcome_of_ready (h : (capitalCapForMode env rollout mode).ready = true) : earlyBlockers env rollout mode = [] ∧
    ((readFields env (rollout.dict?.getD [])).rebuild.read env).ready (capitalCapForMode env rollout mode).stage = true ∧
    (capitalCapForMode env rollout mode).maxNotional ≤
      (readFields env (rollout.dict?.getD [])).effectiveCeiling (capitalCapForMode env rollout mode).stage := by
  rw [capitalCapForMode] at h ⊢
  dsimp only at h ⊢
  rw [Bool.and_eq_true, decide_eq_true_eq] at h
  obtain ⟨hintegrity, hrow⟩ := h
  rw [if_pos hintegrity]
  obtain ⟨hearly', hrowBlockers⟩ := List.append_eq_nil_iff.mp hintegrity
  obtain ⟨hearly, -⟩ := List.append_eq_nil_iff.mp hearly'
  have hcanonical : canonicalEvidence env rollout mode = some ((readFields env (rollout.dict?.getD [])).rebuild.read env) := if_pos hearly
  rw [hcanonical] at hrowBlockers hrow ⊢
  rw [Option.map_some] at hrowBlockers
  have hready := ready_of_rowBlockers hrowBlockers hrow
  rw [Evidence.canonical] at hready
  dsimp only at hready
  refine ⟨hearly, hready, min_le_right _ _⟩

/-- An outcome that the evidence of a mapping backs: it meets the requirements of the stage, and the cap is within the available cash,
the percentage of the equity and the limit of the stage. -/
def Backed (env : Env) (fields : Fields) (outcome : Outcome) : Prop :=
  ∃ e : Evidence, Records env fields e ∧ e.Meets outcome.stage ∧ outcome.maxNotional ≤ e.available ∧
    (∀ p ∈ e.notionalPercent, outcome.maxNotional ≤ e.equity * (p / 100)) ∧ ∀ x ∈ outcome.stage.limit, outcome.maxNotional ≤ x

/-- **A ready cap is backed.** -/
theorem backed_of_ready (h : (capitalCapForMode env rollout mode).ready = true) :
    Backed env (rollout.dict?.getD []) (capitalCapForMode env rollout mode) := by
  obtain ⟨hearly, hready, hcap⟩ := outcome_of_ready h
  have hexpected := expectedPolicyCap_eq hearly
  have hread : ((readFields env (rollout.dict?.getD [])).rebuild.read env).WellRead := Arguments.wellRead _
  refine ⟨_, rebuild_records hearly, hread.meets_of_ready hready, hcap.trans (Reading.effectiveCeiling_le hread.available ?_),
    fun p hp => hcap.trans (Reading.effectiveCeiling_le ?_ ?_), fun x hx => hcap.trans (Reading.effectiveCeiling_le_limit hx)⟩
  · rw [hexpected]
    exact Evidence.policyCap_le_available hread.available
  · exact mul_nonneg hread.equity (div_nonneg (hread.percent p hp).1 (by norm_num))
  · rw [hexpected]
    exact Evidence.policyCap_le_percent hp

end rebuild

end LiveTrader.CapitalRollout
