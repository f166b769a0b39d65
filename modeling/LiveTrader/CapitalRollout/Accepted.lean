/-
# `CapitalRollout.Accepted` — what is built is accepted

The mapping of an evidence is read as it was written (`readFields_toDict`), so the stages that are built again are those it holds.  Only
a mode that is no live mode is a blocker.
-/
import LiveTrader.CapitalRollout.Sound
import Mathlib.Algebra.Order.Field.Basic

namespace LiveTrader.CapitalRollout

open Lib Lib.Py

/-! ## The soak -/

/-- The text of a soak in a mapping. -/
def soakText (soak : String) : String := if soak = "" then "NOT_RUN" else soak

namespace Evidence

variable {e : Evidence}

/-- The evidence with the soak that its mapping shows. -/
def shown (e : Evidence) : Evidence := { e with soak := soakText e.soak }

theorem cap_shown (stage : Stage) : e.shown.cap stage = e.cap stage := by
  cases stage with
  | canary | smallLive | fullLive => rfl

theorem mem_soaks_iff : soakText e.soak ∉ ["PASS", "PASS_WITH_WARNING"] ↔ e.soak ∉ ["PASS", "PASS_WITH_WARNING"] := by
  rw [soakText]
  split
  · next h =>
    rw [h]
    exact iff_of_true (by decide) (by decide)
  · exact Iff.rfl

theorem soak_ne_iff : soakText e.soak ≠ "PASS" ↔ e.soak ≠ "PASS" := by
  rw [soakText]
  split
  · next h =>
    rw [h]
    exact iff_of_true (by decide) (by decide)
  · exact Iff.rfl

theorem smallBlockers_shown : e.shown.smallBlockers = e.smallBlockers := by
  show e.commonBlockers ++ _ ++ _ ++ _ = e.commonBlockers ++ _ ++ _ ++ _
  refine congrArg₂ _ (congrArg₂ _ rfl (blocker_congr mem_soaks_iff _)) (blocker_congr ?_ _)
  rw [cap_shown]

/-- The soak that is shown blocks what the soak does. -/
theorem blockers_shown (stage : Stage) : e.shown.blockers stage = e.blockers stage := by
  cases stage with
  | canary => rfl
  | smallLive => exact smallBlockers_shown
  | fullLive =>
    show e.shown.smallBlockers ++ _ ++ _ ++ _ ++ _ = e.smallBlockers ++ _ ++ _ ++ _ ++ _
    refine congrArg₂ _ (congrArg₂ _ ?_ (blocker_congr soak_ne_iff _)) (blocker_congr ?_ _)
    · rw [smallBlockers_shown]
      rfl
    · rw [cap_shown]

theorem canonical_shown (stage : Stage) : e.shown.canonical stage = e.canonical stage := by
  rw [canonical, canonical, ready, ready, blockers_shown, cap_shown]

end Evidence

/-! ## The mapping, read -/

/-- The stages of a mapping. -/
def Evidence.stageList (e : Evidence) : Value := .list (Stage.all.map fun stage => .dict (e.stageRow stage))

/-- The reading of the mapping of an evidence. -/
def Evidence.recorded (e : Evidence) : Reading where
  equity := some e.equity
  available := some e.available
  policyCap := some e.policyCap
  percent := some (e.notionalPercent.getD 0)
  percentFlag := .bool e.notionalPercent.isSome
  reconciliation := .bool e.reconciliation
  lineage := .bool e.lineage
  policy := .bool e.policy
  fills := some (e.fills.getD 0 : ℤ)
  blocked := some (e.blocked.getD 0 : ℤ)
  hours := some (e.hours.getD 0)
  fillsFlag := .bool e.fills.isSome
  blockedFlag := .bool e.blocked.isSome
  hoursFlag := .bool e.hours.isSome
  soak := .str (soakText e.soak)
  stages := e.stageList

section built

variable {env : Env} {e : Evidence}

theorem readFields_toDict (hread : e.WellRead) : readFields env e.toDict = e.recorded := by
  have hpercent : validNotionalPercent env (.amount (e.notionalPercent.getD 0)) = some (e.notionalPercent.getD 0) := by
    refine validNotionalPercent_eq_some.mpr ⟨rfl, ?_⟩
    cases hp : e.notionalPercent with
    | none => exact ⟨le_rfl, by norm_num⟩
    | some p => exact hread.percent p hp
  show (⟨_, _, _, validNotionalPercent env (.amount (e.notionalPercent.getD 0)), _, _, _, _, _, _, _, _, _, _, _, _⟩ : Reading) = _
  rw [hpercent]
  rfl

theorem read_flagged_percent {o : Option ℚ} (h : ∀ p ∈ o, 0 ≤ p ∧ p ≤ 100) :
    validNotionalPercent env (Reading.flagged (.bool o.isSome) (some (o.getD 0))) = o := by
  cases o with
  | none => rfl
  | some p => exact validNotionalPercent_eq_some.mpr ⟨rfl, h p rfl⟩

theorem read_flagged_integer {o : Option ℤ} (h : ∀ n ∈ o, 0 ≤ n) :
    validNonnegativeInteger env (Reading.flagged (.bool o.isSome) (some ((o.getD 0 : ℤ) : ℚ))) = o := by
  cases o with
  | none => rfl
  | some n => exact validNonnegativeInteger_eq_some.mpr ⟨rfl, h n rfl⟩

theorem read_flagged_number {o : Option ℚ} (h : ∀ q ∈ o, 0 ≤ q) :
    validNonnegativeNumber env (Reading.flagged (.bool o.isSome) (some (o.getD 0))) = o := by
  cases o with
  | none => rfl
  | some q => exact validNonnegativeNumber_eq_some.mpr ⟨rfl, h q rfl⟩

theorem read_soakText {soak : String} (h : upper (strip soak) = soak) :
    upper (strip (env.strOr (.str (soakText soak)) "")) = soakText soak := by
  rw [soakText]
  split
  · show upper (strip "NOT_RUN") = "NOT_RUN"
    decide
  · next hgiven =>
    rw [Env.strOr, show (Value.str soak).truthy = true from decide_eq_true hgiven, if_pos rfl]
    exact h

/-- **What is built again** is what was built. -/
theorem read_rebuild_recorded (hread : e.WellRead) : e.recorded.rebuild.read env = e.shown := by
  have hpercent : validNotionalPercent env _ = _ := read_flagged_percent hread.percent
  have hfills : validNonnegativeInteger env _ = _ := read_flagged_integer hread.fills
  have hblocked : validNonnegativeInteger env _ = _ := read_flagged_integer hread.blocked
  have hhours : validNonnegativeNumber env _ = _ := read_flagged_number hread.hours
  have hsoak : upper (strip (env.strOr _ "")) = _ := read_soakText hread.soak
  show (⟨max 0 e.equity, max 0 e.available, validNotionalPercent env _, validNonnegativeInteger env _, validNonnegativeInteger env _,
    validNonnegativeNumber env _, e.reconciliation, e.lineage, e.policy, upper (strip (env.strOr (.str (soakText e.soak)) ""))⟩ :
      Evidence) = _
  rw [max_eq_right hread.equity, max_eq_right hread.available, hsoak]
  exact Evidence.mk.injEq .. |>.mpr ⟨rfl, rfl, hpercent, hfills, hblocked, hhours, rfl, rfl, rfl, rfl⟩

/-! ## The rows of the stages -/

theorem stageRows_recorded : e.recorded.stageRows = Stage.all.map e.stageRow := rfl

theorem strOr_id (stage : Stage) : env.strOr ((e.stageRow stage).get "id" .none) "" = stage.id := by
  cases stage with
  | canary | smallLive | fullLive => rfl

theorem stageIds_recorded : e.recorded.stageIds env = Stage.all.map Stage.id := by
  rw [Reading.stageIds, stageRows_recorded, List.map_map]
  exact List.map_congr_left fun stage _ => strOr_id stage

theorem stageOf_recorded (stage : Stage) : e.recorded.stageOf env stage = e.stageRow stage := by
  rw [Reading.stageOf, stageRows_recorded]
  show ((List.find? _ [e.stageRow .fullLive, e.stageRow .smallLive, e.stageRow .canary]).getD []) = _
  simp only [List.find?_cons, strOr_id]
  cases stage with
  | canary | smallLive | fullLive => rfl

/-- The texts of a list are read as they were written. -/
theorem texts?_texts (texts : List String) : (Value.texts texts).texts? = some texts := by
  show (texts.map Value.str).mapM Value.str? = some texts
  induction texts with
  | nil => rfl
  | cons text rest ih =>
    rw [List.map_cons, List.mapM_cons, ih]
    rfl

/-! ## The caps -/

namespace Evidence

variable {e : Evidence}

theorem WellRead.policyCap_nonneg (hread : e.WellRead) : 0 ≤ e.policyCap := by
  rw [policyCap]
  split
  · next p hp => exact le_min hread.available (mul_nonneg hread.equity (div_nonneg (hread.percent p hp).1 (by norm_num)))
  · exact le_rfl

theorem WellRead.policyCap_le_equity (hread : e.WellRead) : e.policyCap ≤ e.equity := by
  rw [policyCap]
  split
  · next p hp =>
    refine (min_le_right _ _).trans ?_
    calc e.equity * (p / 100) ≤ e.equity * 1 :=
          mul_le_mul_of_nonneg_left ((div_le_one (by norm_num)).mpr (hread.percent p hp).2) hread.equity
      _ = e.equity := mul_one _
  · exact hread.equity

theorem WellRead.boundedCap_nonneg (hread : e.WellRead) : 0 ≤ e.boundedCap := by
  rw [boundedCap]
  split
  · exact hread.policyCap_nonneg
  · exact le_rfl

theorem WellRead.boundedCap_le (hread : e.WellRead) : e.boundedCap ≤ e.policyCap := by
  rw [boundedCap]
  split
  · exact le_rfl
  · exact hread.policyCap_nonneg

theorem WellRead.cap_nonneg (hread : e.WellRead) (stage : Stage) : 0 ≤ e.cap stage := by
  cases stage with
  | canary => exact le_min hread.boundedCap_nonneg (by norm_num [canaryMaxNotionalUsdt])
  | smallLive => exact le_min hread.boundedCap_nonneg (by norm_num [smallLiveMaxNotionalUsdt])
  | fullLive => exact hread.boundedCap_nonneg

/-- The cap of a stage is within the cap of the policy and the limit of the stage. -/
theorem WellRead.cap_le (hread : e.WellRead) (stage : Stage) : e.cap stage ≤ min e.policyCap (Reading.staticCap e.policyCap stage) := by
  cases stage with
  | canary => exact min_le_min_right _ hread.boundedCap_le
  | smallLive => exact min_le_min_right _ hread.boundedCap_le
  | fullLive => exact le_min hread.boundedCap_le hread.boundedCap_le

end Evidence

theorem expectedPolicyCap_recorded (hread : e.WellRead) : e.recorded.expectedPolicyCap = e.policyCap := by
  rw [Reading.expectedPolicyCap, Evidence.policyCap]
  show (if 0 ≤ e.equity ∧ 0 ≤ e.available ∧ e.notionalPercent.isSome = true then _ else _) = _
  cases e.notionalPercent with
  | none => exact if_neg fun h => Bool.false_ne_true h.2.2
  | some p => exact if_pos ⟨hread.equity, hread.available, rfl⟩

/-- The least of the figures is the cap of the policy. -/
theorem least_recorded (hread : e.WellRead) : e.recorded.least = e.policyCap := by
  rw [Reading.least, expectedPolicyCap_recorded hread]
  show min (min (min e.equity e.available) e.policyCap) e.policyCap = _
  rw [min_eq_right (le_min hread.policyCap_le_equity (Evidence.policyCap_le_available hread.available)), min_self]

theorem cap_le_stageCeiling (hread : e.WellRead) (stage : Stage) : e.cap stage ≤ e.recorded.stageCeiling stage := by
  rw [Reading.stageCeiling, least_recorded hread, max_eq_right hread.policyCap_nonneg]
  exact hread.cap_le stage

theorem cap_le_effectiveCeiling (hread : e.WellRead) (stage : Stage) : e.cap stage ≤ e.recorded.effectiveCeiling stage := by
  rw [Reading.effectiveCeiling, least_recorded hread, expectedPolicyCap_recorded hread]
  exact (hread.cap_le stage).trans (le_max_right _ _)

/-! ## Nothing is wrong -/

theorem flagFails_isSome {α : Type*} {o : Option α} {valid isZero : Bool} (hvalid : valid = true) (hzero : o = none → isZero = true) :
    Reading.flagFails (.bool o.isSome) valid isZero = false := by
  cases o with
  | none =>
    show (!valid || !isZero) = false
    rw [hvalid, hzero rfl]
    rfl
  | some x =>
    show (!valid) = false
    rw [hvalid]
    rfl

theorem rowBlockers_stageRow {stage : Stage} {ceiling : ℚ} {canonical : Option Canonical} (hread : e.WellRead)
    (hceiling : e.cap stage ≤ ceiling) (hsame : ∀ c ∈ canonical, c = e.canonical stage) :
    rowBlockers env (e.stageRow stage) ceiling canonical = [] := by
  have htexts : ((e.stageRow stage).get "blockers" .none).texts? = some (e.blockers stage).eraseDups := texts?_texts _
  have hcap : finiteNumber env ((e.stageRow stage).get "maxNotional" .none) = some (e.cap stage) := rfl
  have hready : (e.stageRow stage).get "ready" .none = .bool (e.ready stage) := rfl
  simp only [rowBlockers, htexts, hcap, hready, List.append_eq_nil_iff, blocker_eq_nil, Option.getD_some]
  refine ⟨⟨?_, ?_⟩, ?_⟩
  · rintro (hnegative | hover)
    · exact absurd hnegative (by
        rw [Bool.not_eq_true]
        exact negative_eq_false.mpr ⟨_, rfl, hread.cap_nonneg stage⟩)
    · have htolerance : (0 : ℚ) ≤ tolerance := by norm_num [tolerance]
      exact absurd hover (not_lt.mpr (hceiling.trans (le_add_of_nonneg_right htolerance)))
  · rintro (hbool | hnone)
    · cases hbool
    · cases hnone
  · rintro ⟨c, hc, hwrong⟩
    rw [hsame c hc] at hwrong
    rcases hwrong with hready | hcap | hblockers
    · rw [show isNotBool (.bool (e.ready stage)) (e.canonical stage).ready = false from bne_self_eq_false _] at hready
      cases hready
    · have hself : isNear (e.cap stage) (e.canonical stage).maxNotional = true := isClose_self (by norm_num [tolerance])
      rw [hself] at hcap
      cases hcap
    · exact hblockers rfl

theorem numberBlockers_recorded (hread : e.WellRead) : e.recorded.numberBlockers = [] := by
  simp only [Reading.numberBlockers, List.append_eq_nil_iff, blocker_eq_nil, Bool.not_eq_true, expectedPolicyCap_recorded hread]
  refine ⟨⟨⟨⟨?_, ?_⟩, ?_⟩, ?_⟩, ?_⟩
  · exact negative_eq_false.mpr ⟨_, rfl, hread.equity⟩
  · exact negative_eq_false.mpr ⟨_, rfl, hread.available⟩
  · exact negative_eq_false.mpr ⟨_, rfl, hread.policyCap_nonneg⟩
  · refine flagFails_isSome rfl fun hnone => ?_
    show decide (some (e.notionalPercent.getD 0) = some 0) = true
    rw [hnone]
    rfl
  · rintro ⟨declared, hdeclared, -, hfar⟩
    obtain rfl := Option.some.inj hdeclared
    rw [show isNear e.policyCap e.policyCap = true from isClose_self (by norm_num [tolerance])] at hfar
    cases hfar

theorem isCount_intCast {n : ℤ} (h : 0 ≤ n) : Reading.isCount (some (n : ℚ)) = true := by
  show (decide (0 ≤ (n : ℚ)) && decide ((n : ℚ).den = 1)) = true
  rw [Bool.and_eq_true, decide_eq_true_eq, decide_eq_true_eq]
  exact ⟨Int.cast_nonneg h, Rat.den_intCast n⟩

theorem flagFails_count {o : Option ℤ} (h : ∀ n ∈ o, 0 ≤ n) : Reading.flagFails (.bool o.isSome)
    (Reading.isCount (some ((o.getD 0 : ℤ) : ℚ))) (some ((o.getD 0 : ℤ) : ℚ) = some 0) = false := by
  refine flagFails_isSome (isCount_intCast ?_) fun hnone => ?_
  · cases o with
    | none => exact le_rfl
    | some n => exact h n rfl
  · rw [hnone]
    rfl

theorem evidenceBlockers_recorded (hread : e.WellRead) : e.recorded.evidenceBlockers = [] := by
  simp only [Reading.evidenceBlockers, List.append_eq_nil_iff, blocker_eq_nil, Bool.not_eq_true]
  refine ⟨⟨?_, ?_⟩, ?_⟩
  · rintro (h | h | h)
    · cases h
    · cases h
    · cases h
  · rw [Reading.flagsFail, if_neg]
    · have hfills := flagFails_count hread.fills
      have hblocked := flagFails_count hread.blocked
      have hhours : Reading.flagFails (.bool e.hours.isSome) (Reading.isNonnegative (some (e.hours.getD 0)))
          (some (e.hours.getD 0) = some 0) = false := by
        refine flagFails_isSome (decide_eq_true ?_) fun hnone => ?_
        · cases hh : e.hours with
          | none => exact le_rfl
          | some q => exact hread.hours q hh
        · rw [hnone]
          rfl
      exact Bool.or_eq_false_iff.mpr ⟨Bool.or_eq_false_iff.mpr ⟨hfills, hblocked⟩, hhours⟩
    · rintro (h | h | h)
      · cases h
      · cases h
      · cases h
  · intro h
    cases h

theorem stagesBlockers_recorded : e.recorded.stagesBlockers env = [] := by
  simp only [Reading.stagesBlockers, List.append_eq_nil_iff, blocker_eq_nil, stageIds_recorded, stageRows_recorded]
  refine ⟨fun h => (by cases h), ?_⟩
  rintro (h | h | ⟨id, hid, hout⟩ | ⟨id, hid, hout⟩ | h)
  · exact h rfl
  · exact h rfl
  · exact hout hid
  · exact hout hid
  · exact h (by decide)

theorem earlyBlockers_toDict (hread : e.WellRead) (mode : Value) : earlyBlockers env (.dict e.toDict) mode =
    blocker (modeText env mode ∉ ["SMALL_LIVE", "FULL_LIVE"]) "capital-rollout-mode-invalid" := by
  have hfields : readFields env ((Value.dict e.toDict).dict?.getD []) = e.recorded := readFields_toDict hread
  rw [earlyBlockers, hfields, numberBlockers_recorded hread, evidenceBlockers_recorded hread, stagesBlockers_recorded,
    List.append_nil, List.append_nil, List.append_nil]
  have hstructure : blocker ((Value.dict e.toDict).dict? = none) "capital-rollout-structure-invalid" = [] :=
    blocker_eq_nil.mpr fun h => (by cases h)
  have hschema : blocker ((((Value.dict e.toDict).dict?.getD []).get "schemaVersion" .none).str? ≠ some rolloutSchemaVersion)
      "capital-rollout-schema-invalid" = [] := blocker_eq_nil.mpr fun h => h rfl
  rw [hstructure, hschema, List.nil_append, List.nil_append]

/-! ## The outcome -/

/-- What the mapping of an evidence yields for a stage. -/
def Evidence.outcome (e : Evidence) (stage : Stage) : Outcome := ⟨stage, e.ready stage, e.cap stage, (e.blockers stage).eraseDups, []⟩

theorem stageBlockers_recorded (hread : e.WellRead) {canonical : Option Evidence} (h : ∀ c ∈ canonical, c = e.shown) :
    stageBlockers env e.recorded canonical = [] := by
  cases canonical with
  | none => rfl
  | some c =>
    obtain rfl := h c rfl
    refine List.flatMap_eq_nil_iff.mpr fun stage _ => ?_
    rw [stageOf_recorded]
    refine rowBlockers_stageRow hread (cap_le_stageCeiling hread stage) fun c hc => ?_
    rw [← Option.some.inj hc, Evidence.canonical_shown]

theorem canonical_toDict (hread : e.WellRead) {mode : Value} : ∀ c ∈ canonicalEvidence env (.dict e.toDict) mode, c = e.shown := by
  intro c hc
  rw [canonicalEvidence] at hc
  split at hc
  · rw [← Option.some.inj hc]
    show (readFields env e.toDict).rebuild.read env = e.shown
    rw [readFields_toDict hread, read_rebuild_recorded hread]
  · cases hc

/-- The mapping of an evidence has no blocker but that of the mode. -/
theorem integrity_toDict (hread : e.WellRead) (mode : Value) : (capitalCapForMode env (.dict e.toDict) mode).integrity =
    blocker (modeText env mode ∉ ["SMALL_LIVE", "FULL_LIVE"]) "capital-rollout-mode-invalid" := by
  have hcanonical : ∀ c ∈ canonicalEvidence env (.dict e.toDict) mode, c = e.shown := canonical_toDict hread
  have hfields : readFields env ((Value.dict e.toDict).dict?.getD []) = e.recorded := readFields_toDict hread
  rw [capitalCapForMode]
  dsimp only
  rw [hfields, stageBlockers_recorded hread hcanonical, stageOf_recorded, rowBlockers_stageRow hread (cap_le_effectiveCeiling hread _),
    List.append_nil, List.append_nil, earlyBlockers_toDict hread]
  intro c hc
  obtain ⟨e', he', rfl⟩ := Option.map_eq_some_iff.mp hc
  rw [hcanonical e' he', Evidence.canonical_shown]

/-- Every blocker of a stage has a text. -/
theorem Evidence.blockers_ne (stage : Stage) : ∀ text ∈ e.blockers stage, text ≠ "" := by
  have hblocker : ∀ {condition : Prop} [Decidable condition] {text x : String}, text ≠ "" → x ∈ blocker condition text → x ≠ "" := by
    intro condition _ text x hne hx
    rw [blocker] at hx
    split at hx
    · rwa [List.mem_singleton.mp hx]
    · cases hx
  have hcommon : ∀ text ∈ e.commonBlockers, text ≠ "" := by
    intro text htext
    simp only [commonBlockers, List.mem_append] at htext
    rcases htext with ((((((((h | h) | h) | h) | h) | h) | h) | h) | h) | h
    all_goals exact hblocker (by decide) h
  have hsmall : ∀ text ∈ e.smallBlockers, text ≠ "" := by
    intro text htext
    simp only [smallBlockers, List.mem_append] at htext
    rcases htext with ((h | h) | h) | h
    · exact hcommon text h
    all_goals exact hblocker (by decide) h
  intro text htext
  cases stage with
  | canary =>
    rcases List.mem_append.mp htext with h | h
    · exact hcommon text h
    · exact hblocker (by decide) h
  | smallLive => exact hsmall text htext
  | fullLive =>
    have htext : text ∈ e.fullBlockers := htext
    simp only [fullBlockers, List.mem_append] at htext
    rcases htext with (((h | h) | h) | h) | h
    · exact hsmall text h
    all_goals exact hblocker (by decide) h

/-- The texts of the outcome are those of the stage. -/
theorem shownBlockers (env : Env) (texts : List String) (h : ∀ text ∈ texts, text ≠ "") :
    (((Value.texts texts.eraseDups).items.map env.str ++ []).filter (· ≠ "")).eraseDups = texts.eraseDups := by
  have htexts : (Value.texts texts.eraseDups).items.map env.str = texts.eraseDups := by
    show (texts.eraseDups.map Value.str).map env.str = _
    rw [List.map_map]
    exact List.map_id _
  have hkept : texts.eraseDups.filter (· ≠ "") = texts.eraseDups :=
    List.filter_eq_self.mpr fun text htext => decide_eq_true (h text (List.mem_eraseDups.mp htext))
  rw [htexts, List.append_nil, hkept, eraseDups_eraseDups]

theorem targetOf_shown {mode : Value} : targetOf env mode (some e.shown) = targetOf env mode (some e) := by
  have hready : e.shown.ready .smallLive = e.ready .smallLive := by
    rw [Evidence.ready, Evidence.ready, Evidence.blockers_shown]
  simp only [targetOf, Option.mem_def, Option.some.injEq, exists_eq_left', hready]

/-- **What was built** is what a live mode gets. -/
theorem outcome_toDict (hread : e.WellRead) {mode : Value} (hlive : modeText env mode ∈ ["SMALL_LIVE", "FULL_LIVE"]) :
    capitalCapForMode env (.dict e.toDict) mode = e.outcome (targetOf env mode (some e)) := by
  have hintegrity : (capitalCapForMode env (.dict e.toDict) mode).integrity = _ := integrity_toDict hread mode
  rw [blocker_eq_nil.mpr (not_not_intro hlive)] at hintegrity
  have hearly : earlyBlockers env (.dict e.toDict) mode = [] := by
    rw [earlyBlockers_toDict hread, blocker_eq_nil]
    exact not_not_intro hlive
  have hfields : readFields env ((Value.dict e.toDict).dict?.getD []) = e.recorded := readFields_toDict hread
  have hcanonical : canonicalEvidence env (.dict e.toDict) mode = some e.shown := by
    rw [canonicalEvidence, if_pos hearly, hfields, read_rebuild_recorded hread]
  rw [capitalCapForMode] at hintegrity ⊢
  dsimp only at hintegrity ⊢
  rw [hintegrity, hfields, hcanonical, stageOf_recorded, targetOf_shown]
  generalize targetOf env mode (some e) = stage
  have hcap : min (max 0 (e.cap stage)) (e.recorded.effectiveCeiling stage) = e.cap stage := by
    rw [max_eq_right (hread.cap_nonneg stage), min_eq_left (cap_le_effectiveCeiling hread stage)]
  have hblockers := shownBlockers env (e.blockers stage) (Evidence.blockers_ne stage)
  exact (Outcome.mk.injEq ..).mpr ⟨rfl, rfl, hcap, hblockers, rfl⟩

end built

theorem targetOf_full {env : Env} {mode : Value} (h : modeText env mode = "FULL_LIVE") (canonical : Option Evidence) :
    targetOf env mode canonical = .fullLive := if_pos h

theorem targetOf_small {env : Env} {mode : Value} (h : modeText env mode = "SMALL_LIVE") (e : Evidence) :
    targetOf env mode (some e) = if e.ready .smallLive = true then .smallLive else .canary := by
  have hfull : ¬modeText env mode = "FULL_LIVE" := by
    rw [h]
    decide
  rw [targetOf, if_neg hfull]
  simp only [h, true_and, Option.mem_def, Option.some.injEq, exists_eq_left']

/-! ## The checker and the builder -/

/-- **A cap is as strong as its evidence.**  A cap that is reported as ready is backed by what its mapping records; and every mapping
that is built is accepted, with no blocker of its own, and yields the stage it was built for. -/
theorem cap_is_backed (env : Env) :
    (∀ rollout mode, (capitalCapForMode env rollout mode).ready = true →
      Backed env (rollout.dict?.getD []) (capitalCapForMode env rollout mode)) ∧
    ∀ (a : Arguments) (mode : Value),
      (capitalCapForMode env (.dict (buildCapitalRollout env a)) mode).integrity =
        blocker (modeText env mode ∉ ["SMALL_LIVE", "FULL_LIVE"]) "capital-rollout-mode-invalid" ∧
      (modeText env mode = "FULL_LIVE" →
        capitalCapForMode env (.dict (buildCapitalRollout env a)) mode = (a.read env).outcome .fullLive) ∧
      (modeText env mode = "SMALL_LIVE" → capitalCapForMode env (.dict (buildCapitalRollout env a)) mode =
        (a.read env).outcome (if (a.read env).ready .smallLive = true then .smallLive else .canary)) := by
  refine ⟨fun rollout mode h => backed_of_ready h, fun a mode => ⟨integrity_toDict a.wellRead mode, fun hmode => ?_, fun hmode => ?_⟩⟩
  · rw [← targetOf_full hmode (some (a.read env))]
    refine outcome_toDict a.wellRead ?_
    rw [hmode]
    decide
  · rw [← targetOf_small hmode (a.read env)]
    refine outcome_toDict a.wellRead ?_
    rw [hmode]
    decide

/-- No text is a number. -/
def Env.sample : Env where
  float _ := none
  repr _ := ""
  text _ := ""

/-- The arguments of a deployment that has passed every stage. -/
def sampleArguments : Arguments where
  accountEquity := .int 1000
  availableCash := .int 500
  maxNotionalPercent := .int 10
  canaryFills := .int 25
  observationHours := .int 200
  reconciliationFresh := .bool true
  lineageValid := .bool true
  policyValid := .bool true
  soakStatus := .str "pass"

/-- The cap of the full stage is ready, and backed by the mapping. -/
theorem full_cap_is_backed : Backed Env.sample (buildCapitalRollout Env.sample sampleArguments)
      (capitalCapForMode Env.sample (.dict (buildCapitalRollout Env.sample sampleArguments)) (.str "FULL_LIVE")) ∧
    capitalCapForMode Env.sample (.dict (buildCapitalRollout Env.sample sampleArguments)) (.str "FULL_LIVE") =
      (sampleArguments.read Env.sample).outcome .fullLive := by
  obtain ⟨hbacked, hbuilt⟩ := cap_is_backed Env.sample
  refine ⟨hbacked (.dict (buildCapitalRollout Env.sample sampleArguments)) (.str "FULL_LIVE") ?_, (hbuilt _ _).2.1 ?_⟩
  · decide +kernel
  · decide

end LiveTrader.CapitalRollout
