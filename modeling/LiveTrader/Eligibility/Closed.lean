/-
# `Eligibility.Closed` — which artifacts stay closed to live trading

A block closes a standing for good (`Step`).  So a normalized artifact may be used exactly if nothing lowers it, its source path is no
marker of a demonstration, and something grants it (`canLiveSmall_iff`).

Every defect of an artifact lowers it but two: a marker of a demonstration that is not its source path is not carried over, and a
lineage that is rejected without an issue gives no reason to lower anything.
-/
import LiveTrader.Eligibility.Normalize

namespace LiveTrader.Eligibility

open Lib Lib.Py

/-! ## Closed standings -/

/-- A flag that lets an artifact be used live. -/
def Standing.grants (s : Standing) : Bool :=
  s.capabilities.liveSmallEligible || s.capabilities.liveEligible || s.permissions.liveSmallEligible || s.permissions.liveEligible ||
    s.permissions.liveAllowed

/-- No flag is left. -/
structure Standing.Closed (s : Standing) : Prop where
  small : s.capabilities.liveSmallEligible = false
  live : s.capabilities.liveEligible = false
  permitSmall : s.permissions.liveSmallEligible = false
  permitLive : s.permissions.liveEligible = false
  allowed : s.permissions.liveAllowed = false

theorem Standing.closed_iff {s : Standing} : s.Closed ↔ s.grants = false := by
  simp only [grants, Bool.or_eq_false_iff]
  constructor
  · rintro ⟨hsmall, hlive, hpermitSmall, hpermitLive, hallowed⟩
    exact ⟨⟨⟨⟨hsmall, hlive⟩, hpermitSmall⟩, hpermitLive⟩, hallowed⟩
  · rintro ⟨⟨⟨⟨hsmall, hlive⟩, hpermitSmall⟩, hpermitLive⟩, hallowed⟩
    exact ⟨hsmall, hlive, hpermitSmall, hpermitLive, hallowed⟩

/-- What a block does: under its condition it closes a standing, otherwise it leaves it alone. -/
structure Step (condition : Prop) (s s' : Standing) : Prop where
  closes : condition → s'.Closed
  keeps : s.Closed → s'.Closed
  same : ¬condition → s' = s

theorem Step.trans {p q : Prop} {s s' s'' : Standing} (h : Step p s s') (h' : Step q s' s'') : Step (p ∨ q) s s'' where
  closes hor := hor.elim (fun hp => h'.keeps (h.closes hp)) h'.closes
  keeps hclosed := h'.keeps (h.keeps hclosed)
  same hnot := by
    rw [not_or] at hnot
    rw [h'.same hnot.2, h.same hnot.1]

theorem Permissions.lower_eq_ok {p p' : Permissions} {reasons : List Json} (h : p.lower reasons = .ok p') :
    (p'.liveSmallEligible = false ∧ p'.liveEligible = false ∧ p'.liveAllowed = false) ∧
    fromkeys (p.failReasons ++ reasons) = .ok p'.failReasons := by
  obtain ⟨failReasons, hreasons, h⟩ := bind_eq_ok.mp h
  obtain rfl := Except.ok.inj h
  exact ⟨⟨rfl, rfl, rfl⟩, hreasons⟩

theorem Capabilities.lower_eq_ok {c c' : Capabilities} {reasons : List Json} (h : c.lower reasons = .ok c') :
    c'.liveSmallEligible = false ∧ c'.liveEligible = false := by
  obtain ⟨blocking, -, h⟩ := bind_eq_ok.mp h
  obtain ⟨failReasons, -, h⟩ := bind_eq_ok.mp h
  obtain rfl := Except.ok.inj h
  exact ⟨rfl, rfl⟩

theorem Standing.closed_of_lower {s s' : Standing} {reasons : List Json} (h : s.lower reasons = .ok s') : s'.Closed := by
  obtain ⟨permissions, hpermissions, h⟩ := bind_eq_ok.mp h
  obtain ⟨capabilities, hcapabilities, h⟩ := bind_eq_ok.mp h
  obtain rfl := Except.ok.inj h
  obtain ⟨⟨hsmall, hlive, hallowed⟩, -⟩ := Permissions.lower_eq_ok hpermissions
  obtain ⟨hcapable, hcapableLive⟩ := Capabilities.lower_eq_ok hcapabilities
  exact ⟨hcapable, hcapableLive, hsmall, hlive, hallowed⟩

theorem Standing.lowerIf_step {s s' : Standing} {condition : Bool} {reasons : Result (List Json)}
    (h : s.lowerIf condition reasons = .ok s') : Step (condition = true) s s' := by
  rw [Standing.lowerIf] at h
  cases condition with
  | true =>
    obtain ⟨found, -, h⟩ := bind_eq_ok.mp h
    have hclosed := closed_of_lower h
    exact ⟨fun _ => hclosed, fun _ => hclosed, fun hnot => absurd rfl hnot⟩
  | false =>
    obtain rfl := Except.ok.inj h
    exact ⟨fun hno => absurd hno Bool.false_ne_true, id, fun _ => rfl⟩

section artifact

variable {env : Env} {artifact : Fields}

/-! ## The blocks -/

/-- The exposure contract has a blocker. -/
def ExposureFails (env : Env) (artifact : Fields) : Prop := ∃ blockers, exposureBlockers env artifact = .ok blockers ∧ blockers ≠ []

/-- One of the blocks holds that lower the permissions too. -/
def Blocked (env : Env) (artifact : Fields) : Prop :=
  ((((candidateFails artifact = true ∨ lineageIssues env artifact ≠ []) ∨ futuresFails env artifact = true) ∨
    ExposureFails env artifact) ∨ providerFails env artifact = true) ∨ qualificationFails artifact = true

theorem lowerExposure_step {s s' : Standing} (h : lowerExposure env artifact s = .ok s') : Step (ExposureFails env artifact) s s' := by
  obtain ⟨blockers, hblockers, h⟩ := bind_eq_ok.mp h
  have hstep := Standing.lowerIf_step h
  have hiff : ExposureFails env artifact ↔ (!blockers.isEmpty) = true := by
    rw [Bool.not_eq_true', List.isEmpty_eq_false_iff]
    constructor
    · rintro ⟨found, hfound, hne⟩
      rwa [Except.ok.inj (hblockers.symm.trans hfound)]
    · exact fun hne => ⟨blockers, hblockers, hne⟩
  exact ⟨fun hc => hstep.closes (hiff.mp hc), hstep.keeps, fun hc => hstep.same fun hnot => hc (hiff.mpr hnot)⟩

/-- An expired revalidation takes no flag back. -/
theorem lowerExpired_eq_ok {s s' : Standing} (h : lowerExpired env artifact s = .ok s') :
    (s.Closed → s'.Closed) ∧ ((revalidationOf env artifact).expired = false → s' = s) := by
  rw [lowerExpired] at h
  split at h
  · next hexpired =>
    obtain ⟨capabilities, hcapabilities, h⟩ := bind_eq_ok.mp h
    obtain rfl := Except.ok.inj h
    obtain ⟨hsmall, hlive⟩ := Capabilities.lower_eq_ok hcapabilities
    refine ⟨fun hclosed => ⟨hsmall, hlive, hclosed.permitSmall, hclosed.permitLive, hclosed.allowed⟩, fun hnot => ?_⟩
    rw [hexpired] at hnot
    cases hnot
  · obtain rfl := Except.ok.inj h
    exact ⟨id, fun _ => rfl⟩

/-- **The blocks.**  What is closed stays closed; a block that holds closes; and where nothing holds, the standing is as it was. -/
theorem lowered_eq_ok {s s' : Standing} (h : lowered env artifact s = .ok s') : (s.Closed → s'.Closed) ∧
    (Blocked env artifact → s'.Closed) ∧
    ((revalidationOf env artifact).expired = false → ¬Blocked env artifact → s' = s) := by
  obtain ⟨s₁, h₁, h⟩ := bind_eq_ok.mp h
  obtain ⟨s₂, h₂, h⟩ := bind_eq_ok.mp h
  obtain ⟨s₃, h₃, h⟩ := bind_eq_ok.mp h
  obtain ⟨s₄, h₄, h⟩ := bind_eq_ok.mp h
  obtain ⟨s₅, h₅, h⟩ := bind_eq_ok.mp h
  obtain ⟨s₆, h₆, h₇⟩ := bind_eq_ok.mp h
  obtain ⟨hkeeps, hsame⟩ := lowerExpired_eq_ok h₁
  have hlineage : ((!(lineageIssues env artifact).isEmpty) = true) = (lineageIssues env artifact ≠ []) := by
    rw [Bool.not_eq_true', List.isEmpty_eq_false_iff]
  have hstep₃ := Standing.lowerIf_step h₃
  rw [hlineage] at hstep₃
  have hstep : Step (Blocked env artifact) s₁ s' :=
    (((((Standing.lowerIf_step h₂).trans hstep₃).trans (Standing.lowerIf_step h₄)).trans (lowerExposure_step h₅)).trans
      (Standing.lowerIf_step h₆)).trans (Standing.lowerIf_step h₇)
  refine ⟨fun hclosed => hstep.keeps (hkeeps hclosed), hstep.closes, fun hvalid hnot => ?_⟩
  rw [hstep.same hnot, hsame hvalid]

/-! ## The integrity result -/

theorem str_mem_firsts {s : String} : ∀ {values : List Json}, .str s ∈ values → .str s ∈ firsts values
  | x :: xs, h => by
    rw [firsts]
    rcases List.mem_cons.mp h with rfl | hmem
    · exact List.mem_cons_self
    · have hin := str_mem_firsts hmem
      cases hsame : (Json.str s).eq x with
      | true =>
        rw [Json.str_eq hsame]
        exact List.mem_cons_self
      | false =>
        refine List.mem_cons_of_mem _ (List.mem_filter.mpr ⟨hin, ?_⟩)
        rw [hsame]
        rfl

/-- A value that is not empty, or a list in its place, has items. -/
theorem iterate_ne_nil {value x : Json} {items : List Json} (h : iterate (value.orElse (.arr [x])) = .ok items) : items ≠ [] := by
  rw [Json.orElse] at h
  split at h
  · next htrue =>
    cases value with
    | arr found =>
      obtain rfl := Except.ok.inj h
      rintro rfl
      cases htrue
    | str s =>
      obtain rfl := Except.ok.inj h
      intro hnone
      have hempty : s = "" := String.toList_injective (List.map_eq_nil_iff.mp hnone)
      rw [hempty] at htrue
      cases htrue
    | obj fields =>
      obtain rfl := Except.ok.inj h
      intro hnone
      rw [List.map_eq_nil_iff.mp hnone] at htrue
      cases htrue
    | null | bool | int | float => cases h
  · obtain rfl := Except.ok.inj h
    exact List.cons_ne_nil _ _

/-- A reason that names the integrity result blocks. -/
theorem integrity_blocks (issue : String) : "artifact-integrity:" ++ issue ∉ nonBlockingCapabilityReasons := by
  intro h
  have heq := congrArg String.toList (List.mem_singleton.mp h)
  rw [String.toList_append] at heq
  cases heq

/-- Without an integrity result, or with a valid one, the permissions stay. -/
theorem checkIntegrity_same {p p' : Permissions} (h : checkIntegrity env artifact p = .ok p') (hvalid : integrityFails artifact = false) :
    p' = p := by
  rw [checkIntegrity, hvalid] at h
  exact (Except.ok.inj h).symm

/-- **The integrity result.**  One that is not valid closes the standing: its reasons block every capability. -/
theorem closed_of_integrity {p p' : Permissions} (h : checkIntegrity env artifact p = .ok p') (hfails : integrityFails artifact = true) :
    (standingOf env artifact p').Closed := by
  rw [checkIntegrity, if_pos hfails] at h
  obtain ⟨issues, hissues, h⟩ := bind_eq_ok.mp h
  obtain ⟨⟨hsmall, hlive, hallowed⟩, hreasons⟩ := Permissions.lower_eq_ok h
  -- one reason names the result
  obtain ⟨issue, hissue⟩ := List.exists_mem_of_ne_nil _ (iterate_ne_nil hissues)
  have hmem : Json.str ("artifact-integrity:" ++ env.str issue) ∈ p'.failReasons := by
    obtain ⟨_, -, hfirsts⟩ := bind_eq_ok.mp hreasons
    rw [← Except.ok.inj hfirsts]
    exact str_mem_firsts (List.mem_append_right _ (List.mem_map.mpr ⟨issue, hissue, rfl⟩))
  have hgiven : (Json.arr p'.failReasons).orElse (artifact.at "fail_reasons") = .arr p'.failReasons := by
    have htrue : (Json.arr p'.failReasons).truthy = true := by
      show (!p'.failReasons.isEmpty) = true
      rw [List.isEmpty_eq_false_iff.mpr (List.ne_nil_of_mem hmem)]
      rfl
    rw [Json.orElse, if_pos htrue]
  have hquality : ((reasonList ((Json.arr p'.failReasons).orElse (artifact.at "fail_reasons"))).filter
      fun reason => decide (env.str reason ∉ nonBlockingCapabilityReasons)).isEmpty = false := by
    rw [List.isEmpty_eq_false_iff, hgiven]
    exact List.ne_nil_of_mem (List.mem_filter.mpr ⟨hmem, decide_eq_true (integrity_blocks _)⟩)
  constructor
  case small =>
    show ((artifactCapabilities ..).liveSmallEligible || (!integrityFails artifact && _) || (!integrityFails artifact && _)) = false
    rw [hfails, artifactCapabilities]
    simp only [hquality, Bool.and_false, Bool.false_and, Bool.not_true, Bool.or_false]
  case live =>
    show ((artifactCapabilities ..).liveEligible || (!integrityFails artifact && _)) = false
    rw [hfails, artifactCapabilities]
    simp only [hquality, Bool.and_false, Bool.false_and, Bool.not_true, Bool.or_false]
  case permitSmall => exact hsmall
  case permitLive => exact hlive
  case allowed => exact hallowed

/-! ## The normalized mapping -/

/-- The source path is the marker of a demonstration; it is the one marker that a normalized artifact has. -/
def SourceIsDemo (env : Env) (artifact : Fields) : Prop :=
  lower (strip (env.text (artifact.at "_source_path"))) ∈ [uiDemoArtifactOrigin, "sample"]

theorem Env.text_str (s : String) : env.text (.str s) = s := by
  rw [Env.text, Json.orElse]
  split
  · rfl
  · next h =>
    have hempty : s = "" := by simpa [Json.truthy] using h
    rw [hempty]
    rfl

theorem isUiDemoArtifact_toFields {s : Standing} :
    isUiDemoArtifact env (s.toFields env artifact) = true ↔ SourceIsDemo env artifact := by
  have horigin : (s.toFields env artifact).at "artifact_origin" = .null := rfl
  have hsource : (s.toFields env artifact).at "source_path" = .str (env.text (artifact.at "_source_path")) := rfl
  have hpath : (s.toFields env artifact).at "artifact_source_path" = .str (env.text (artifact.at "_source_path")) := rfl
  have hdemo : isTrueAt (s.toFields env artifact) "ui_demo_only" = false := rfl
  have hsample : isTrueAt (s.toFields env artifact) "sample" = false := rfl
  have hnone : lower (strip (env.text .null)) = "" := by
    rw [show env.text .null = "" from rfl]
    decide
  simp only [isUiDemoArtifact, hdemo, hsample, List.map_cons, List.map_nil, horigin, hsource, hpath, hnone, Env.text_str, Bool.false_or,
    Bool.or_eq_true, decide_eq_true_eq, SourceIsDemo, List.mem_cons, List.not_mem_nil, or_false, or_self]
  constructor
  · rintro ((h | h) | (h | h))
    · exact absurd h (by decide)
    · exact .inl h.symm
    · exact absurd h (by decide)
    · exact .inr h.symm
  · rintro (h | h)
    · exact .inl (.inr h.symm)
    · exact .inr (.inr h.symm)

theorem showsExpired_toFields {s : Standing} : showsExpired (s.toFields env artifact) = (revalidationOf env artifact).expired := by
  have hnested : isTrueAt (dictValue ((s.toFields env artifact).at "revalidation")) "expired" = (revalidationOf env artifact).expired := by
    cases h : (revalidationOf env artifact).expired with
    | true | false =>
      show ((Json.bool (revalidationOf env artifact).expired).isTrue) = _
      rw [h]
      rfl
  have hflag : isTrueAt (s.toFields env artifact) "revalidation_expired" = (revalidationOf env artifact).expired := by
    cases h : (revalidationOf env artifact).expired with
    | true | false =>
      show ((Json.bool (revalidationOf env artifact).expired).isTrue) = _
      rw [h]
      rfl
  rw [showsExpired, hnested, hflag, Bool.or_self]

theorem isTrue_bool (b : Bool) : (Json.bool b).isTrue = b := by
  cases b with
  | true | false => rfl

/-- The predicate looks at the flags of the standing. -/
theorem canLiveSmall_toFields {s : Standing} : canLiveSmallUseArtifact env (s.toFields env artifact) = true ↔
    ¬SourceIsDemo env artifact ∧ (revalidationOf env artifact).expired = false ∧ s.grants = true := by
  have hcapable : isTrueAt (dictValue ((s.toFields env artifact).at "capabilities")) "liveSmallEligible" =
      s.capabilities.liveSmallEligible := isTrue_bool _
  have hcapableLive : isTrueAt (dictValue ((s.toFields env artifact).at "capabilities")) "liveEligible" =
      s.capabilities.liveEligible := isTrue_bool _
  have hsmall : isTrueAt (dictValue ((s.toFields env artifact).at "permissions")) "live_small_eligible" =
      s.permissions.liveSmallEligible := isTrue_bool _
  have hlive : isTrueAt (dictValue ((s.toFields env artifact).at "permissions")) "live_eligible" =
      s.permissions.liveEligible := isTrue_bool _
  have hallowed : isTrueAt (dictValue ((s.toFields env artifact).at "permissions")) "live_allowed" =
      s.permissions.liveAllowed := isTrue_bool _
  have htopSmall : isTrueAt (s.toFields env artifact) "live_small_eligible" = s.capabilities.liveSmallEligible := isTrue_bool _
  have htopLive : isTrueAt (s.toFields env artifact) "live_eligible" = s.capabilities.liveEligible := isTrue_bool _
  have htopAllowed : isTrueAt (s.toFields env artifact) "live_allowed" = false := rfl
  simp only [canLiveSmallUseArtifact, Bool.and_eq_true, Bool.not_eq_true', showsExpired_toFields, hcapable, hcapableLive, hsmall, hlive,
    hallowed, htopSmall, htopLive, htopAllowed, Standing.grants, Bool.or_eq_true]
  rw [← Bool.not_eq_true (isUiDemoArtifact env (s.toFields env artifact)), isUiDemoArtifact_toFields, and_assoc]
  simp only [or_false, Bool.false_eq_true]
  constructor
  · rintro ⟨hdemo, hexpired, h⟩
    refine ⟨hdemo, hexpired, ?_⟩
    rcases h with (((((h | h) | h) | h) | h) | h) | h
    · exact .inl (.inl (.inl (.inl h)))
    · exact .inl (.inl (.inl (.inr h)))
    · exact .inl (.inl (.inr h))
    · exact .inl (.inr h)
    · exact .inr h
    · exact .inl (.inl (.inl (.inl h)))
    · exact .inl (.inl (.inl (.inr h)))
  · rintro ⟨hdemo, hexpired, h⟩
    exact ⟨hdemo, hexpired, .inl (.inl h)⟩

/-- What may be used live may be used small. -/
theorem canLiveSmall_of_canLive {mapping : Fields} (h : canLiveUseArtifact env mapping = true) :
    canLiveSmallUseArtifact env mapping = true := by
  simp only [canLiveUseArtifact, canLiveSmallUseArtifact, Bool.and_eq_true, Bool.or_eq_true] at h ⊢
  obtain ⟨hopen, (((h | h) | h) | h) | h⟩ := h
  · exact ⟨hopen, .inl (.inl (.inl (.inl (.inl (.inl (.inr h))))))⟩
  · exact ⟨hopen, .inl (.inl (.inl (.inl (.inr h))))⟩
  · exact ⟨hopen, .inl (.inl (.inl (.inr h)))⟩
  · exact ⟨hopen, .inl (.inr h)⟩
  · exact ⟨hopen, .inr h⟩

/-! ## What grants -/

/-- A permission, a capability that the artifact claims, or one that it has earned. -/
def Granted (env : Env) (artifact : Fields) : Prop :=
  ∃ permissions, permissionsOf artifact = .ok permissions ∧
    (standingOf env artifact (normalizedPermissions env artifact permissions)).grants = true

/-- Something lowers the artifact. -/
def Lowered (env : Env) (artifact : Fields) : Prop :=
  (revalidationOf env artifact).expired = true ∨ integrityFails artifact = true ∨ Blocked env artifact

/-- **Live eligibility.**  A normalized artifact may be used live, at least small, exactly if its source path is no marker, nothing
lowers it and something grants it. -/
theorem canLiveSmall_iff {out : Fields} (h : normalizeStrategyArtifact env artifact = .ok out) :
    canLiveSmallUseArtifact env out = true ↔ ¬SourceIsDemo env artifact ∧ ¬Lowered env artifact ∧ Granted env artifact := by
  obtain ⟨permissions, hpermissions, h⟩ := bind_eq_ok.mp h
  obtain ⟨permitted, hpermitted, h⟩ := bind_eq_ok.mp h
  obtain ⟨standing, hstanding, h⟩ := bind_eq_ok.mp h
  obtain rfl := Except.ok.inj h
  obtain ⟨hkeeps, hcloses, hsame⟩ := lowered_eq_ok hstanding
  have hgranted : Granted env artifact ↔
      (standingOf env artifact (normalizedPermissions env artifact permissions)).grants = true := by
    constructor
    · rintro ⟨found, hfound, hgrants⟩
      rwa [Except.ok.inj (hpermissions.symm.trans hfound)]
    · exact fun hgrants => ⟨permissions, hpermissions, hgrants⟩
  have hopen : ∀ {s : Standing}, s.grants = true → ¬s.Closed := fun hgrants hclosed =>
    Bool.false_ne_true ((Standing.closed_iff.mp hclosed).symm.trans hgrants)
  rw [canLiveSmall_toFields]
  constructor
  · rintro ⟨hdemo, hexpired, hgrants⟩
    have hintegrity : integrityFails artifact = false :=
      Bool.eq_false_iff.mpr fun hfails => hopen hgrants (hkeeps (closed_of_integrity hpermitted hfails))
    have hblocked : ¬Blocked env artifact := fun hblocked => hopen hgrants (hcloses hblocked)
    refine ⟨hdemo, ?_, hgranted.mpr ?_⟩
    · rintro (h | h | h)
      · exact Bool.false_ne_true (hexpired.symm.trans h)
      · exact Bool.false_ne_true (hintegrity.symm.trans h)
      · exact hblocked h
    · rwa [hsame hexpired hblocked, checkIntegrity_same hpermitted hintegrity] at hgrants
  · rintro ⟨hdemo, hlowered, hgrant⟩
    simp only [Lowered, not_or, Bool.not_eq_true] at hlowered
    obtain ⟨hexpired, hintegrity, hblocked⟩ := hlowered
    refine ⟨hdemo, hexpired, ?_⟩
    rw [hsame hexpired hblocked, checkIntegrity_same hpermitted hintegrity]
    exact hgranted.mp hgrant

end artifact

/-! ## What closes an artifact, and what does not -/

section artifact

variable {env : Env} {artifact : Fields}

/-- A lineage of the artifact is not accepted. -/
def LineageFails (env : Env) (artifact : Fields) : Prop :=
  (backtestAssessment env artifact).fails = true ∨ (paperAssessment env artifact).fails = true ∨ datasetFails env artifact = true

/-- A lineage is rejected, and no issue says why. -/
def RejectedSilently (env : Env) (artifact : Fields) : Prop := LineageFails env artifact ∧ lineageIssues env artifact = []

/-- A defect that the code looks for in every artifact. -/
def Defective (env : Env) (artifact : Fields) : Prop :=
  isUiDemoArtifact env artifact = true ∨ (revalidationOf env artifact).expired = true ∨ integrityFails artifact = true ∨
    candidateFails artifact = true ∨ LineageFails env artifact ∨ futuresFails env artifact = true ∨ ExposureFails env artifact ∨
    providerFails env artifact = true ∨ qualificationFails artifact = true

theorem lowered_of_defective (h : Defective env artifact) :
    (isUiDemoArtifact env artifact = true ∨ RejectedSilently env artifact) ∨ Lowered env artifact := by
  rcases h with h | h | h | h | h | h | h | h | h
  · exact .inl (.inl h)
  · exact .inr (.inl h)
  · exact .inr (.inr (.inl h))
  · exact .inr (.inr (.inr (.inl (.inl (.inl (.inl (.inl h)))))))
  · by_cases hsilent : lineageIssues env artifact = []
    · exact .inl (.inr ⟨h, hsilent⟩)
    · exact .inr (.inr (.inr (.inl (.inl (.inl (.inl (.inr hsilent)))))))
  · exact .inr (.inr (.inr (.inl (.inl (.inl (.inr h))))))
  · exact .inr (.inr (.inr (.inl (.inl (.inr h)))))
  · exact .inr (.inr (.inr (.inl (.inr h))))
  · exact .inr (.inr (.inr (.inr h)))

/-- **Failing closed.**  A defective artifact stays closed to live trading exactly if, where it is a demonstration or its lineage is
rejected without an issue, its source path is a marker, something else lowers it, or nothing grants it. -/
theorem defective_is_closed_iff {out : Fields} (h : normalizeStrategyArtifact env artifact = .ok out) :
    (Defective env artifact → canLiveUseArtifact env out = false ∧ canLiveSmallUseArtifact env out = false) ↔
      (isUiDemoArtifact env artifact = true ∨ RejectedSilently env artifact →
        SourceIsDemo env artifact ∨ Lowered env artifact ∨ ¬Granted env artifact) := by
  have hsmall := canLiveSmall_iff h
  constructor
  · intro hclosed hdefect
    have hdefective : Defective env artifact := hdefect.elim .inl fun hsilent => .inr (.inr (.inr (.inr (.inl hsilent.1))))
    obtain ⟨-, hno⟩ := hclosed hdefective
    by_contra hopen
    simp only [not_or, not_not] at hopen
    exact Bool.false_ne_true (hno.symm.trans (hsmall.mpr hopen))
  · intro hcondition hdefective
    have hno : canLiveSmallUseArtifact env out = false := by
      refine Bool.eq_false_iff.mpr fun hopen => ?_
      obtain ⟨hsource, hlowered, hgranted⟩ := hsmall.mp hopen
      rcases lowered_of_defective hdefective with hdefect | hlow
      · rcases hcondition hdefect with hmarked | hlow | hnot
        · exact hsource hmarked
        · exact hlowered hlow
        · exact hnot hgranted
      · exact hlowered hlow
    exact ⟨Bool.eq_false_iff.mpr fun hlive => Bool.false_ne_true (hno.symm.trans (canLiveSmall_of_canLive hlive)), hno⟩

end artifact

/-! ## Artifacts -/

/-- Validators that accept every artifact, except for a manifest, which is rejected without an issue. -/
def Env.sample : Env where
  repr _ := ""
  now := 0
  fromisoformat _ := none
  activeRevalidationStages := []
  lifecycleAtLeast _ _ := false
  normalizeLifecycleStatus _ := "draft"
  validateLineageManifest manifest _ := ⟨manifest.isEmpty, manifest.isEmpty, []⟩
  exposureContractFromArtifact _ := []
  providerReconciliationFromArtifact _ := []
  providerReconciliationLiveReady _ := true
  futuresExecutionPolicyFromArtifact _ := []

/-- An artifact whose permissions allow live trading. -/
def allowed (fields : Fields) : Fields := ("permissions", .obj [("live_allowed", .bool true)]) :: fields

/-- A demonstration may be used live, and so may an artifact whose lineage is rejected without an issue. -/
theorem demo_is_live : (isUiDemoArtifact Env.sample (allowed [("ui_demo_only", .bool true)]) = true ∧
      ∃ out, normalizeStrategyArtifact Env.sample (allowed [("ui_demo_only", .bool true)]) = .ok out ∧
        canLiveUseArtifact Env.sample out = true) ∧
    ((backtestAssessment Env.sample (allowed [("lineageManifest", .obj [("stage", .str "backtest")])])).fails = true ∧
      ∃ out, normalizeStrategyArtifact Env.sample (allowed [("lineageManifest", .obj [("stage", .str "backtest")])]) = .ok out ∧
        canLiveUseArtifact Env.sample out = true) := by
  decide

/-- An artifact whose integrity result is not valid. -/
def tampered : Fields := allowed [("_artifact_integrity", .obj [("valid", .bool false)])]

/-- It stays closed, though its permissions allow live trading. -/
theorem tampered_is_closed : ∃ out, normalizeStrategyArtifact Env.sample tampered = .ok out ∧
    canLiveUseArtifact Env.sample out = false ∧ canLiveSmallUseArtifact Env.sample out = false := by
  have hok : ∃ out, normalizeStrategyArtifact Env.sample tampered = .ok out ∧ True := by decide
  obtain ⟨out, h, -⟩ := hok
  have hfails : integrityFails tampered = true := by decide
  exact ⟨out, h, (defective_is_closed_iff h).mpr (fun _ => .inr (.inl (.inr (.inl hfails)))) (.inr (.inr (.inl hfails)))⟩

end LiveTrader.Eligibility
