/-
# `Portfolio.Remainders` — the split of a fill in closed form

The repair loop of `proportionalSignedQuantities` sorts the sleeves anew for every share that it hands out, and a
sleeve that has had one comes last from then on: each sleeve has the whole part of its ideal share, and one more if
its remainder is among the first (`proportional_eq`).  How many are rounded up depends on the running total, so a
sleeve that is rounded up at one total may be rounded down at a later one (`monotone_iff`).
-/
import LiveTrader.Portfolio.ApportionSound
import Mathlib.Data.Prod.Lex

namespace LiveTrader.Portfolio

open Lib.Py Lib.Decimal

/-! ## Whole parts and remainders -/

section parts

variable (allocations : List SleeveAllocation) (filled : ℕ)

/-- The ideal share of a sleeve at a running total. -/
def idealAt (a : SleeveAllocation) : ℚ := idealShare (ctx 28 ((filled : ℚ) / |netQuantity allocations|)) a

/-- What the sleeve has before the repair loop. -/
def wholeAt (a : SleeveAllocation) : ℤ := wholePart (idealAt allocations filled a)

/-- The score of the sleeve when the loop begins. -/
def remainderAt (a : SleeveAllocation) : ℚ := ctx 28 (|idealAt allocations filled a| - |wholeAt allocations filled a|)

/-- The sort key `(-score, sleeve_id, intent_id)`. -/
def rank (a : SleeveAllocation) : ℚ ×ₗ (String ×ₗ String) :=
  toLex (-remainderAt allocations filled a, toLex (a.sleeveId.val, a.intentId.val))

/-- How many shares the whole parts leave. -/
def leftOver : ℕ := filled - (allocations.map fun a => (wholeAt allocations filled a).natAbs).sum

/-- Fewer sleeves come before this one than shares are left. -/
def RoundedUp (a : SleeveAllocation) : Prop :=
  (allocations.filter fun b => rank allocations filled b < rank allocations filled a).length < leftOver allocations filled

instance (a : SleeveAllocation) : Decidable (RoundedUp allocations filled a) := inferInstanceAs (Decidable (_ < _))

end parts

/-- A sleeve loses the share that it was rounded up by. -/
def FallsBack (allocations : List SleeveAllocation) (filled later : ℕ) : Prop :=
  ∃ a ∈ allocations, wholeAt allocations filled a = wholeAt allocations later a ∧
    RoundedUp allocations filled a ∧ ¬ RoundedUp allocations later a

instance (allocations : List SleeveAllocation) (filled later : ℕ) : Decidable (FallsBack allocations filled later) := by
  unfold FallsBack; infer_instance

/-! ## The order of the candidates -/

/-- The sort key of a candidate. -/
def Candidate.key (c : Candidate) : ℚ ×ₗ (String ×ₗ String) := toLex (-c.score, toLex (c.sleeveId.val, c.intentId.val))

theorem candidateLe_iff (a b : Candidate) : candidateLe a b ↔ a.key ≤ b.key := by
  rw [candidateLe, Candidate.key, Candidate.key, Prod.Lex.toLex_le_toLex, Prod.Lex.toLex_le_toLex]
  simp only [neg_lt_neg_iff, neg_inj]

instance : Std.Total candidateLe := ⟨fun a b => by
  rw [candidateLe_iff, candidateLe_iff]
  exact le_total _ _⟩

instance : IsTrans Candidate candidateLe := ⟨fun a b c hab hbc => by
  rw [candidateLe_iff] at *
  exact hab.trans hbc⟩

/-- The chosen candidate comes before all others. -/
theorem best_le {l rest : List Candidate} {best : Candidate} (h : l.insertionSort candidateLe = best :: rest) :
    best ∈ l ∧ ∀ c ∈ l, best.key ≤ c.key := by
  have hsorted := List.pairwise_insertionSort candidateLe l
  rw [h] at hsorted
  have hmem : ∀ c, c ∈ l ↔ c ∈ best :: rest := fun c => by rw [← h, List.mem_insertionSort]
  refine ⟨(hmem best).mpr List.mem_cons_self, fun c hc => ?_⟩
  rcases List.mem_cons.mp ((hmem c).mp hc) with rfl | hc
  · exact le_rfl
  · exact (candidateLe_iff _ _).mp (List.rel_of_pairwise_cons hsorted hc)

/-! ## The candidates of a list of shares -/

section state

variable {direction : ℤ} {ideal : SleeveAllocation → ℚ} {share : SleeveAllocation → ℤ}

theorem mem_candidates_map {c : Candidate} : ∀ {allocations : List SleeveAllocation} {index : ℕ},
    c ∈ candidates direction allocations (allocations.map ideal) (allocations.map share) index ↔
      ∃ i a, allocations[i]? = some a ∧ candidate direction a (ideal a) (share a) (index + i) = some c := by
  intro allocations
  induction allocations with
  | nil =>
    intro index
    rw [List.map_nil, List.map_nil, candidates]
    · constructor
      · intro h
        cases h
      · rintro ⟨i, a, h, -⟩
        cases h
    · intro _ _ _ _ _ _ h
      cases h
  | cons a allocations ih =>
    intro index
    rw [List.map_cons, List.map_cons, candidates, List.mem_append, Option.mem_toList, ih]
    constructor
    · rintro (h | ⟨i, b, hb, h⟩)
      · exact ⟨0, a, rfl, h⟩
      · exact ⟨i + 1, b, hb, by rwa [Nat.add_right_comm] at h⟩
    · rintro ⟨i, b, hb, h⟩
      cases i with
      | zero =>
        obtain rfl := Option.some.inj hb
        exact .inl h
      | succ i => exact .inr ⟨i, b, hb, by rwa [Nat.add_right_comm]⟩

theorem modify_map : ∀ {allocations : List SleeveAllocation}, allocations.Nodup → ∀ {i : ℕ} {a : SleeveAllocation},
    allocations[i]? = some a → (allocations.map share).modify i (· + direction) =
      allocations.map fun b => if b = a then share b + direction else share b := by
  intro allocations
  induction allocations with
  | nil =>
    intro _ i a h
    cases h
  | cons b allocations ih =>
    intro hnd i a h
    rw [List.nodup_cons] at hnd
    cases i with
    | zero =>
      obtain rfl := Option.some.inj h
      rw [List.map_cons, List.modify_zero_cons, List.map_cons, if_pos rfl]
      refine congrArg _ (List.map_congr_left fun c hc => ?_)
      have hne : c ≠ b := by
        rintro rfl
        exact hnd.1 hc
      rw [if_neg hne]
    | succ i =>
      have hmem : a ∈ allocations := List.mem_of_getElem? h
      have hne : b ≠ a := by
        rintro rfl
        exact hnd.1 hmem
      rw [List.map_cons, List.modify_succ_cons, ih hnd.2 h, List.map_cons, if_neg hne]

end state

/-! ## Along the order -/

section along

variable {allocations : List SleeveAllocation} {side : Side} {filled : ℕ}

theorem ratio_nonneg : 0 ≤ ctx 28 ((filled : ℚ) / |netQuantity allocations|) := ctx_nonneg (by positivity)

theorem idealAt_along {a : SleeveAllocation} (ha : 0 < a.signedQuantity * side.sign) :
    idealAt allocations filled a = side.sign * |idealAt allocations filled a| := by
  rcases side.sign_eq with h | h
  · have hpos : (0 : ℚ) ≤ a.signedQuantity := by
      rw [h, mul_one] at ha
      exact_mod_cast ha.le
    have hle : 0 ≤ idealAt allocations filled a := ctx_nonneg (mul_nonneg hpos ratio_nonneg)
    rw [h, Int.cast_one, one_mul, abs_of_nonneg hle]
  · have hneg : (a.signedQuantity : ℚ) ≤ 0 := by
      rw [h] at ha
      have hlt : a.signedQuantity < 0 := by omega
      exact_mod_cast hlt.le
    have hle : idealAt allocations filled a ≤ 0 := by
      rw [← ctx_zero 28]
      exact ctx_mono (by norm_num) (mul_nonpos_of_nonpos_of_nonneg hneg ratio_nonneg)
    rw [h, abs_of_nonpos hle]
    push_cast
    ring

theorem wholeAt_along {a : SleeveAllocation} (ha : 0 < a.signedQuantity * side.sign) :
    wholeAt allocations filled a = side.sign * ⌊|idealAt allocations filled a|⌋ := by
  have hideal := @idealAt_along allocations side filled _ ha
  rw [wholeAt, wholePart, truncZ_of_nonneg (abs_nonneg _)]
  rcases side.sign_eq with h | h
  · rw [h, Int.cast_one, one_mul] at hideal
    rw [h, if_pos (hideal ▸ abs_nonneg _)]
    ring
  · rw [h] at hideal ⊢
    push_cast at hideal
    by_cases hzero : 0 ≤ idealAt allocations filled a
    · have habs : |idealAt allocations filled a| = 0 := by
        have h0 := abs_nonneg (idealAt allocations filled a)
        linarith
      rw [habs, Int.floor_zero]
      ring
    · rw [if_neg hzero]
      ring

theorem abs_wholeAt {a : SleeveAllocation} (ha : 0 < a.signedQuantity * side.sign) :
    |wholeAt allocations filled a| = ⌊|idealAt allocations filled a|⌋ := by
  have hfloor : 0 ≤ ⌊|idealAt allocations filled a|⌋ := Int.floor_nonneg.mpr (abs_nonneg _)
  rw [wholeAt_along ha, abs_mul, abs_of_nonneg hfloor]
  rcases side.sign_eq with h | h
  · rw [h, abs_one, one_mul]
  · rw [h, abs_neg, abs_one, one_mul]

/-- Of an ideal share less than one is left. -/
theorem remainder_bounds {a : SleeveAllocation} (ha : 0 < a.signedQuantity * side.sign) :
    0 ≤ |idealAt allocations filled a| - |wholeAt allocations filled a| ∧
      |idealAt allocations filled a| - |wholeAt allocations filled a| < 1 := by
  rw [abs_wholeAt ha]
  have hlow := Int.floor_le |idealAt allocations filled a|
  have hhigh := Int.lt_floor_add_one |idealAt allocations filled a|
  constructor
  · linarith
  · linarith

theorem candidate_along {a : SleeveAllocation} (ha : 0 < a.signedQuantity * side.sign) (ideal : ℚ) (share : ℤ) (i : ℕ) :
    candidate side.sign a ideal share i =
      if share * side.sign < a.signedQuantity * side.sign then
        some ⟨ctx 28 ((ideal - share) * side.sign), a.sleeveId, a.intentId, i⟩
      else none := by
  rw [candidate]
  rcases side.sign_eq with h | h
  · rw [h] at ha ⊢
    rw [Int.cast_one, mul_one (ideal - share)]
    by_cases hroom : share < a.signedQuantity
    · rw [if_pos ⟨by norm_num, by omega, hroom⟩, if_pos (by omega)]
    · rw [if_neg fun hc => hroom hc.2.2, if_neg fun hc => absurd hc.1 (by norm_num), if_neg (by omega)]
  · rw [h] at ha ⊢
    have hflip : (ideal - share) * ((-1 : ℤ) : ℚ) = share - ideal := by
      push_cast
      ring
    rw [if_neg fun hc => absurd hc.1 (by norm_num), hflip]
    by_cases hroom : a.signedQuantity < share
    · rw [if_pos ⟨by norm_num, by omega, hroom⟩, if_pos (by omega)]
    · rw [if_neg fun hc => hroom hc.2.2, if_neg (by omega)]

theorem sign_mul_sign (side : Side) : (side.sign : ℚ) * side.sign = 1 := by
  rcases side.sign_eq with h | h
  · rw [h]
    norm_num
  · rw [h]
    norm_num

theorem ctx_neg_of_neg {x : ℚ} (hx : x < 0) : ctx 28 x < 0 := by
  have hpos : 0 < ctx 28 (-x) := lt_of_lt_of_le (zpow_pos (by norm_num) _) (decade_le_ctx (by norm_num) (neg_pos.mpr hx))
  rw [ctx_neg] at hpos
  linarith

/-- Before its turn a sleeve stands where its remainder puts it, afterwards behind all remainders. -/
theorem score_unserved {a : SleeveAllocation} (ha : 0 < a.signedQuantity * side.sign) :
    ctx 28 ((idealAt allocations filled a - wholeAt allocations filled a) * side.sign) = remainderAt allocations filled a := by
  have hideal := @idealAt_along allocations side filled _ ha
  have hwhole := @wholeAt_along allocations side filled _ ha
  rw [remainderAt, abs_wholeAt ha]
  congr 1
  calc (idealAt allocations filled a - wholeAt allocations filled a) * side.sign
      = (side.sign * |idealAt allocations filled a| - side.sign * ⌊|idealAt allocations filled a|⌋) * side.sign := by
        rw [← hideal, hwhole]
        push_cast
        rfl
    _ = side.sign * side.sign * (|idealAt allocations filled a| - ⌊|idealAt allocations filled a|⌋) := by ring
    _ = |idealAt allocations filled a| - ⌊|idealAt allocations filled a|⌋ := by rw [sign_mul_sign, one_mul]

theorem score_served {a : SleeveAllocation} (ha : 0 < a.signedQuantity * side.sign) :
    ctx 28 ((idealAt allocations filled a - (wholeAt allocations filled a + side.sign : ℤ)) * side.sign) < 0 := by
  have hbounds := (@remainder_bounds allocations side filled _ ha).2
  have hideal := @idealAt_along allocations side filled _ ha
  have hwhole := @wholeAt_along allocations side filled _ ha
  rw [abs_wholeAt ha] at hbounds
  refine ctx_neg_of_neg ?_
  have hsplit : (idealAt allocations filled a - (wholeAt allocations filled a + side.sign : ℤ)) * side.sign =
      side.sign * side.sign * (|idealAt allocations filled a| - ⌊|idealAt allocations filled a|⌋ - 1) := by
    rw [hwhole]
    nth_rewrite 1 [hideal]
    push_cast
    ring
  rw [hsplit, sign_mul_sign, one_mul]
  linarith

end along

/-! ## The loop -/

section loop

variable {allocations : List SleeveAllocation} {side : Side} {filled : ℕ}

/-- The shares when some sleeves have been served. -/
def sharesWith (allocations : List SleeveAllocation) (side : Side) (filled : ℕ) (served : List SleeveAllocation) : List ℤ :=
  allocations.map fun a => if a ∈ served then wholeAt allocations filled a + side.sign else wholeAt allocations filled a

/-- The first sleeves by their rank. -/
structure Served (allocations : List SleeveAllocation) (filled : ℕ) (served : List SleeveAllocation) : Prop where
  subset : served ⊆ allocations
  nodup : served.Nodup
  first : ∀ a ∈ served, ∀ b ∈ allocations, b ∉ served → rank allocations filled a < rank allocations filled b

theorem Served.nil : Served allocations filled [] :=
  ⟨List.nil_subset _, List.nodup_nil, fun _ ha => absurd ha List.not_mem_nil⟩

theorem nodup_of_keys (hkeys : (allocations.map fun a => (a.sleeveId, a.intentId)).Nodup) : allocations.Nodup := .of_map _ hkeys

theorem rank_ne (hkeys : (allocations.map fun a => (a.sleeveId, a.intentId)).Nodup) {a b : SleeveAllocation} (ha : a ∈ allocations)
    (hb : b ∈ allocations) (hne : a ≠ b) : rank allocations filled a ≠ rank allocations filled b := by
  intro h
  obtain ⟨-, hids⟩ := Prod.mk.inj (toLex_inj.mp h)
  obtain ⟨hsleeve, hintent⟩ := Prod.mk.inj (toLex_inj.mp hids)
  exact hne (List.inj_on_of_nodup_map hkeys ha hb (Prod.ext (Subtype.ext hsleeve) (Subtype.ext hintent)))

/-- Every whole part leaves room for one share more. -/
def Roomy (allocations : List SleeveAllocation) (side : Side) (filled : ℕ) : Prop :=
  ∀ a ∈ allocations, wholeAt allocations filled a * side.sign < a.signedQuantity * side.sign

theorem remainderAt_nonneg {a : SleeveAllocation} (ha : 0 < a.signedQuantity * side.sign) : 0 ≤ remainderAt allocations filled a :=
  ctx_nonneg (remainder_bounds ha).1

/-- **One turn** serves the first of the sleeves that are left. -/
theorem Served.next (hs : OneSided side allocations) (hkeys : (allocations.map fun a => (a.sleeveId, a.intentId)).Nodup)
    (hroom : Roomy allocations side filled) {served : List SleeveAllocation} (h : Served allocations filled served)
    (hlength : served.length < allocations.length) {best : Candidate} {rest : List Candidate}
    (hbest : (candidates side.sign allocations (allocations.map (idealAt allocations filled))
      (sharesWith allocations side filled served) 0).insertionSort candidateLe = best :: rest) :
    ∃ a, allocations[best.index]? = some a ∧ Served allocations filled (a :: served) := by
  obtain ⟨hmem, hle⟩ := best_le hbest
  obtain ⟨i, a, ha, hcandidate⟩ := mem_candidates_map.mp hmem
  have hamem : a ∈ allocations := List.mem_of_getElem? ha
  -- a sleeve that is left is a candidate with its remainder
  have hleft : ∀ b ∈ allocations, b ∉ served → best.key ≤ rank allocations filled b := by
    intro b hb hnot
    obtain ⟨j, hj, hjb⟩ := List.mem_iff_getElem.mp hb
    refine hle ⟨remainderAt allocations filled b, b.sleeveId, b.intentId, j⟩ (mem_candidates_map.mpr ⟨j, b, ?_, ?_⟩)
    · rw [List.getElem?_eq_getElem hj, hjb]
    · rw [if_neg hnot, candidate_along (hs b hb), if_pos (hroom b hb), score_unserved (hs b hb), zero_add]
  obtain ⟨b, hb, hnot⟩ : ∃ b ∈ allocations, b ∉ served := by
    by_contra hall
    push Not at hall
    exact absurd ((nodup_of_keys hkeys).subperm fun b hb => hall b hb).length_le (not_le.mpr hlength)
  rw [candidate_along (hs a hamem), Option.ite_none_right_eq_some] at hcandidate
  obtain rfl := Option.some.inj hcandidate.2
  have hnew : a ∉ served := by
    intro hserved
    have hkey := Prod.Lex.toLex_le_toLex.mp (hleft b hb hnot)
    have hscore := @score_served allocations side filled _ (hs a hamem)
    have hremainder := @remainderAt_nonneg allocations side filled _ (hs b hb)
    simp only [if_pos hserved] at hkey
    rcases hkey with hlt | ⟨heq, -⟩
    · linarith
    · linarith
  refine ⟨a, by rwa [zero_add], List.cons_subset.mpr ⟨hamem, h.subset⟩, List.nodup_cons.mpr ⟨hnew, h.nodup⟩, ?_⟩
  intro c hc d hd hnotd
  rw [List.mem_cons, not_or] at hnotd
  rcases List.mem_cons.mp hc with rfl | hc
  · have hkey := hleft d hd hnotd.2
    simp only [if_neg hnew] at hkey
    have hrank : rank allocations filled c ≤ rank allocations filled d := by
      refine le_trans (le_of_eq ?_) hkey
      rw [rank, Candidate.key, score_unserved (hs c hamem)]
    exact hrank.lt_of_ne (rank_ne hkeys hamem hd (Ne.symm hnotd.1))
  · exact h.first c hc d hd hnotd.2

/-- **The loop** serves the first sleeves, as many as shares are left. -/
theorem conserve_served (hs : OneSided side allocations) (hkeys : (allocations.map fun a => (a.sleeveId, a.intentId)).Nodup)
    (hroom : Roomy allocations side filled) {shares : List ℤ} : ∀ {distance : ℕ} {served : List SleeveAllocation},
    Served allocations filled served → served.length + distance ≤ allocations.length →
    conserve side.sign allocations (allocations.map (idealAt allocations filled)) distance (sharesWith allocations side filled served) =
      .ok shares →
    ∃ all, Served allocations filled all ∧ all.length = served.length + distance ∧ shares = sharesWith allocations side filled all := by
  intro distance
  induction distance with
  | zero =>
    intro served h _ hok
    exact ⟨served, h, rfl, (Except.ok.inj hok).symm⟩
  | succ distance ih =>
    intro served h hlength hok
    rw [conserve] at hok
    split at hok
    · cases hok
    · next best rest hbest =>
      obtain ⟨a, ha, hnext⟩ := h.next hs hkeys hroom (by omega) hbest
      have hstate : (sharesWith allocations side filled served).modify best.index (· + side.sign) =
          sharesWith allocations side filled (a :: served) := by
        rw [sharesWith, modify_map (nodup_of_keys hkeys) ha, sharesWith]
        refine List.map_congr_left fun b _ => ?_
        have hnot : a ∉ served := (List.nodup_cons.mp hnext.nodup).1
        by_cases hba : b = a
        · rw [if_pos hba, hba, if_neg hnot, if_pos List.mem_cons_self]
        · rw [if_neg hba]
          refine if_congr ?_ rfl rfl
          rw [List.mem_cons, or_iff_right hba]
      rw [hstate] at hok
      obtain ⟨all, hall, hcount, hshares⟩ := ih hnext (by rw [List.length_cons]; omega) hok
      refine ⟨all, hall, ?_, hshares⟩
      rw [hcount, List.length_cons]
      omega

/-- Who has been served is told from how many there are before. -/
theorem Served.mem_iff (hkeys : (allocations.map fun a => (a.sleeveId, a.intentId)).Nodup) {served : List SleeveAllocation}
    (h : Served allocations filled served) {a : SleeveAllocation} (ha : a ∈ allocations) :
    a ∈ served ↔ (allocations.filter fun b => rank allocations filled b < rank allocations filled a).length < served.length := by
  have hnd := (nodup_of_keys hkeys).filter fun b => decide (rank allocations filled b < rank allocations filled a)
  constructor
  · intro hserved
    have hsub : (allocations.filter fun b => rank allocations filled b < rank allocations filled a) ⊆ served.erase a := by
      intro b hb
      obtain ⟨hball, hlt⟩ := List.mem_filter.mp hb
      have hlt : rank allocations filled b < rank allocations filled a := of_decide_eq_true hlt
      refine (h.nodup.mem_erase_iff).mpr ⟨?_, ?_⟩
      · rintro rfl
        exact lt_irrefl _ hlt
      · by_contra hnot
        exact lt_asymm hlt (h.first a hserved b hball hnot)
    have hle := (hnd.subperm hsub).length_le
    rw [List.length_erase_of_mem hserved] at hle
    have hpos := List.length_pos_of_mem hserved
    omega
  · intro hlt
    by_contra hnot
    have hsub : served ⊆ allocations.filter fun b => rank allocations filled b < rank allocations filled a := fun b hb =>
      List.mem_filter.mpr ⟨h.subset hb, decide_eq_true (h.first b hb a ha hnot)⟩
    exact absurd (h.nodup.subperm hsub).length_le (not_le.mpr hlt)

end loop

/-! ## The closed form -/

section closed

variable {allocations : List SleeveAllocation} {side : Side} {filled : ℕ}

theorem abs_idealAt (a : SleeveAllocation) : |idealAt allocations filled a| =
    ctx 28 (|(a.signedQuantity : ℚ)| * ctx 28 ((filled : ℚ) / |netQuantity allocations|)) := by
  have hratio : 0 ≤ ctx 28 ((filled : ℚ) / |netQuantity allocations|) := ratio_nonneg
  rw [idealAt, idealShare]
  rcases le_total 0 (a.signedQuantity : ℚ) with hpos | hneg
  · rw [abs_of_nonneg hpos, abs_of_nonneg (ctx_nonneg (mul_nonneg hpos hratio))]
  · rw [abs_of_nonpos hneg, neg_mul, ctx_neg]
    refine abs_of_nonpos ?_
    rw [← ctx_zero 28]
    exact ctx_mono (by norm_num) (mul_nonpos_of_nonpos_of_nonneg hneg hratio)

theorem abs_idealAt_mono {later : ℕ} (h : filled ≤ later) (a : SleeveAllocation) :
    |idealAt allocations filled a| ≤ |idealAt allocations later a| := by
  rw [abs_idealAt, abs_idealAt]
  refine ctx_mono (by norm_num) (mul_le_mul_of_nonneg_left (ctx_mono (by norm_num) ?_) (abs_nonneg _))
  have hcast : (filled : ℚ) ≤ later := by exact_mod_cast h
  gcongr

/-- Two roundings take hardly anything away. -/
theorem abs_idealAt_ge (a : SleeveAllocation) :
    |(a.signedQuantity : ℚ)| * ((filled : ℚ) / |netQuantity allocations|) * (1 - 2 / 10 ^ 27) ≤ |idealAt allocations filled a| := by
  set ratio := (filled : ℚ) / |netQuantity allocations|
  have hratio : 0 ≤ ratio := by positivity
  have hquantity : 0 ≤ |(a.signedQuantity : ℚ)| := abs_nonneg _
  have hunit : (10 : ℚ) ^ (1 - ((28 : ℕ) : ℤ)) = 1 / 10 ^ 27 := by norm_num
  have hfirst := (abs_le.mp (abs_ctx_sub_le 28 ratio)).1
  have hsecond := (abs_le.mp (abs_ctx_sub_le 28 (|(a.signedQuantity : ℚ)| * ctx 28 ratio))).1
  rw [hunit, abs_of_nonneg hratio] at hfirst
  rw [hunit, abs_of_nonneg (mul_nonneg hquantity (ctx_nonneg hratio))] at hsecond
  rw [abs_idealAt]
  have hlower : ratio * (1 - 1 / 10 ^ 27) ≤ ctx 28 ratio := by linarith
  calc |(a.signedQuantity : ℚ)| * ratio * (1 - 2 / 10 ^ 27)
      ≤ |(a.signedQuantity : ℚ)| * ratio * ((1 - 1 / 10 ^ 27) * (1 - 1 / 10 ^ 27)) := by
        refine mul_le_mul_of_nonneg_left ?_ (mul_nonneg hquantity hratio)
        norm_num
    _ = |(a.signedQuantity : ℚ)| * (ratio * (1 - 1 / 10 ^ 27)) * (1 - 1 / 10 ^ 27) := by ring
    _ ≤ |(a.signedQuantity : ℚ)| * ctx 28 ratio * (1 - 1 / 10 ^ 27) := by
        refine mul_le_mul_of_nonneg_right (mul_le_mul_of_nonneg_left hlower hquantity) (by norm_num)
    _ ≤ ctx 28 (|(a.signedQuantity : ℚ)| * ctx 28 ratio) := by linarith

/-- The allocations of an order come to its net. -/
theorem sum_abs_signed (hs : OneSided side allocations) :
    (allocations.map fun a => |(a.signedQuantity : ℚ)|).sum = |(netQuantity allocations : ℚ)| := by
  have habs : ∀ a ∈ allocations, |(a.signedQuantity : ℚ)| = ((a.signedQuantity * side.sign : ℤ) : ℚ) := by
    intro a ha
    have hpos := hs a ha
    have heq : |a.signedQuantity| = a.signedQuantity * side.sign := by
      rcases side.sign_eq with h | h
      · rw [h] at hpos ⊢
        rw [mul_one] at hpos ⊢
        exact abs_of_pos hpos
      · rw [h] at hpos ⊢
        rw [abs_of_neg (by omega)]
        ring
    rw [← heq, Int.cast_abs]
  have hsum : (allocations.map fun a => a.signedQuantity * side.sign).sum = |netQuantity allocations| := by
    have hnonneg : 0 ≤ netQuantity allocations * side.sign := by
      rw [netQuantity, ← List.sum_map_mul_right]
      refine List.sum_nonneg fun x hx => ?_
      obtain ⟨a, ha, rfl⟩ := List.mem_map.mp hx
      exact (hs a ha).le
    rw [List.sum_map_mul_right]
    change netQuantity allocations * side.sign = _
    rcases side.sign_eq with h | h
    · rw [h] at hnonneg ⊢
      rw [mul_one] at hnonneg ⊢
      exact (abs_of_nonneg hnonneg).symm
    · rw [h] at hnonneg ⊢
      rw [abs_of_nonpos (by omega)]
      ring
  rw [List.map_congr_left habs, ← Int.cast_abs, ← hsum]
  clear habs hsum hs
  induction allocations with
  | nil => exact Int.cast_zero.symm
  | cons a allocations ih =>
    rw [List.map_cons, List.sum_cons, ih, List.map_cons, List.sum_cons, Int.cast_add]

/-- The whole parts of an order, as counts. -/
def wholes (allocations : List SleeveAllocation) (filled : ℕ) : ℕ :=
  (allocations.map fun a => (wholeAt allocations filled a).natAbs).sum

theorem cast_wholes (hs : OneSided side allocations) :
    (wholes allocations filled : ℚ) = (allocations.map fun a => (⌊|idealAt allocations filled a|⌋ : ℚ)).sum := by
  have hfloor : ∀ a ∈ allocations, (((wholeAt allocations filled a).natAbs : ℕ) : ℚ) = ⌊|idealAt allocations filled a|⌋ := by
    intro a ha
    rw [← abs_wholeAt (hs a ha), Nat.cast_natAbs]
  have hcast := map_list_sum (Nat.castAddMonoidHom ℚ) (allocations.map fun a => (wholeAt allocations filled a).natAbs)
  rw [Nat.coe_castAddMonoidHom] at hcast
  rw [wholes, hcast, List.map_map]
  exact congrArg List.sum (List.map_congr_left hfloor)

theorem sum_wholeAt (hs : OneSided side allocations) :
    (allocations.map (wholeAt allocations filled)).sum = side.sign * wholes allocations filled := by
  have hwhole : ∀ a ∈ allocations, wholeAt allocations filled a = side.sign * ((wholeAt allocations filled a).natAbs : ℤ) := by
    intro a ha
    rw [Int.natCast_natAbs, abs_wholeAt (hs a ha)]
    exact wholeAt_along (hs a ha)
  have hcast := map_list_sum (Nat.castAddMonoidHom ℤ) (allocations.map fun a => (wholeAt allocations filled a).natAbs)
  rw [Nat.coe_castAddMonoidHom] at hcast
  rw [wholes, hcast, List.map_map, ← List.sum_map_mul_left]
  exact congrArg List.sum (List.map_congr_left hwhole)

theorem net_along (hs : OneSided side allocations) (hne : allocations ≠ []) :
    netQuantity allocations * side.sign = (netQuantity allocations).natAbs ∧ 0 < (netQuantity allocations).natAbs := by
  have hpos : 0 < netQuantity allocations * side.sign := by
    rw [netQuantity, ← List.sum_map_mul_right]
    refine List.sum_pos _ (fun x hx => ?_) (by rwa [ne_eq, List.map_eq_nil_iff])
    obtain ⟨a, ha, rfl⟩ := List.mem_map.mp hx
    exact hs a ha
  rcases side.sign_eq with h | h
  · rw [h] at hpos ⊢
    omega
  · rw [h] at hpos ⊢
    omega

theorem abs_net_cast : ((|netQuantity allocations| : ℤ) : ℚ) = (netQuantity allocations).natAbs := by
  rw [← Int.natCast_natAbs, Int.cast_natCast]

section small

variable (hs : OneSided side allocations) (hne : allocations ≠ []) (hf : filled ≤ (netQuantity allocations).natAbs)
  (hnet : (netQuantity allocations).natAbs < 10 ^ 12)
include hs hne hf hnet

theorem wholes_le : wholes allocations filled ≤ filled := by
  obtain ⟨hnetSign, hpos⟩ := net_along hs hne
  have h := wholeShares_sum_le hf hnet hs hnetSign.le
  have hmap : (allocations.map (idealShare (ctx 28 ((filled : ℚ) / (netQuantity allocations).natAbs)))).map wholePart =
      allocations.map (wholeAt allocations filled) := by
    rw [List.map_map, ← abs_net_cast]
    rfl
  have hsign : side.sign * side.sign = 1 := by
    rcases side.sign_eq with hs | hs
    · rw [hs]
      rfl
    · rw [hs]
      rfl
  have hwholes : side.sign * (wholes allocations filled : ℤ) * side.sign = wholes allocations filled := by
    rw [mul_right_comm, hsign, one_mul]
  rw [hmap, sum_wholeAt hs, hwholes, hnetSign, mul_comm ((netQuantity allocations).natAbs : ℤ)] at h
  have hcast : wholes allocations filled * (netQuantity allocations).natAbs ≤ filled * (netQuantity allocations).natAbs := by
    exact_mod_cast h
  exact Nat.le_of_mul_le_mul_right hcast hpos

theorem leftOver_le : leftOver allocations filled ≤ allocations.length := by
  have hpos : (0 : ℚ) < |(netQuantity allocations : ℚ)| := by
    rw [← Int.cast_abs, abs_net_cast]
    exact_mod_cast (net_along hs hne).2
  have hsum : ((filled : ℚ)) * (1 - 2 / 10 ^ 27) ≤ (allocations.map fun a => |idealAt allocations filled a|).sum := by
    calc (filled : ℚ) * (1 - 2 / 10 ^ 27)
        = |(netQuantity allocations : ℚ)| * ((filled : ℚ) / |netQuantity allocations| * (1 - 2 / 10 ^ 27)) := by
          rw [Int.cast_abs]
          field_simp
      _ = (allocations.map fun a => |(a.signedQuantity : ℚ)| * ((filled : ℚ) / |netQuantity allocations| * (1 - 2 / 10 ^ 27))).sum := by
          rw [← sum_abs_signed hs, List.sum_map_mul_right]
      _ ≤ (allocations.map fun a => |idealAt allocations filled a|).sum := by
          refine List.sum_le_sum fun a _ => ?_
          rw [← mul_assoc]
          exact abs_idealAt_ge a
  have hfloor : (allocations.map fun a => |idealAt allocations filled a|).sum ≤ wholes allocations filled + allocations.length := by
    have hle : (allocations.map fun a => |idealAt allocations filled a|).sum ≤
        (allocations.map fun a => (⌊|idealAt allocations filled a|⌋ : ℚ) + 1).sum :=
      List.sum_le_sum fun a _ => (Int.lt_floor_add_one _).le
    rw [List.sum_map_add, ← cast_wholes hs, List.map_const', List.sum_replicate, nsmul_eq_mul, mul_one] at hle
    exact hle
  have hsmall : (filled : ℚ) * (2 / 10 ^ 27) < 1 := by
    have hlt : (filled : ℚ) < 10 ^ 12 := by exact_mod_cast hf.trans_lt hnet
    have hmul := mul_lt_mul_of_pos_right hlt (by norm_num : (0 : ℚ) < 2 / 10 ^ 27)
    refine hmul.trans ?_
    norm_num
  have hlt : (filled : ℚ) < ((wholes allocations filled + allocations.length + 1 : ℕ) : ℚ) := by
    push_cast
    linarith
  have hnat : filled < wholes allocations filled + allocations.length + 1 := by exact_mod_cast hlt
  show filled - wholes allocations filled ≤ allocations.length
  omega

/-- Until the order is filled every sleeve has room. -/
theorem roomy (hlt : filled < (netQuantity allocations).natAbs) : Roomy allocations side filled := by
  obtain ⟨hnetSign, hpos⟩ := net_along hs hne
  intro a ha
  have hle : a.signedQuantity * side.sign ≤ (netQuantity allocations).natAbs := by
    rw [← hnetSign, netQuantity, ← List.sum_map_mul_right]
    refine List.single_le_sum (fun x hx => ?_) _ (List.mem_map_of_mem ha)
    obtain ⟨b, hb, rfl⟩ := List.mem_map.mp hx
    exact (hs b hb).le
  have h := wholeShare_le (hs a ha) hle hf hnet
  rw [← abs_net_cast] at h
  have hfilled : a.signedQuantity * side.sign * filled < a.signedQuantity * side.sign * (netQuantity allocations).natAbs :=
    mul_lt_mul_of_pos_left (by exact_mod_cast hlt) (hs a ha)
  exact lt_of_mul_lt_mul_right (h.trans_lt hfilled) (Int.natCast_nonneg _)

omit hf in
/-- At the end nothing is left over. -/
theorem leftOver_full (hfull : filled = (netQuantity allocations).natAbs) : leftOver allocations filled = 0 := by
  have hpos : (0 : ℚ) < |(netQuantity allocations : ℚ)| := by
    rw [← Int.cast_abs, abs_net_cast]
    exact_mod_cast (net_along hs hne).2
  have hratio : ctx 28 ((filled : ℚ) / |netQuantity allocations|) = 1 := by
    have hone : (filled : ℚ) / |netQuantity allocations| = ((1 : ℤ) : ℚ) := by
      rw [hfull, abs_net_cast, div_self, Int.cast_one]
      rw [← abs_net_cast, Int.cast_abs]
      exact hpos.ne'
    rw [hone, ctx_intCast (by norm_num), Int.cast_one]
  have hideal : ∀ a ∈ allocations, (⌊|idealAt allocations filled a|⌋ : ℚ) = |(a.signedQuantity : ℚ)| := by
    intro a ha
    have hle : |(a.signedQuantity : ℚ)| ≤ |(netQuantity allocations : ℚ)| := by
      rw [← sum_abs_signed hs]
      have hmem : |(a.signedQuantity : ℚ)| ∈ allocations.map fun a => |(a.signedQuantity : ℚ)| := List.mem_map.mpr ⟨a, ha, rfl⟩
      refine List.single_le_sum (fun x hx => ?_) _ hmem
      obtain ⟨b, -, rfl⟩ := List.mem_map.mp hx
      exact abs_nonneg _
    have hsmall : |a.signedQuantity| < 10 ^ 28 := by
      rw [← Int.cast_abs, ← Int.cast_abs, abs_net_cast] at hle
      have hlt : (netQuantity allocations).natAbs < 10 ^ 28 := hnet.trans (by norm_num)
      have hnetlt : ((netQuantity allocations).natAbs : ℚ) < 10 ^ 28 := by exact_mod_cast hlt
      exact_mod_cast hle.trans_lt hnetlt
    rw [abs_idealAt, hratio, mul_one, ← Int.cast_abs, ctx_intCast (by rwa [abs_abs]), Int.floor_intCast]
  have hwholes : (wholes allocations filled : ℚ) = filled := by
    rw [cast_wholes hs, List.map_congr_left hideal, sum_abs_signed hs, ← Int.cast_abs, abs_net_cast, hfull]
  have hnat : wholes allocations filled = filled := by exact_mod_cast hwholes
  show filled - wholes allocations filled = 0
  omega

end small

/-- The share of a sleeve at a running total. -/
def shareOf (allocations : List SleeveAllocation) (side : Side) (filled : ℕ) (a : SleeveAllocation) : ℤ :=
  if RoundedUp allocations filled a then wholeAt allocations filled a + side.sign else wholeAt allocations filled a

theorem not_roundedUp_of_zero (h : leftOver allocations filled = 0) (a : SleeveAllocation) : ¬ RoundedUp allocations filled a := by
  rw [RoundedUp, h]
  exact Nat.not_lt_zero _

/-- **The split in closed form.** -/
theorem proportional_eq (hs : OneSided side allocations) (hkeys : (allocations.map fun a => (a.sleeveId, a.intentId)).Nodup)
    (hnet : (netQuantity allocations).natAbs < 10 ^ 12) {shares : List ℤ}
    (h : proportionalSignedQuantities allocations filled side = .ok shares) :
    shares = allocations.map (shareOf allocations side filled) := by
  obtain ⟨_, hpos, h⟩ := bind_eq_ok.mp h
  obtain ⟨_, hle, h⟩ := bind_eq_ok.mp h
  have hf := require_eq_ok.mp hle
  have hne : allocations ≠ [] := by
    rintro rfl
    exact absurd (require_eq_ok.mp hpos) (by rw [netQuantity, List.map_nil, List.sum_nil, zero_mul]; exact lt_irrefl 0)
  have hwholes := wholes_le hs hne hf hnet
  change conserve
    (if 0 < (filled : ℤ) * side.sign - ((allocations.map (idealAt allocations filled)).map wholePart).sum then 1 else -1)
    allocations (allocations.map (idealAt allocations filled))
    ((filled : ℤ) * side.sign - ((allocations.map (idealAt allocations filled)).map wholePart).sum).natAbs
    ((allocations.map (idealAt allocations filled)).map wholePart) = .ok shares at h
  have hactual : (allocations.map (idealAt allocations filled)).map wholePart = sharesWith allocations side filled [] := by
    rw [List.map_map, sharesWith]
    exact List.map_congr_left fun a _ => (if_neg List.not_mem_nil).symm
  have hsum : ((allocations.map (idealAt allocations filled)).map wholePart).sum = side.sign * wholes allocations filled := by
    rw [List.map_map]
    exact sum_wholeAt hs
  rw [hsum, hactual] at h
  have hleft : leftOver allocations filled = filled - wholes allocations filled := rfl
  have hdistance : ((filled : ℤ) * side.sign - side.sign * wholes allocations filled).natAbs = leftOver allocations filled := by
    rcases side.sign_eq with hsign | hsign
    · rw [hsign]
      omega
    · rw [hsign]
      omega
  rw [hdistance] at h
  rcases Nat.eq_zero_or_pos (leftOver allocations filled) with hzero | hleftPos
  · rw [hzero] at h
    rw [← Except.ok.inj h, sharesWith]
    refine List.map_congr_left fun a _ => ?_
    rw [if_neg List.not_mem_nil, shareOf, if_neg (not_roundedUp_of_zero hzero a)]
  · have hlt : filled < (netQuantity allocations).natAbs := by
      refine lt_of_le_of_ne hf fun hfull => ?_
      rw [leftOver_full hs hne hnet hfull] at hleftPos
      exact lt_irrefl 0 hleftPos
    have hdirection : (if 0 < (filled : ℤ) * side.sign - side.sign * wholes allocations filled then (1 : ℤ) else -1) = side.sign := by
      rcases side.sign_eq with hsign | hsign
      · rw [hsign, if_pos (by omega)]
      · rw [hsign, if_neg (by omega)]
    rw [hdirection] at h
    have hcount := leftOver_le hs hne hf hnet
    obtain ⟨all, hall, hlength, hshares⟩ := conserve_served hs hkeys (roomy hs hne hf hnet hlt) .nil
      (by rw [List.length_nil, zero_add]; exact hcount) h
    rw [List.length_nil, zero_add] at hlength
    rw [hshares, sharesWith]
    refine List.map_congr_left fun a ha => ?_
    refine if_congr ?_ rfl rfl
    rw [RoundedUp, ← hlength]
    exact hall.mem_iff hkeys ha

theorem shareOf_zero (a : SleeveAllocation) : shareOf allocations side 0 a = 0 := by
  have hideal : idealAt allocations 0 a = 0 := by
    rw [idealAt, idealShare, Nat.cast_zero, zero_div, ctx_zero, mul_zero, ctx_zero]
  have hwhole : wholeAt allocations 0 a = 0 := by
    rw [wholeAt, hideal, wholePart, abs_zero, truncZ_of_nonneg le_rfl, Int.floor_zero, zero_mul]
  have hleft : leftOver allocations 0 = 0 := Nat.zero_sub _
  rw [shareOf, if_neg (not_roundedUp_of_zero hleft a), hwhole]

theorem sharesAt_eq (hs : OneSided side allocations) (hkeys : (allocations.map fun a => (a.sleeveId, a.intentId)).Nodup)
    (hnet : (netQuantity allocations).natAbs < 10 ^ 12) {shares : List ℤ} (h : sharesAt allocations side filled = .ok shares) :
    shares = allocations.map (shareOf allocations side filled) := by
  rw [sharesAt] at h
  split at h
  · exact proportional_eq hs hkeys hnet h
  · next hzero =>
    obtain rfl : filled = 0 := by omega
    rw [← Except.ok.inj h]
    exact List.map_congr_left fun a _ => (shareOf_zero a).symm

/-! ## Growing totals -/

/-- A share points the way of the order. -/
theorem shareOf_along {a : SleeveAllocation} (ha : 0 < a.signedQuantity * side.sign) :
    shareOf allocations side filled a * side.sign =
      ⌊|idealAt allocations filled a|⌋ + if RoundedUp allocations filled a then 1 else 0 := by
  rw [shareOf, wholeAt_along ha]
  rcases side.sign_eq with h | h
  · rw [h]
    split
    · ring
    · ring
  · rw [h]
    split
    · ring
    · ring

theorem abs_shareOf {a : SleeveAllocation} (ha : 0 < a.signedQuantity * side.sign) :
    |shareOf allocations side filled a| = shareOf allocations side filled a * side.sign := by
  have hnonneg : 0 ≤ shareOf allocations side filled a * side.sign := by
    rw [shareOf_along ha]
    have hfloor : 0 ≤ ⌊|idealAt allocations filled a|⌋ := Int.floor_nonneg.mpr (abs_nonneg _)
    split
    · omega
    · omega
  rcases side.sign_eq with h | h
  · rw [h, mul_one] at hnonneg ⊢
    exact abs_of_nonneg hnonneg
  · rw [h] at hnonneg ⊢
    rw [abs_of_nonpos (by omega)]
    ring

/-- A share grows unless the sleeve loses the share that it was rounded up by. -/
theorem abs_shareOf_le_iff {later : ℕ} (hle : filled ≤ later) {a : SleeveAllocation} (ha : 0 < a.signedQuantity * side.sign) :
    |shareOf allocations side filled a| ≤ |shareOf allocations side later a| ↔
      ¬ (wholeAt allocations filled a = wholeAt allocations later a ∧ RoundedUp allocations filled a ∧
        ¬ RoundedUp allocations later a) := by
  have hfloor : ⌊|idealAt allocations filled a|⌋ ≤ ⌊|idealAt allocations later a|⌋ := Int.floor_le_floor (abs_idealAt_mono hle a)
  have hwhole : wholeAt allocations filled a = wholeAt allocations later a ↔
      ⌊|idealAt allocations filled a|⌋ = ⌊|idealAt allocations later a|⌋ := by
    rw [wholeAt_along ha, wholeAt_along ha]
    rcases side.sign_eq with h | h
    · rw [h, one_mul, one_mul]
    · rw [h]
      omega
  rw [abs_shareOf ha, abs_shareOf ha, shareOf_along ha, shareOf_along ha, hwhole]
  by_cases hup : RoundedUp allocations filled a
  · by_cases hup' : RoundedUp allocations later a
    · simp only [hup, hup', if_true, not_true_eq_false, and_false, not_false_eq_true, iff_true]
      omega
    · simp only [hup, hup', if_true, if_false, not_false_eq_true, and_true]
      omega
  · simp only [hup, if_false, false_and, and_false, not_false_eq_true, iff_true]
    split
    · omega
    · omega

/-- **Shares grow from one total to a later one** unless some sleeve falls back. -/
theorem monotone_iff (hs : OneSided side allocations) {later : ℕ} (hle : filled ≤ later) :
    (∀ a ∈ allocations, |shareOf allocations side filled a| ≤ |shareOf allocations side later a|) ↔
      ¬ FallsBack allocations filled later := by
  rw [FallsBack]
  push Not
  constructor
  · intro h a ha hwhole hup
    by_contra hdown
    exact (abs_shareOf_le_iff hle (hs a ha)).mp (h a ha) ⟨hwhole, hup, hdown⟩
  · intro h a ha
    exact (abs_shareOf_le_iff hle (hs a ha)).mpr fun hfall => hfall.2.2 (h a ha hfall.1 hfall.2.1)

end closed

end LiveTrader.Portfolio
