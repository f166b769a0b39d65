/-
# `Portfolio.ApportionSound` — the split of a fill is exact and bounded

Two facts about `proportionalSignedQuantities`.

*Safety.*  Whatever it returns adds up to the signed fill, and every share lies
between zero and the allocation it belongs to (`sharesAt_sum`,
`sharesAt_within`).  The first is what the repair loop counts, the second holds
because neither rounding step passes a number that fits the context.

*Progress.*  It returns (`proportional_ok`) when all allocations point the way
of the order and the order is below 10^12 shares: the two roundings together
move an ideal share by less than the distance to the next whole number, so the
whole parts never add up to more than the fill, and as long as shares are
missing some sleeve has room for one.
-/
import LiveTrader.Portfolio.Plan
import Mathlib.Algebra.BigOperators.Ring.List

namespace LiveTrader.Portfolio

open Lib.Py Lib.Decimal

/-! ## Shares within their allocations -/

/-- Between nothing and the whole allocation. -/
def Within (a : SleeveAllocation) (share : ℤ) : Prop :=
  (0 ≤ share ∧ share ≤ a.signedQuantity) ∨ (a.signedQuantity ≤ share ∧ share ≤ 0)

/-- The shares of an allocation list, each within its own. -/
abbrev SharesWithin (allocations : List SleeveAllocation) (shares : List ℤ) : Prop :=
  List.Forall₂ Within allocations shares

/-- All allocations point the way of the order. -/
def OneSided (side : Side) (allocations : List SleeveAllocation) : Prop :=
  ∀ a ∈ allocations, 0 < a.signedQuantity * side.sign

theorem Within.zero (a : SleeveAllocation) : Within a 0 := by
  unfold Within; omega

theorem SharesWithin.zeros (allocations : List SleeveAllocation) :
    SharesWithin allocations (allocations.map fun _ => 0) := by
  induction allocations with
  | nil => exact .nil
  | cons a l ih => exact .cons (.zero a) ih

/-! ## The repair loop -/

theorem candidate_within {direction allocated : ℤ} {a : SleeveAllocation} {ideal : ℚ} {index : ℕ}
    {c : Candidate} (h : candidate direction a ideal allocated index = some c)
    (hd : direction = 1 ∨ direction = -1) (hw : Within a allocated) :
    c.index = index ∧ Within a (allocated + direction) := by
  unfold candidate at h
  unfold Within at *
  split_ifs at h with h1 h2
  · rw [← Option.some.inj h]
    exact ⟨rfl, by omega⟩
  · rw [← Option.some.inj h]
    exact ⟨rfl, by omega⟩

/-- A candidate stands at a place of the list. -/
theorem candidates_index {direction : ℤ} {c : Candidate} :
    ∀ {allocations : List SleeveAllocation} {ideals : List ℚ} {actual : List ℤ} {index : ℕ},
    c ∈ candidates direction allocations ideals actual index →
    index ≤ c.index ∧ c.index < index + actual.length
  | a :: allocations, ideal :: ideals, allocated :: actual, index, hc => by
      rw [candidates, List.mem_append] at hc
      rw [List.length_cons]
      rcases hc with hc | hc
      · have hi : c.index = index := by
          have h := Option.mem_toList.mp hc
          unfold candidate at h
          split_ifs at h <;> rw [← Option.some.inj h]
        omega
      · have := candidates_index hc
        omega

theorem sum_modify {d : ℤ} : ∀ {l : List ℤ} {i : ℕ}, i < l.length →
    (l.modify i (· + d)).sum = l.sum + d
  | x :: l, 0, _ => by simp [List.modify]; ring
  | x :: l, i + 1, h => by
      have ih := sum_modify (d := d) (l := l) (i := i) (by simpa using h)
      simp [List.modify_succ_cons, ih]; ring

/-- The loop reaches its total, whatever the ideal shares are. -/
theorem conserve_sum {direction : ℤ} {allocations : List SleeveAllocation} {ideals : List ℚ} :
    ∀ {distance : ℕ} {actual shares : List ℤ},
    conserve direction allocations ideals distance actual = .ok shares →
    shares.sum = actual.sum + distance * direction
  | 0, actual, shares, h => by
      obtain rfl : actual = shares := by simpa [conserve] using h
      simp
  | distance + 1, actual, shares, h => by
      rw [conserve] at h
      split at h
      · cases h
      next best rest hbest =>
        have hmem : best ∈ candidates direction allocations ideals actual 0 := by
          rw [← List.mem_insertionSort candidateLe, hbest]
          exact List.mem_cons_self
        have hi := (candidates_index hmem).2
        rw [conserve_sum h, sum_modify (by omega)]
        push_cast
        ring

/-- One turn: the chosen sleeve moves by one share and stays within. -/
theorem modify_candidate {direction : ℤ} (hd : direction = 1 ∨ direction = -1) {c : Candidate} :
    ∀ {allocations : List SleeveAllocation} {ideals : List ℚ} {actual : List ℤ} {index : ℕ},
    c ∈ candidates direction allocations ideals actual index → SharesWithin allocations actual →
    SharesWithin allocations (actual.modify (c.index - index) (· + direction))
  | a :: allocations, ideal :: ideals, allocated :: actual, index, hc, .cons hw hws => by
      rw [candidates, List.mem_append] at hc
      rcases hc with hc | hc
      · obtain ⟨hi, hw'⟩ := candidate_within (Option.mem_toList.mp hc) hd hw
        rw [hi, Nat.sub_self]
        exact .cons hw' hws
      · have hle := (candidates_index hc).1
        have hstep : c.index - index = c.index - (index + 1) + 1 := by omega
        rw [hstep, List.modify_succ_cons]
        exact .cons hw (modify_candidate hd hc hws)

theorem conserve_within {direction : ℤ} (hd : direction = 1 ∨ direction = -1)
    {allocations : List SleeveAllocation} {ideals : List ℚ} :
    ∀ {distance : ℕ} {actual shares : List ℤ},
    conserve direction allocations ideals distance actual = .ok shares →
    SharesWithin allocations actual → SharesWithin allocations shares
  | 0, actual, shares, h, hw => by
      obtain rfl : actual = shares := by simpa [conserve] using h
      exact hw
  | distance + 1, actual, shares, h, hw => by
      rw [conserve] at h
      split at h
      · cases h
      next best rest hbest =>
        have hmem : best ∈ candidates direction allocations ideals actual 0 := by
          rw [← List.mem_insertionSort candidateLe, hbest]
          exact List.mem_cons_self
        exact conserve_within hd h (modify_candidate hd hmem hw)

/-! ## Ideal shares -/

theorem truncZ_of_nonneg {x : ℚ} (h : 0 ≤ x) : truncZ x = ⌊x⌋ := if_pos h

theorem wholePart_le {x : ℚ} {n : ℤ} (h0 : 0 ≤ x) (h : x ≤ n) :
    0 ≤ wholePart x ∧ wholePart x ≤ n := by
  rw [wholePart, abs_of_nonneg h0, truncZ_of_nonneg h0, if_pos h0, mul_one]
  exact ⟨Int.floor_nonneg.mpr h0, by exact_mod_cast (Int.floor_le x).trans h⟩

theorem wholePart_neg {x : ℚ} (h : x ≤ 0) : wholePart x = -⌊-x⌋ := by
  rw [wholePart, abs_of_nonpos h, truncZ_of_nonneg (neg_nonneg.mpr h)]
  rcases h.lt_or_eq with hlt | rfl
  · rw [if_neg hlt.not_ge]; ring
  · simp

theorem le_wholePart {x : ℚ} {n : ℤ} (h0 : x ≤ 0) (h : (n : ℚ) ≤ x) :
    n ≤ wholePart x ∧ wholePart x ≤ 0 := by
  rw [wholePart_neg h0]
  have h1 : (⌊-x⌋ : ℚ) ≤ -n := (Int.floor_le (-x)).trans (neg_le_neg h)
  have h2 : ⌊-x⌋ ≤ -n := by exact_mod_cast h1
  have h3 : 0 ≤ ⌊-x⌋ := Int.floor_nonneg.mpr (neg_nonneg.mpr h0)
  omega

/-- Every allocation is a share count that the context holds. -/
def Countable (allocations : List SleeveAllocation) : Prop :=
  ∀ a ∈ allocations, |a.signedQuantity| < 10 ^ 28

theorem idealShare_within {a : SleeveAllocation} {ratio : ℚ} (ha : |a.signedQuantity| < 10 ^ 28)
    (h0 : 0 ≤ ratio) (h1 : ratio ≤ 1) : Within a (wholePart (idealShare ratio a)) := by
  have hq : ctx 28 (a.signedQuantity : ℚ) = a.signedQuantity := ctx_intCast ha
  rcases le_total 0 a.signedQuantity with hpos | hneg
  · have hpos' : (0 : ℚ) ≤ a.signedQuantity := by exact_mod_cast hpos
    left
    refine wholePart_le (ctx_nonneg (mul_nonneg hpos' h0)) ?_
    rw [← hq]
    exact ctx_mono (by norm_num) (mul_le_of_le_one_right hpos' h1)
  · have hneg' : (a.signedQuantity : ℚ) ≤ 0 := by exact_mod_cast hneg
    right
    refine le_wholePart ?_ ?_
    · rw [← ctx_zero 28]
      exact ctx_mono (by norm_num) (mul_nonpos_of_nonpos_of_nonneg hneg' h0)
    · rw [← hq]
      exact ctx_mono (by norm_num) (by nlinarith)

theorem ratio_bounds {filled : ℕ} {net : ℤ} (h : filled ≤ net.natAbs) :
    0 ≤ ctx 28 ((filled : ℚ) / |net|) ∧ ctx 28 ((filled : ℚ) / |net|) ≤ 1 := by
  have hnet : (0 : ℚ) ≤ |net| := by positivity
  refine ⟨ctx_nonneg (by positivity), ?_⟩
  have h1 : ctx 28 ((1 : ℤ) : ℚ) = (1 : ℤ) := ctx_intCast (by norm_num)
  rw [Int.cast_one] at h1
  rw [← h1]
  refine ctx_mono (by norm_num) (div_le_one_of_le₀ ?_ hnet)
  rw [← Int.natCast_natAbs]
  exact_mod_cast h

/-! ## Safety -/

section safety

variable {allocations : List SleeveAllocation} {filled : ℕ} {side : Side} {shares : List ℤ}

theorem wholeShares_within (hc : Countable allocations) {ratio : ℚ} (h0 : 0 ≤ ratio)
    (h1 : ratio ≤ 1) :
    SharesWithin allocations ((allocations.map (idealShare ratio)).map wholePart) := by
  rw [List.map_map, SharesWithin, List.forall₂_map_right_iff, List.forall₂_same]
  exact fun a ha => idealShare_within (hc a ha) h0 h1

/-- The shares of a split add up to the fill. -/
theorem sharesAt_sum (h : sharesAt allocations side filled = .ok shares) :
    shares.sum = filled * side.sign := by
  unfold sharesAt at h
  split_ifs at h with hf
  · simp only [proportionalSignedQuantities, bind_eq_ok, require_eq_ok] at h
    obtain ⟨_, _, _, _, h⟩ := h
    set actual := (allocations.map
      (idealShare (ctx 28 ((filled : ℚ) / |netQuantity allocations|)))).map wholePart
    have hdist : ((filled * side.sign - actual.sum).natAbs : ℤ) *
        (if 0 < filled * side.sign - actual.sum then 1 else -1) =
          filled * side.sign - actual.sum := by
      split <;> omega
    rw [conserve_sum h, hdist]
    ring
  · obtain rfl := (Except.ok.inj h).symm
    have : filled = 0 := by omega
    simp [this]

/-- Every share of a split lies within its allocation. -/
theorem sharesAt_within (hc : Countable allocations)
    (h : sharesAt allocations side filled = .ok shares) : SharesWithin allocations shares := by
  unfold sharesAt at h
  split_ifs at h with hf
  · simp only [proportionalSignedQuantities, bind_eq_ok, require_eq_ok] at h
    obtain ⟨_, _, _, hle, h⟩ := h
    obtain ⟨h0, h1⟩ := ratio_bounds hle
    exact conserve_within (by split <;> simp) h (wholeShares_within hc h0 h1)
  · obtain rfl := (Except.ok.inj h).symm
    exact .zeros allocations

/-- A completely filled order gives every sleeve its whole allocation. -/
theorem shares_full (hw : SharesWithin allocations shares)
    (hsign : OneSided side allocations)
    (hsum : shares.sum = netQuantity allocations) :
    shares = allocations.map (·.signedQuantity) := by
  -- measured along the order, no share exceeds its allocation and the totals agree
  have key : ∀ {l : List SleeveAllocation} {s : List ℤ}, SharesWithin l s →
      OneSided side l →
      s.sum * side.sign ≤ netQuantity l * side.sign ∧
        (s.sum = netQuantity l → s = l.map (·.signedQuantity)) := by
    intro l s hw
    induction hw with
    | nil => simp [netQuantity]
    | @cons a x l s hx _ ih =>
      intro hsign
      obtain ⟨hle, heq⟩ := ih fun a ha => hsign a (by simp [ha])
      have hax := hsign a (by simp)
      have hstep : x * side.sign ≤ a.signedQuantity * side.sign := by
        unfold Within at hx
        rcases hside : side <;> simp only [hside, Side.sign] at * <;> omega
      simp only [netQuantity, List.map_cons, List.sum_cons, add_mul] at *
      refine ⟨by omega, fun hs => ?_⟩
      have hx' : x = a.signedQuantity := by
        rcases hside : side <;> simp only [hside, Side.sign] at * <;> omega
      rw [hx', heq (by omega)]
  exact (key hw hsign).2 hsum

end safety

/-! ## Progress -/

section progress

variable {allocations : List SleeveAllocation} {side : Side}

theorem Side.sign_eq (side : Side) : side.sign = 1 ∨ side.sign = -1 := by
  cases side <;> simp [Side.sign]

/-- While shares are missing, some sleeve has room. -/
theorem candidates_ne_nil : ∀ {allocations : List SleeveAllocation} {ideals : List ℚ}
    {actual : List ℤ} (index : ℕ), OneSided side allocations →
    ideals.length = allocations.length → actual.length = allocations.length →
    actual.sum * side.sign < netQuantity allocations * side.sign →
    candidates side.sign allocations ideals actual index ≠ []
  | [], _, [], _, _, _, _, hlt => by simp [netQuantity] at hlt
  | a :: allocations, ideal :: ideals, allocated :: actual, index, hs, hi, hn, hlt => by
      rw [candidates]
      by_cases hroom : allocated * side.sign < a.signedQuantity * side.sign
      · have ha := hs a (by simp)
        have hc : (candidate side.sign a ideal allocated index).isSome := by
          unfold candidate
          rcases side.sign_eq with h | h <;> rw [h] at ha hroom ⊢ <;> split_ifs <;>
            first | rfl | omega
        obtain ⟨c, hc⟩ := Option.isSome_iff_exists.mp hc
        simp [hc]
      · have ih := candidates_ne_nil (index + 1)
          (fun a ha => hs a (List.mem_cons_of_mem _ ha)) (by simpa using hi) (by simpa using hn)
          (by simp only [netQuantity, List.map_cons, List.sum_cons, add_mul] at *; omega)
        simp [ih]

theorem conserve_ok (hs : OneSided side allocations) {ideals : List ℚ}
    (hi : ideals.length = allocations.length) : ∀ {distance : ℕ} {actual : List ℤ},
    SharesWithin allocations actual →
    actual.sum * side.sign + distance ≤ netQuantity allocations * side.sign →
    ∃ shares, conserve side.sign allocations ideals distance actual = .ok shares
  | 0, actual, _, _ => ⟨actual, rfl⟩
  | distance + 1, actual, hw, hle => by
      have hd := side.sign_eq
      have hne := candidates_ne_nil 0 hs hi hw.length_eq.symm (by push_cast at hle; omega)
      rw [conserve]
      split
      case h_1 hnil =>
        have := List.length_insertionSort candidateLe
          (candidates side.sign allocations ideals actual 0)
        rw [hnil, List.length_nil] at this
        exact absurd (List.length_eq_zero_iff.mp this.symm) hne
      case h_2 best rest hbest =>
        have hmem : best ∈ candidates side.sign allocations ideals actual 0 := by
          rw [← List.mem_insertionSort candidateLe, hbest]
          exact List.mem_cons_self
        have hi' := (candidates_index hmem).2
        refine conserve_ok hs hi (modify_candidate hd hmem hw) ?_
        rw [sum_modify (by omega)]
        push_cast at hle
        rcases hd with h | h <;> rw [h] at hle ⊢ <;> omega

/-- Two roundings of 28 digits move a share count below 10^12 by less than one
part in 10^12. -/
theorem idealShare_lt {q net filled : ℕ} (hq : q ≤ net) (hf : filled ≤ net) (hn : 0 < net)
    (hnet : net < 10 ^ 12) :
    ctx 28 ((q : ℚ) * ctx 28 ((filled : ℚ) / net)) < (q * filled + 1 : ℚ) / net := by
  have hN : (0 : ℚ) < net := by exact_mod_cast hn
  have hN' : (net : ℚ) < 10 ^ 12 := by exact_mod_cast hnet
  have hqN : (q : ℚ) ≤ net := by exact_mod_cast hq
  have hfN : (filled : ℚ) ≤ net := by exact_mod_cast hf
  have hq0 : (0 : ℚ) ≤ q := by positivity
  have hf0 : (0 : ℚ) ≤ (filled : ℚ) / net := by positivity
  have h1 := abs_ctx_le 28 ((filled : ℚ) / net)
  have h2 := abs_ctx_le 28 ((q : ℚ) * ctx 28 ((filled : ℚ) / net))
  rw [abs_of_nonneg (ctx_nonneg hf0), abs_of_nonneg hf0] at h1
  rw [abs_of_nonneg (ctx_nonneg (mul_nonneg hq0 (ctx_nonneg hf0))),
    abs_of_nonneg (mul_nonneg hq0 (ctx_nonneg hf0))] at h2
  set u : ℚ := (10 : ℚ) ^ (1 - ((28 : ℕ) : ℤ)) with hu
  have hu' : u = 1 / 10 ^ 27 := by rw [hu]; norm_num
  have hu0 : 0 ≤ u := by rw [hu']; positivity
  -- the exact share is at most the allocation, itself below 10^12
  have hx : (q : ℚ) * (filled / net) ≤ 10 ^ 12 := by
    have : (filled : ℚ) / net ≤ 1 := div_le_one_of_le₀ hfN hN.le
    nlinarith
  have hprod : (q : ℚ) * ctx 28 ((filled : ℚ) / net) * (1 + u) ≤
      (q : ℚ) * (filled / net) * ((1 + u) * (1 + u)) := by
    have := mul_le_mul_of_nonneg_left h1 hq0
    nlinarith
  have herr : (q : ℚ) * (filled / net) * ((1 + u) * (1 + u)) ≤
      (q : ℚ) * (filled / net) + 10 ^ 12 * (3 * u) := by
    have hx0 : 0 ≤ (q : ℚ) * (filled / net) := mul_nonneg hq0 hf0
    have : (1 + u) * (1 + u) ≤ 1 + 3 * u := by rw [hu']; norm_num
    nlinarith
  have hgap : (10 : ℚ) ^ 12 * (3 * u) < 1 / net := by
    rw [hu', lt_div_iff₀ hN]
    calc (10 : ℚ) ^ 12 * (3 * (1 / 10 ^ 27)) * net ≤ 10 ^ 12 * (3 * (1 / 10 ^ 27)) * 10 ^ 12 := by
          gcongr
      _ < 1 := by norm_num
  calc ctx 28 ((q : ℚ) * ctx 28 ((filled : ℚ) / net))
      ≤ (q : ℚ) * (filled / net) + 10 ^ 12 * (3 * u) := by linarith
    _ < (q : ℚ) * (filled / net) + 1 / net := by linarith
    _ = (q * filled + 1 : ℚ) / net := by ring

theorem wholeShare_le {a : SleeveAllocation} {net filled : ℕ} (ha : 0 < a.signedQuantity * side.sign)
    (hq : a.signedQuantity * side.sign ≤ net) (hf : filled ≤ net) (hnet : net < 10 ^ 12) :
    wholePart (idealShare (ctx 28 ((filled : ℚ) / net)) a) * side.sign * net ≤
      a.signedQuantity * side.sign * filled := by
  set ratio := ctx 28 ((filled : ℚ) / net)
  obtain ⟨q, hqe⟩ := Int.eq_ofNat_of_zero_le ha.le
  have hn : 0 < net := by omega
  have hr : 0 ≤ ratio := ctx_nonneg (by positivity)
  have hlt : ctx 28 ((q : ℚ) * ratio) < (q * filled + 1 : ℚ) / net :=
    idealShare_lt (by omega) hf hn hnet
  have h0 : 0 ≤ ctx 28 ((q : ℚ) * ratio) := ctx_nonneg (by positivity)
  -- along the order, the whole share is the floor of the ideal one
  have hwhole : wholePart (idealShare ratio a) * side.sign = ⌊ctx 28 ((q : ℚ) * ratio)⌋ := by
    rcases side.sign_eq with h | h
    · have : a.signedQuantity = q := by rw [h] at hqe; omega
      rw [h, mul_one, idealShare, this, Int.cast_natCast, wholePart, abs_of_nonneg h0,
        truncZ_of_nonneg h0, if_pos h0, mul_one]
    · have : a.signedQuantity = -q := by rw [h] at hqe; omega
      have hneg : idealShare ratio a = -ctx 28 ((q : ℚ) * ratio) := by
        rw [idealShare, this, ← ctx_neg]; push_cast; ring_nf
      rw [h, hneg, wholePart_neg (by simpa using h0), neg_neg]
      ring
  have hfl : (⌊ctx 28 ((q : ℚ) * ratio)⌋ : ℚ) * net < q * filled + 1 := by
    have hN : (0 : ℚ) < net := by exact_mod_cast hn
    rw [← lt_div_iff₀ hN]
    exact (Int.floor_le _).trans_lt hlt
  have hint : ⌊ctx 28 ((q : ℚ) * ratio)⌋ * net < q * filled + 1 := by exact_mod_cast hfl
  rw [hwhole, hqe]
  omega

/-- The whole parts never add up to more than the fill. -/
theorem wholeShares_sum_le {net filled : ℕ} (hf : filled ≤ net) (hnet : net < 10 ^ 12) :
    ∀ {allocations : List SleeveAllocation}, OneSided side allocations →
    netQuantity allocations * side.sign ≤ net →
    ((allocations.map (idealShare (ctx 28 ((filled : ℚ) / net)))).map wholePart).sum * side.sign *
      net ≤ netQuantity allocations * side.sign * filled
  | [], _, _ => by simp [netQuantity]
  | a :: allocations, hs, hle => by
      have hs' : OneSided side allocations := fun a ha => hs a (List.mem_cons_of_mem _ ha)
      have hrest : 0 ≤ netQuantity allocations * side.sign := by
        rw [netQuantity, ← List.sum_map_mul_right]
        exact List.sum_nonneg (by simpa using fun a ha => (hs' a ha).le)
      have ha := hs a (by simp)
      simp only [netQuantity, List.map_cons, List.sum_cons, add_mul] at hle hrest ⊢
      have h1 := wholeShare_le ha (by omega) hf hnet
      have h2 := wholeShares_sum_le hf hnet hs' (by unfold netQuantity; omega)
      unfold netQuantity at h2
      omega

/-- **Progress.** -/
theorem proportional_ok (hs : OneSided side allocations) (hne : allocations ≠ []) {filled : ℕ}
    (hf : filled ≤ (netQuantity allocations).natAbs)
    (hnet : (netQuantity allocations).natAbs < 10 ^ 12) :
    ∃ shares, proportionalSignedQuantities allocations filled side = .ok shares := by
  have hpos : 0 < netQuantity allocations * side.sign := by
    rw [netQuantity, ← List.sum_map_mul_right]
    exact List.sum_pos _ (by simpa using fun a ha => hs a ha) (by simpa using hne)
  have hnat : ((netQuantity allocations).natAbs : ℤ) = netQuantity allocations * side.sign := by
    rcases side.sign_eq with h | h <;> rw [h] at hpos ⊢ <;> omega
  have hcount : Countable allocations := by
    intro a ha
    have h1 : a.signedQuantity * side.sign ≤ netQuantity allocations * side.sign := by
      rw [netQuantity, ← List.sum_map_mul_right]
      exact List.single_le_sum (by simpa using fun a ha => (hs a ha).le) _
        (List.mem_map_of_mem ha)
    have h2 := hs a ha
    rw [abs_lt]
    rcases side.sign_eq with h | h <;> rw [h] at h1 h2 hnat <;> constructor <;> omega
  have habs : ((|netQuantity allocations| : ℤ) : ℚ) = (netQuantity allocations).natAbs := by
    rw [← Int.natCast_natAbs]; simp
  obtain ⟨h0, h1⟩ := ratio_bounds hf
  set actual := (allocations.map
    (idealShare (ctx 28 ((filled : ℚ) / |netQuantity allocations|)))).map wholePart with hactual
  have hsum : actual.sum * side.sign ≤ filled := by
    have := wholeShares_sum_le hf hnet hs (by omega)
    rw [← habs, ← hactual, hnat] at this
    exact le_of_mul_le_mul_right (by linarith) hpos
  have hw : SharesWithin allocations actual := wholeShares_within hcount h0 h1
  have hdir : (if 0 < filled * side.sign - actual.sum then (1 : ℤ) else -1) = side.sign ∨
      (filled * side.sign - actual.sum).natAbs = 0 := by
    rcases side.sign_eq with h | h <;> rw [h] at hsum ⊢ <;> split_ifs <;> omega
  rw [proportionalSignedQuantities, require_true hpos, ok_bind, require_true hf, ok_bind]
  show ∃ shares, conserve (if 0 < filled * side.sign - actual.sum then 1 else -1) allocations _
    (filled * side.sign - actual.sum).natAbs actual = .ok shares
  rcases hdir with hdir | hzero
  · rw [hdir]
    refine conserve_ok hs (by simp) hw ?_
    have hf' : (filled : ℤ) ≤ netQuantity allocations * side.sign := by omega
    rcases side.sign_eq with h | h <;> rw [h] at hsum hf' ⊢ <;> omega
  · exact ⟨actual, by rw [hzero]; rfl⟩

end progress

/-! ## Fees -/

/-- Every sleeve's part of an amount is small enough for the quantization to
eight decimals: below 10^20. -/
def SplitsFee (total : ℚ) (weights : List ℕ) : Prop :=
  total = 0 ∨ ∀ weight ∈ weights,
    |truncZ (ctx 28 (ctx 28 (total * weight) / weights.sum) * 10 ^ 8)| < 10 ^ 28

instance (total : ℚ) (weights : List ℕ) : Decidable (SplitsFee total weights) := by
  unfold SplitsFee; infer_instance

theorem allocateMoney_ok {total : ℚ} {weights : List ℕ} (hw : 0 < weights.sum)
    (h : SplitsFee total weights) : ∃ fees, allocateMoney total weights = .ok fees := by
  unfold allocateMoney
  split_ifs with hzero
  · exact ⟨_, rfl⟩
  · have hsplit := h.resolve_left hzero
    have hmap : (weights.mapM fun weight : ℕ => orRaise .invalidOperation
        (quantizeDown 28 8 (ctx 28 (ctx 28 (total * weight) / weights.sum)))) =
        .ok (weights.map fun weight : ℕ =>
          (truncZ (ctx 28 (ctx 28 (total * weight) / weights.sum) * 10 ^ 8) : ℚ) / 10 ^ 8) := by
      rw [mapM_eq_ok, List.forall₂_map_right_iff, List.forall₂_same]
      exact fun w hw => orRaise_eq_ok.mpr (if_pos (hsplit w hw))
    simp only [require_true hw, hmap, ok_bind]
    exact ⟨_, rfl⟩

theorem addToLast_length (x : ℚ) : ∀ l : List ℚ, (addToLast x l).length = l.length
  | [] => rfl
  | [_] => rfl
  | _ :: y :: l => by
      have ih := addToLast_length x (y :: l)
      simpa [addToLast] using ih

theorem allocateMoney_length {total : ℚ} {weights : List ℕ} {fees : List ℚ}
    (h : allocateMoney total weights = .ok fees) : fees.length = weights.length := by
  unfold allocateMoney at h
  split_ifs at h
  · obtain rfl := Except.ok.inj h
    simp
  · simp only [bind_eq_ok, pure_eq_ok] at h
    obtain ⟨_, _, result, hresult, rfl⟩ := h
    rw [addToLast_length, (mapM_eq_ok.mp hresult).length_eq]

/-- The last sleeve takes the rest, and on a grid takes it exactly. -/
theorem addToLast_exact {k : ℕ} {x : ℚ} (hx : OnGrid k x) : ∀ {l : List ℚ}, l ≠ [] →
    (∀ y ∈ l, OnGrid k y) → (absSum l + |x|) * 10 ^ k < 10 ^ 28 →
    (addToLast x l).sum = l.sum + x ∧ (∀ y ∈ addToLast x l, OnGrid k y) ∧
      absSum (addToLast x l) ≤ absSum l + |x|
  | [y], _, hl, hb => by
      have hy : OnGrid k y := hl y List.mem_cons_self
      have hexact : ctx 28 (y + x) = y + x := ctx_add_of_onGrid hy hx (by simp) hb
      have := abs_add_le y x
      simpa [addToLast, hexact] using ⟨hy.add hx, this⟩
  | y :: z :: l, _, hl, hb => by
      have h10 : (0 : ℚ) < 10 ^ k := by positivity
      have hy := abs_nonneg y
      rw [absSum_cons] at hb
      obtain ⟨h1, h2, h3⟩ := addToLast_exact hx (l := z :: l) (by simp)
        (fun w hw => hl w (List.mem_cons_of_mem _ hw))
        (lt_of_le_of_lt (mul_le_mul_of_nonneg_right (by linarith) h10.le) hb)
      refine ⟨?_, ?_, ?_⟩
      · rw [addToLast, List.sum_cons, h1, List.sum_cons (a := y)]
        · ring
        · simp
      · intro w hw
        rw [addToLast] at hw
        · rcases List.mem_cons.mp hw with rfl | hw
          · exact hl w List.mem_cons_self
          · exact h2 w hw
        · simp
      · rw [addToLast, absSum_cons, absSum_cons]
        · linarith
        · simp

section exact

variable {k : ℕ} {total : ℚ} {weights : List ℕ}

/-- One part, before the rest is added: at most twice the exact part. -/
theorem abs_part_le (total : ℚ) (weight denominator : ℕ) :
    |ctx 28 (ctx 28 (total * weight) / denominator)| ≤ 2 * |total| * (weight / denominator) := by
  have hd : (0 : ℚ) ≤ denominator := by positivity
  have h1 := abs_ctx_le 28 (total * weight)
  have h2 := abs_ctx_le 28 (ctx 28 (total * weight) / denominator)
  rw [abs_mul, Nat.abs_cast] at h1
  rw [abs_div, Nat.abs_cast] at h2
  set c : ℚ := 1 + (10 : ℚ) ^ (1 - ((28 : ℕ) : ℤ)) with hc
  have hc0 : 0 ≤ c := by positivity
  have hc2 : c * c ≤ 2 := by rw [hc]; norm_num
  calc |ctx 28 (ctx 28 (total * weight) / denominator)|
      ≤ |ctx 28 (total * weight)| / denominator * c := h2
    _ ≤ |total| * weight * c / denominator * c := by gcongr
    _ = |total| * (weight / denominator) * (c * c) := by ring
    _ ≤ |total| * (weight / denominator) * 2 := by gcongr
    _ = 2 * |total| * (weight / denominator) := by ring

/-- **Exact splits.**  On a grid of at least eight decimals a small amount is
split without loss. -/
theorem allocateMoney_exact (hk : 8 ≤ k) (hgrid : OnGrid k total)
    (hsmall : |total| * 10 ^ k < 10 ^ 26) (hw : 0 < weights.sum) :
    ∃ fees, allocateMoney total weights = .ok fees ∧ fees.sum = total ∧
      (∀ x ∈ fees, OnGrid k x) ∧ absSum fees ≤ 5 * |total| := by
  by_cases h0 : total = 0
  · subst h0
    refine ⟨weights.map fun _ => 0, by simp [allocateMoney], by simp, ?_, by simp [absSum]⟩
    simpa using fun _ => OnGrid.zero k
  have hpow : (10 : ℚ) ^ 8 ≤ 10 ^ k := pow_le_pow_right₀ (by norm_num) hk
  have h10 : (0 : ℚ) < 10 ^ k := by positivity
  have hW : (0 : ℚ) < weights.sum := by exact_mod_cast hw
  set part : ℕ → ℚ := fun weight => ctx 28 (ctx 28 (total * weight) / weights.sum) with hpart
  have hle : ∀ weight ∈ weights, |part weight| ≤ 2 * |total| := by
    intro weight hmem
    refine (abs_part_le total weight weights.sum).trans (mul_le_of_le_one_right (by positivity) ?_)
    rw [div_le_one hW]
    exact_mod_cast List.single_le_sum (by simp) _ hmem
  set parts := weights.map fun weight => (truncZ (part weight * 10 ^ 8) : ℚ) / 10 ^ 8 with hparts
  have hq : ∀ weight ∈ weights, quantizeDown 28 8 (part weight) =
      some ((truncZ (part weight * 10 ^ 8) : ℚ) / 10 ^ 8) := by
    intro weight hmem
    refine quantizeDown_eq_some ?_
    have := mul_le_mul (hle weight hmem) hpow (by positivity) (by positivity)
    linarith
  have hmap : (weights.mapM fun weight : ℕ => orRaise .invalidOperation
      (quantizeDown 28 8 (part weight))) = .ok parts := by
    rw [mapM_eq_ok, hparts, List.forall₂_map_right_iff, List.forall₂_same]
    exact fun weight hmem => orRaise_eq_ok.mpr (hq weight hmem)
  have hpgrid : ∀ y ∈ parts, OnGrid k y := by
    intro y hy
    obtain ⟨weight, hmem, rfl⟩ := List.mem_map.mp hy
    exact (onGrid_of_quantizeDown (hq weight hmem)).mono hk
  have hpsum : absSum parts ≤ 2 * |total| := by
    calc absSum parts = (weights.map fun weight =>
          |(truncZ (part weight * 10 ^ 8) : ℚ) / 10 ^ 8|).sum := by
          simp [absSum, hparts, Function.comp_def]
      _ ≤ (weights.map fun weight : ℕ => 2 * |total| / weights.sum * weight).sum := by
          refine List.sum_le_sum fun weight hmem => ?_
          refine (abs_quantizeDown_le (hq weight hmem)).trans
            ((abs_part_le total weight weights.sum).trans_eq ?_)
          ring
      _ = 2 * |total| / weights.sum * (weights.sum : ℕ) := by
          have hcast := map_list_sum (Nat.castAddMonoidHom ℚ) weights
          rw [Nat.coe_castAddMonoidHom] at hcast
          rw [List.sum_map_mul_left, hcast]
      _ = 2 * |total| := div_mul_cancel₀ _ hW.ne'
  have htotal := abs_nonneg total
  have hctx : ctxSum 28 parts = parts.sum := by
    refine ctxSum_of_onGrid hpgrid (lt_of_le_of_lt (mul_le_mul_of_nonneg_right hpsum h10.le) ?_)
    linarith
  have hrest : |total - parts.sum| ≤ 3 * |total| := by
    have h1 := abs_sub total parts.sum
    have h2 := abs_sum_le_absSum parts
    linarith
  have hrestgrid : OnGrid k (total - parts.sum) := hgrid.sub (.list_sum hpgrid)
  have hrestctx : ctx 28 (total - parts.sum) = total - parts.sum := by
    refine ctx_of_onGrid hrestgrid (lt_of_le_of_lt (mul_le_mul_of_nonneg_right hrest h10.le) ?_)
    linarith
  have hne : parts ≠ [] := by
    rintro hnil
    have : weights = [] := by simpa [hparts] using hnil
    simp [this] at hw
  obtain ⟨h1, h2, h3⟩ := addToLast_exact hrestgrid hne hpgrid (lt_of_le_of_lt
    (mul_le_mul_of_nonneg_right (show _ ≤ 5 * |total| by linarith) h10.le) (by linarith))
  refine ⟨addToLast (total - parts.sum) parts, ?_, by rw [h1]; ring, h2, by linarith⟩
  unfold allocateMoney
  rw [if_neg h0]
  rw [hpart] at hmap
  simp only [require_true hw, ok_bind, hmap, hctx, hrestctx]
  rfl

end exact

end LiveTrader.Portfolio
