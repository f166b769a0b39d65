/-
# `Portfolio.FeeShares` — one split of a fee

`allocateShares` is `_allocate_money` for decimal weights; the ledger calls it with whole ones (`allocateMoney_eq_shares`).  Where
the amounts leave room in 28 digits the quotients do not cross a step of the money grid, and the split has a closed form
(`allocateShares_eq`): every share but the last is the exact one without what is beyond eight decimals, and the last one takes
the rest.  The shares then add up to the total, have its sign and differ from the exact ones by less than a step for each other
share.
-/
import LiveTrader.Portfolio.ApportionSound
import Mathlib.Algebra.BigOperators.Ring.Finset

namespace LiveTrader.Portfolio

open Lib.Py Lib.Decimal

/-! ## The split -/

/-- `_allocate_money`. -/
def allocateShares (total : ℚ) (weights : List ℚ) : Result (List ℚ) :=
  if total = 0 then .ok (weights.map fun _ => 0)
  else do
    let denominator := ctxSum 28 weights
    require (0 < denominator) (.value "fee allocation requires a non-zero fill")
    let result ← weights.mapM fun weight =>
      orRaise .invalidOperation (quantizeDown 28 8 (ctx 28 (ctx 28 (total * weight) / denominator)))
    pure (addToLast (ctx 28 (total - ctxSum 28 result)) result)

theorem onGrid_natCast (k n : ℕ) : OnGrid k (n : ℚ) := ⟨n * 10 ^ k, by push_cast; rfl⟩

theorem allocateMoney_eq_shares {total : ℚ} {weights : List ℕ} (h : total = 0 ∨ weights.sum < 10 ^ 28) :
    allocateMoney total weights = allocateShares total (weights.map fun weight : ℕ => (weight : ℚ)) := by
  rcases h with rfl | h
  · rw [allocateMoney, allocateShares, if_pos rfl, if_pos rfl, List.map_map]
    rfl
  have hsum : ctxSum 28 (weights.map fun weight : ℕ => (weight : ℚ)) = (weights.sum : ℕ) := by
    rw [ctxSum_of_onGrid (k := 0), Nat.cast_list_sum]
    · intro x hx
      obtain ⟨weight, -, rfl⟩ := List.mem_map.mp hx
      exact onGrid_natCast 0 weight
    · have habs : absSum (weights.map fun weight : ℕ => (weight : ℚ)) = (weights.sum : ℕ) := by
        rw [Nat.cast_list_sum]
        simp [absSum, Function.comp_def]
      rw [habs, pow_zero, mul_one]
      exact_mod_cast h
  unfold allocateMoney allocateShares
  simp only [hsum, List.mapM_map, List.map_map, Function.comp_def, Nat.cast_pos]

/-- A share without what is beyond eight decimals. -/
def part (total denominator weight : ℚ) : ℚ := truncZ (total * weight / denominator * 10 ^ 8) / 10 ^ 8

/-- Non-negative weights on a grid, and a total that leaves room for products. -/
structure Splittable (k j : ℕ) (total : ℚ) (weights : List ℚ) : Prop where
  decimals : 8 ≤ k
  grid : OnGrid k total
  each : ∀ weight ∈ weights, OnGrid j weight ∧ 0 ≤ weight
  pos : 0 < weights.sum
  small : |total| * 10 ^ k * (weights.sum * 10 ^ j) < 10 ^ 27

section split

variable {k j : ℕ} {total denominator weight : ℚ} {weights : List ℚ}

theorem part_neg (total denominator weight : ℚ) : part (-total) denominator weight = -part total denominator weight := by
  unfold part
  rw [neg_mul, neg_div, neg_mul, truncZ_neg, Int.cast_neg, neg_div]

theorem part_bounds (h : 0 ≤ total * weight / denominator) : 0 ≤ part total denominator weight ∧
    part total denominator weight ≤ total * weight / denominator ∧
    total * weight / denominator < part total denominator weight + 1 / 10 ^ 8 := by
  have hten : (0 : ℚ) < 10 ^ 8 := by norm_num
  have hscaled : 0 ≤ total * weight / denominator * 10 ^ 8 := mul_nonneg h hten.le
  have hlow := Int.floor_le (total * weight / denominator * 10 ^ 8)
  have hhigh := Int.lt_floor_add_one (total * weight / denominator * 10 ^ 8)
  have hfloor : (0 : ℚ) ≤ ⌊total * weight / denominator * 10 ^ 8⌋ := by
    exact_mod_cast Int.floor_nonneg.mpr hscaled
  rw [part, truncZ, if_pos hscaled]
  refine ⟨div_nonneg hfloor hten.le, ?_, ?_⟩
  · rw [div_le_iff₀ hten]
    exact hlow
  · rw [← add_div, lt_div_iff₀ hten]
    exact hhigh

/-- What a share leaves behind: less than a step, with the sign of the total. -/
theorem part_gap (hweight : 0 ≤ weight / denominator) : |total * weight / denominator - part total denominator weight| ≤ 1 / 10 ^ 8 ∧
    |part total denominator weight| ≤ |total| * (weight / denominator) ∧ 0 ≤ total * part total denominator weight := by
  rcases le_total 0 total with h | h
  · have hshare : 0 ≤ total * weight / denominator := by
      rw [mul_div_assoc]
      exact mul_nonneg h hweight
    obtain ⟨hnonneg, hle, hlt⟩ := part_bounds hshare
    rw [abs_of_nonneg (by linarith), abs_of_nonneg hnonneg, abs_of_nonneg h, ← mul_div_assoc]
    exact ⟨by linarith, hle, mul_nonneg h hnonneg⟩
  · have hneg : part total denominator weight = -part (-total) denominator weight := by
      rw [part_neg, neg_neg]
    have hflip : total * weight / denominator = -(-total * weight / denominator) := by ring
    have hshare : 0 ≤ -total * weight / denominator := by
      rw [mul_div_assoc]
      exact mul_nonneg (neg_nonneg.mpr h) hweight
    obtain ⟨hnonneg, hle, hlt⟩ := part_bounds hshare
    rw [hneg, hflip, abs_neg, abs_of_nonneg hnonneg, abs_of_nonpos h, ← mul_div_assoc]
    refine ⟨?_, hle, ?_⟩
    · rw [abs_le]
      constructor <;> linarith
    · rw [mul_neg, ← neg_mul]
      exact mul_nonneg (neg_nonneg.mpr h) hnonneg

/-- Rounding to 28 digits twice does not move a quotient across a step of the money grid. -/
theorem truncZ_share (hk : 8 ≤ k) (htotal : OnGrid k total) (hweight : OnGrid j weight) (hdenominator : OnGrid j denominator)
    (hpos : 0 < denominator) (hnonneg : 0 ≤ total * weight) (hsmall : total * weight * 10 ^ (k + j) < 10 ^ 27) :
    truncZ (ctx 28 (ctx 28 (total * weight) / denominator) * 10 ^ 8) = truncZ (total * weight / denominator * 10 ^ 8) := by
  obtain ⟨m, rfl⟩ := Nat.exists_eq_add_of_le hk
  have hproduct : ctx 28 (total * weight) = total * weight := by
    refine ctx_of_onGrid (htotal.mul hweight) ?_
    rw [abs_of_nonneg hnonneg]
    exact hsmall.trans (by norm_num)
  have hshift : total * weight / denominator * 10 ^ 8 = total * weight * 10 ^ 8 / denominator := by ring
  have hscaled : OnGrid (m + j) (total * weight * 10 ^ 8) := by
    obtain ⟨n, hn⟩ := htotal.mul hweight
    refine ⟨n, ?_⟩
    rw [← hn, mul_assoc, ← pow_add]
    congr 2
    omega
  have hquotient : 0 ≤ total * weight * 10 ^ 8 / denominator := div_nonneg (by positivity) hpos.le
  rw [hproduct, ← ctx_mul_pow, hshift, truncZ_ctx_div (by norm_num) hscaled (hdenominator.mono (by omega)) hpos (by positivity),
    truncZ, if_pos hquotient]
  rw [mul_assoc, ← pow_add, show 8 + (m + j) = 8 + m + j by omega]
  exact hsmall

theorem Splittable.truncZ_part (h : Splittable k j total weights) (hmem : weight ∈ weights) :
    truncZ (ctx 28 (ctx 28 (total * weight) / weights.sum) * 10 ^ 8) = truncZ (total * weight / weights.sum * 10 ^ 8) := by
  obtain ⟨hgrid, hnonneg⟩ := h.each weight hmem
  have hsum : OnGrid j weights.sum := .list_sum fun x hx => (h.each x hx).1
  have hle : weight ≤ weights.sum := List.single_le_sum (fun x hx => (h.each x hx).2) _ hmem
  have hsmall : |total| * weight * 10 ^ (k + j) < 10 ^ 27 := by
    refine lt_of_le_of_lt ?_ h.small
    calc |total| * weight * 10 ^ (k + j) ≤ |total| * weights.sum * 10 ^ (k + j) := by gcongr
      _ = |total| * 10 ^ k * (weights.sum * 10 ^ j) := by ring
  rcases le_total 0 total with h0 | h0
  · rw [abs_of_nonneg h0] at hsmall
    exact truncZ_share h.decimals h.grid hgrid hsum h.pos (mul_nonneg h0 hnonneg) hsmall
  · rw [abs_of_nonpos h0] at hsmall
    have hflip := truncZ_share h.decimals h.grid.neg hgrid hsum h.pos (mul_nonneg (neg_nonneg.mpr h0) hnonneg) hsmall
    simp only [neg_mul, ctx_neg, neg_div, truncZ_neg, neg_inj] at hflip
    exact hflip

theorem Splittable.total_small (h : Splittable k j total weights) : |total| * 10 ^ k < 10 ^ 27 := by
  have hsum : OnGrid j weights.sum := .list_sum fun x hx => (h.each x hx).1
  refine lt_of_le_of_lt ?_ h.small
  exact le_mul_of_one_le_right (by positivity) (hsum.one_le h.pos)

theorem Splittable.sum_small (h : Splittable k j total weights) (h0 : total ≠ 0) : weights.sum * 10 ^ j < 10 ^ 27 := by
  have habs : OnGrid k |total| := by
    rcases abs_choice total with hsign | hsign
    · rw [hsign]
      exact h.grid
    · rw [hsign]
      exact h.grid.neg
  refine lt_of_le_of_lt ?_ h.small
  exact le_mul_of_one_le_left (mul_nonneg h.pos.le (by positivity)) (habs.one_le (abs_pos.mpr h0))

theorem Splittable.ratio (h : Splittable k j total weights) (hmem : weight ∈ weights) :
    0 ≤ weight / weights.sum ∧ weight / weights.sum ≤ 1 := by
  refine ⟨div_nonneg (h.each weight hmem).2 h.pos.le, ?_⟩
  rw [div_le_one h.pos]
  exact List.single_le_sum (fun x hx => (h.each x hx).2) _ hmem

theorem onGrid_part (total denominator weight : ℚ) : OnGrid 8 (part total denominator weight) :=
  ⟨truncZ (total * weight / denominator * 10 ^ 8), div_mul_cancel₀ _ (by norm_num)⟩

/-- All parts together are no more than the total. -/
theorem Splittable.absSum_parts (h : Splittable k j total weights) : absSum (weights.map (part total weights.sum)) ≤ |total| := by
  calc absSum (weights.map (part total weights.sum)) = (weights.map fun weight => |part total weights.sum weight|).sum := by
        rw [absSum, List.map_map]
        rfl
    _ ≤ (weights.map fun weight => |total| / weights.sum * weight).sum := by
        refine List.sum_le_sum fun weight hmem => ?_
        refine (part_gap (h.ratio hmem).1).2.1.trans_eq ?_
        ring
    _ = |total| := by
        rw [List.sum_map_mul_left, List.map_id', div_mul_cancel₀ _ h.pos.ne']

theorem addToLast_concat (x y : ℚ) (l : List ℚ) : addToLast x (l ++ [y]) = l ++ [ctx 28 (y + x)] := by
  induction l with
  | nil => rfl
  | cons z l ih =>
    cases l with
    | nil => rfl
    | cons w l =>
      show z :: addToLast x ((w :: l) ++ [y]) = _
      rw [ih]
      rfl

/-- The shares in closed form: the last weight takes the rest. -/
def sharesOf (total : ℚ) (first : List ℚ) (last : ℚ) : List ℚ :=
  first.map (part total (first ++ [last]).sum) ++ [total - (first.map (part total (first ++ [last]).sum)).sum]

/-- **The split in closed form.** -/
theorem allocateShares_eq {first : List ℚ} {last : ℚ} (h : Splittable k j total (first ++ [last])) :
    allocateShares total (first ++ [last]) = .ok (sharesOf total first last) := by
  have hten : (0 : ℚ) < 10 ^ k := by positivity
  have hsmall := h.total_small
  unfold allocateShares
  rcases eq_or_ne total 0 with rfl | h0
  · have hzero : ∀ w, part 0 (first ++ [last]).sum w = 0 := by
      intro w
      simp [part, truncZ]
    rw [if_pos rfl, sharesOf, funext hzero]
    simp
  set weights := first ++ [last] with hweights
  have hsum : ctxSum 28 weights = weights.sum := by
    refine ctxSum_of_onGrid (fun x hx => (h.each x hx).1) ?_
    have habs : absSum weights = weights.sum := by
      rw [absSum, List.map_congr_left fun x hx => abs_of_nonneg (h.each x hx).2, List.map_id']
    rw [habs]
    exact (h.sum_small h0).trans (by norm_num)
  have hmap : (weights.mapM fun weight => orRaise .invalidOperation
      (quantizeDown 28 8 (ctx 28 (ctx 28 (total * weight) / weights.sum)))) = .ok (weights.map (part total weights.sum)) := by
    rw [mapM_eq_ok, List.forall₂_map_right_iff, List.forall₂_same]
    intro weight hmem
    refine orRaise_eq_ok.mpr ?_
    rw [quantizeDown, h.truncZ_part hmem, if_pos]
    · rfl
    · have hle := abs_truncZ_le (total * weight / weights.sum * 10 ^ 8)
      have hshare : |total * weight / weights.sum * 10 ^ 8| < 10 ^ 28 := by
        obtain ⟨hlow, hhigh⟩ := h.ratio hmem
        have hpow : (10 : ℚ) ^ 8 ≤ 10 ^ k := pow_le_pow_right₀ (by norm_num) h.decimals
        calc |total * weight / weights.sum * 10 ^ 8| = |total| * (weight / weights.sum) * 10 ^ 8 := by
              rw [mul_div_assoc, abs_mul, abs_mul, abs_of_nonneg hlow, abs_of_pos (show (0 : ℚ) < 10 ^ 8 by norm_num)]
          _ ≤ |total| * 1 * 10 ^ k := by gcongr
          _ < 10 ^ 28 := by linarith
      exact_mod_cast hle.trans_lt hshare
  have hparts := h.absSum_parts
  have hpartsGrid : ∀ x ∈ weights.map (part total weights.sum), OnGrid k x := by
    intro x hx
    obtain ⟨weight, -, rfl⟩ := List.mem_map.mp hx
    exact (onGrid_part total weights.sum weight).mono h.decimals
  have htotal : ctxSum 28 (weights.map (part total weights.sum)) = (weights.map (part total weights.sum)).sum := by
    refine ctxSum_of_onGrid hpartsGrid ?_
    exact lt_of_le_of_lt (mul_le_mul_of_nonneg_right hparts hten.le) (hsmall.trans (by norm_num))
  have hrest : |total - (weights.map (part total weights.sum)).sum| ≤ 2 * |total| := by
    have hdiff := abs_sub total (weights.map (part total weights.sum)).sum
    have hle := abs_sum_le_absSum (weights.map (part total weights.sum))
    linarith
  have hrestGrid : OnGrid k (total - (weights.map (part total weights.sum)).sum) := h.grid.sub (.list_sum hpartsGrid)
  have hrestExact : ctx 28 (total - (weights.map (part total weights.sum)).sum) = total - (weights.map (part total weights.sum)).sum := by
    refine ctx_of_onGrid hrestGrid (lt_of_le_of_lt (mul_le_mul_of_nonneg_right hrest hten.le) ?_)
    linarith
  have hlast : |part total weights.sum last| ≤ |total| := by
    refine (abs_le_absSum (List.mem_map_of_mem ?_)).trans hparts
    simp [hweights]
  have hlastExact : ctx 28 (part total weights.sum last + (total - (weights.map (part total weights.sum)).sum)) =
      part total weights.sum last + (total - (weights.map (part total weights.sum)).sum) := by
    have hboth : |part total weights.sum last| + |total - (weights.map (part total weights.sum)).sum| ≤ 3 * |total| := by linarith
    refine ctx_add_of_onGrid ((onGrid_part total weights.sum last).mono h.decimals) hrestGrid hboth ?_
    linarith
  rw [if_neg h0]
  simp only [hsum, require_true h.pos, ok_bind, hmap, htotal, hrestExact]
  have hsplit : weights.map (part total weights.sum) = first.map (part total weights.sum) ++ [part total weights.sum last] := by
    rw [hweights, List.map_append]
    rfl
  rw [hsplit] at hlastExact ⊢
  rw [addToLast_concat, hlastExact, sharesOf, ← hweights]
  have hlastShare : part total weights.sum last + (total - (first.map (part total weights.sum) ++ [part total weights.sum last]).sum) =
      total - (first.map (part total weights.sum)).sum := by
    have hadd : (first.map (part total weights.sum) ++ [part total weights.sum last]).sum =
        (first.map (part total weights.sum)).sum + part total weights.sum last := by simp
    rw [hadd]
    ring
  rw [hlastShare]
  rfl

/-! ## What the shares add up to -/

theorem sum_sharesOf (total : ℚ) (first : List ℚ) (last : ℚ) : (sharesOf total first last).sum = total := by
  rw [sharesOf, List.sum_append, List.sum_singleton]
  ring

theorem sharesOf_grid (hk : 8 ≤ k) (hgrid : OnGrid k total) {first : List ℚ} {last share : ℚ}
    (hmem : share ∈ sharesOf total first last) : OnGrid k share := by
  have hparts : ∀ x ∈ first.map (part total (first ++ [last]).sum), OnGrid k x := by
    intro x hx
    obtain ⟨weight, -, rfl⟩ := List.mem_map.mp hx
    exact (onGrid_part total _ weight).mono hk
  rw [sharesOf, List.mem_append, List.mem_singleton] at hmem
  rcases hmem with hmem | rfl
  · exact hparts share hmem
  · exact hgrid.sub (.list_sum hparts)

/-- What is left of a total when a part of it with its sign is taken away. -/
theorem rest_sign {taken : ℚ} (hsign : 0 ≤ total * taken) (hle : |taken| ≤ |total|) :
    0 ≤ total * (total - taken) ∧ |total - taken| ≤ |total| := by
  rcases lt_trichotomy total 0 with h | rfl | h
  · have htaken : taken ≤ 0 := nonpos_of_mul_nonneg_right hsign h
    rw [abs_of_nonpos htaken, abs_of_neg h] at hle
    refine ⟨mul_nonneg_of_nonpos_of_nonpos h.le (by linarith), ?_⟩
    rw [abs_of_nonpos (by linarith), abs_of_neg h]
    linarith
  · rw [abs_zero] at hle
    rw [abs_nonpos_iff.mp hle]
    simp
  · have htaken : 0 ≤ taken := nonneg_of_mul_nonneg_right hsign h
    rw [abs_of_nonneg htaken, abs_of_pos h] at hle
    refine ⟨mul_nonneg h.le (by linarith), ?_⟩
    rw [abs_of_nonneg (by linarith), abs_of_pos h]
    linarith

/-- Every share has the sign of the total and at most its size. -/
theorem sharesOf_sign {first : List ℚ} {last share : ℚ} (h : Splittable k j total (first ++ [last]))
    (hmem : share ∈ sharesOf total first last) : 0 ≤ total * share ∧ |share| ≤ |total| := by
  have hpart : ∀ weight ∈ first, 0 ≤ total * part total (first ++ [last]).sum weight := fun weight hweight =>
    (part_gap (h.ratio (List.mem_append_left [last] hweight)).1).2.2
  have habs : absSum (first.map (part total (first ++ [last]).sum)) ≤ |total| := by
    have hall := h.absSum_parts
    rw [List.map_append, absSum, List.map_append, List.sum_append] at hall
    have hlast := abs_nonneg (part total (first ++ [last]).sum last)
    simp only [List.map_cons, List.map_nil, List.sum_singleton] at hall
    unfold absSum
    linarith
  rw [sharesOf, List.mem_append, List.mem_singleton] at hmem
  rcases hmem with hmem | rfl
  · obtain ⟨weight, hweight, rfl⟩ := List.mem_map.mp hmem
    exact ⟨hpart weight hweight, (abs_le_absSum hmem).trans habs⟩
  · refine rest_sign ?_ ((abs_sum_le_absSum _).trans habs)
    rw [← List.sum_map_mul_left]
    refine List.sum_nonneg fun x hx => ?_
    obtain ⟨weight, hweight, rfl⟩ := List.mem_map.mp hx
    exact hpart weight hweight

theorem Splittable.exists_concat (h : Splittable k j total weights) : ∃ first last, weights = first ++ [last] := by
  rcases List.eq_nil_or_concat weights with rfl | ⟨first, last, hconcat⟩
  · exact absurd h.pos (by simp)
  · exact ⟨first, last, by rw [hconcat, List.concat_eq_append]⟩

/-- **One split.**  The shares add up to the total, and each has its sign and at most its size. -/
theorem allocateShares_law (h : Splittable k j total weights) : ∃ shares, allocateShares total weights = .ok shares ∧
    shares.length = weights.length ∧ shares.sum = total ∧ ∀ share ∈ shares, 0 ≤ total * share ∧ |share| ≤ |total| := by
  obtain ⟨first, last, rfl⟩ := h.exists_concat
  refine ⟨sharesOf total first last, allocateShares_eq h, ?_, sum_sharesOf total first last, fun share hmem => sharesOf_sign h hmem⟩
  simp [sharesOf]

/-! ## The shares of one sleeve -/

/-- The shares that go to some of the holders. -/
def selected {α : Type} (p : α → Prop) [DecidablePred p] (holders : List α) (shares : List ℚ) : ℚ :=
  (List.zipWith (fun holder share => if p holder then share else 0) holders shares).sum

/-- The weights of some of the holders. -/
def selectedWeight {α : Type} (p : α → Prop) [DecidablePred p] (weight : α → ℚ) (holders : List α) : ℚ :=
  (holders.map fun holder => if p holder then weight holder else 0).sum

section selected

variable {α : Type} {p : α → Prop} [DecidablePred p] {value : α → ℚ} {holders : List α} {shares : List ℚ}

theorem selected_nonneg (hlen : holders.length = shares.length) (h : ∀ share ∈ shares, 0 ≤ share) :
    0 ≤ selected p holders shares ∧ selected p holders shares ≤ shares.sum := by
  induction holders generalizing shares with
  | nil =>
    obtain rfl : shares = [] := List.length_eq_zero_iff.mp hlen.symm
    simp [selected]
  | cons holder holders ih =>
    cases shares with
    | nil => simp at hlen
    | cons share shares =>
      obtain ⟨hlow, hhigh⟩ := ih (by simpa using hlen) fun x hx => h x (List.mem_cons_of_mem _ hx)
      have hshare := h share List.mem_cons_self
      have hsplit : selected p (holder :: holders) (share :: shares) = (if p holder then share else 0) + selected p holders shares := by
        simp [selected]
      rw [hsplit, List.sum_cons]
      split_ifs
      · exact ⟨by linarith, by linarith⟩
      · exact ⟨by linarith, by linarith⟩

/-- What a holder's part leaves behind. -/
def gap (total denominator weight : ℚ) : ℚ := total * weight / denominator - part total denominator weight

theorem abs_sum_gaps_le (h : ∀ holder ∈ holders, 0 ≤ value holder / denominator) :
    |(holders.map fun holder => if p holder then gap total denominator (value holder) else 0).sum| ≤ holders.length / 10 ^ 8 := by
  induction holders with
  | nil => simp
  | cons holder holders ih =>
    have hrest := ih fun x hx => h x (List.mem_cons_of_mem _ hx)
    have hone : |if p holder then gap total denominator (value holder) else 0| ≤ 1 / 10 ^ 8 := by
      split_ifs
      · exact (part_gap (h holder List.mem_cons_self)).1
      · norm_num
    rw [List.map_cons, List.sum_cons, List.length_cons]
    refine (abs_add_le _ _).trans ((add_le_add hone hrest).trans_eq ?_)
    push_cast
    ring

theorem sum_parts (total denominator : ℚ) (value : α → ℚ) (holders : List α) : (holders.map fun holder => if p holder then part total denominator (value holder) else 0).sum =
    total * selectedWeight p value holders / denominator -
      (holders.map fun holder => if p holder then gap total denominator (value holder) else 0).sum := by
  induction holders with
  | nil => simp [selectedWeight]
  | cons holder holders ih =>
    unfold selectedWeight at ih ⊢
    simp only [List.map_cons, List.sum_cons, ih]
    split_ifs
    · unfold gap
      ring
    · ring

/-- **Near the exact share.**  What some of the holders get differs from their exact share by less than a step for each holder
but one. -/
theorem selected_near {first : List α} {last : α} (h : Splittable k j total ((first ++ [last]).map value)) :
    |selected p (first ++ [last]) (sharesOf total (first.map value) (value last)) -
      total * selectedWeight p value (first ++ [last]) / ((first ++ [last]).map value).sum| ≤ first.length / 10 ^ 8 := by
  have hpos := h.pos
  have hratio : ∀ holder ∈ first, 0 ≤ value holder / ((first ++ [last]).map value).sum := fun holder hmem =>
    (h.ratio (List.mem_map_of_mem (List.mem_append_left [last] hmem))).1
  have hlast : first.map value ++ [value last] = (first ++ [last]).map value := by simp
  rw [sharesOf, hlast]
  set denominator := ((first ++ [last]).map value).sum with hdenominator
  have hsum : denominator = (first.map value).sum + value last := by
    rw [hdenominator]
    simp
  have hselected : selected p (first ++ [last]) ((first.map value).map (part total denominator) ++
      [total - ((first.map value).map (part total denominator)).sum]) =
      (first.map fun holder => if p holder then part total denominator (value holder) else 0).sum +
        if p last then total - (first.map fun holder => part total denominator (value holder)).sum else 0 := by
    unfold selected
    rw [List.zipWith_append (by simp), List.sum_append, List.map_map, List.zipWith_map_right, List.zipWith_self]
    simp [Function.comp_def]
  have hall : (first.map fun holder => part total denominator (value holder)).sum =
      total * (first.map value).sum / denominator - (first.map fun holder => gap total denominator (value holder)).sum := by
    simpa [selectedWeight] using sum_parts (p := fun _ => True) total denominator value first
  have hweight : selectedWeight p value (first ++ [last]) = selectedWeight p value first + if p last then value last else 0 := by
    simp [selectedWeight]
  have hgaps : (first.map fun holder => gap total denominator (value holder)).sum =
      (first.map fun holder => if p holder then gap total denominator (value holder) else 0).sum +
        (first.map fun holder => if ¬ p holder then gap total denominator (value holder) else 0).sum := by
    rw [← List.sum_map_add]
    refine congrArg List.sum (List.map_congr_left fun holder _ => ?_)
    split_ifs <;> simp
  have htotal : total * (first.map value).sum / denominator + total * value last / denominator = total := by
    rw [← add_div, ← mul_add, ← hsum, mul_div_cancel_right₀ _ hpos.ne']
  rw [hselected, hweight, sum_parts]
  -- the last holder also has what all the others leave behind
  split_ifs with hp
  · have hdiff : total * selectedWeight p value first / denominator -
        (first.map fun holder => if p holder then gap total denominator (value holder) else 0).sum +
        (total - (first.map fun holder => part total denominator (value holder)).sum) -
        total * (selectedWeight p value first + value last) / denominator =
        (first.map fun holder => if ¬ p holder then gap total denominator (value holder) else 0).sum := by
      rw [hall, mul_add, add_div]
      linarith
    rw [hdiff]
    exact abs_sum_gaps_le hratio
  · have hdiff : total * selectedWeight p value first / denominator -
        (first.map fun holder => if p holder then gap total denominator (value holder) else 0).sum + 0 -
        total * (selectedWeight p value first + 0) / denominator =
        -(first.map fun holder => if p holder then gap total denominator (value holder) else 0).sum := by
      ring
    rw [hdiff, abs_neg]
    exact abs_sum_gaps_le hratio

end selected

end split

/-! ## Splittable of the ledger -/

/-- The shares that a sleeve has in a fill. -/
def sleeveWeight (shares : List SleeveAllocation) (sleeveId : String) : ℚ :=
  selectedWeight (fun a => a.sleeveId.val = sleeveId) (fun a => (a.signedQuantity.natAbs : ℚ)) shares

/-- All shares of a fill. -/
def fillWeight (shares : List SleeveAllocation) : ℕ := (shares.map (·.signedQuantity.natAbs)).sum

/-- What is known about the parts of an amount. -/
structure FeeSplit (k : ℕ) (total : ℚ) (shares : List SleeveAllocation) (parts : List ℚ) : Prop where
  length : shares.length = parts.length
  grid : ∀ x ∈ parts, OnGrid k x
  sum : parts.sum = total
  sign : ∀ x ∈ parts, 0 ≤ total * x ∧ |x| ≤ |total|
  near : ∀ sleeveId, |selected (fun a => a.sleeveId.val = sleeveId) shares parts -
    total * sleeveWeight shares sleeveId / fillWeight shares| ≤ (shares.length - 1 : ℕ) / 10 ^ 8

/-- Parts of an amount that is not negative. -/
theorem FeeSplit.nonneg {k : ℕ} {total : ℚ} {shares : List SleeveAllocation} {parts : List ℚ} (h : FeeSplit k total shares parts)
    (h0 : 0 ≤ total) {x : ℚ} (hx : x ∈ parts) : 0 ≤ x := by
  obtain ⟨hsign, hle⟩ := h.sign x hx
  rcases h0.lt_or_eq with hpos | rfl
  · exact nonneg_of_mul_nonneg_right hsign hpos
  · rw [abs_zero] at hle
    exact (abs_nonpos_iff.mp hle).ge

/-- **The ledger's splits.** -/
theorem allocateMoney_split {k : ℕ} {total : ℚ} {shares : List SleeveAllocation} {parts : List ℚ} (hk : 8 ≤ k)
    (hgrid : OnGrid k total) (hpos : 0 < fillWeight shares) (hsmall : |total| * 10 ^ k * fillWeight shares < 10 ^ 27)
    (h : allocateMoney total (shares.map (·.signedQuantity.natAbs)) = .ok parts) : FeeSplit k total shares parts := by
  have hweights : (shares.map fun a => (a.signedQuantity.natAbs : ℚ)).sum = fillWeight shares := by
    rw [fillWeight, Nat.cast_list_sum, List.map_map]
    rfl
  have hsplits : Splittable k 0 total (shares.map fun a => (a.signedQuantity.natAbs : ℚ)) := by
    refine ⟨hk, hgrid, fun weight hmem => ?_, ?_, ?_⟩
    · obtain ⟨a, -, rfl⟩ := List.mem_map.mp hmem
      exact ⟨onGrid_natCast 0 _, Nat.cast_nonneg _⟩
    · rw [hweights]
      exact_mod_cast hpos
    · rw [hweights, pow_zero, mul_one]
      exact hsmall
  have hroom : total = 0 ∨ (shares.map (·.signedQuantity.natAbs)).sum < 10 ^ 28 := by
    rcases eq_or_ne total 0 with h0 | h0
    · exact .inl h0
    · have hsum := hsplits.sum_small h0
      rw [hweights, pow_zero, mul_one] at hsum
      refine .inr ?_
      have hcast : ((fillWeight shares : ℕ) : ℚ) < ((10 ^ 28 : ℕ) : ℚ) := by
        push_cast
        exact hsum.trans (by norm_num)
      exact_mod_cast hcast
  rcases List.eq_nil_or_concat shares with rfl | ⟨first, last, hconcat⟩
  · exact absurd hpos (by simp [fillWeight])
  rw [List.concat_eq_append] at hconcat
  subst hconcat
  rw [allocateMoney_eq_shares hroom, List.map_map] at h
  have hmap : (first ++ [last]).map (fun a => (a.signedQuantity.natAbs : ℚ)) =
      first.map (fun a => (a.signedQuantity.natAbs : ℚ)) ++ [(last.signedQuantity.natAbs : ℚ)] := by simp
  have hclosed := allocateShares_eq (hmap ▸ hsplits)
  rw [← hmap] at hclosed
  obtain rfl := Except.ok.inj (hclosed.symm.trans h)
  refine ⟨by simp [sharesOf], fun x hx => sharesOf_grid hk hgrid hx, sum_sharesOf _ _ _,
    fun x hx => sharesOf_sign (hmap ▸ hsplits) hx, fun sleeveId => ?_⟩
  · have hnear := selected_near (p := fun a : SleeveAllocation => a.sleeveId.val = sleeveId) hsplits
    rw [hweights] at hnear
    simpa [sleeveWeight] using hnear

end LiveTrader.Portfolio
