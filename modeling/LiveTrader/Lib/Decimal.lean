/-
# `Lib.Decimal` — rational arithmetic under a decimal context

A decimal context keeps `prec` significant digits and rounds half to even.
Values are rationals, so every operation of the context is the exact operation
followed by one call of `ctx`, and nothing here depends on how a decimal is
stored.

What a development over this file needs is of two kinds.  *Exactness*: a value
that fits the context is not changed by it (`ctx_of_fits`), and amounts on a
common decimal grid fit as long as they are small (`ctx_of_onGrid`).  *Order*:
rounding is monotone (`ctx_mono`), odd (`ctx_neg`) and off by at most half a
unit in the last place (`abs_ctx_sub_le`), which is what bounds a chain of
rounded operations.

A rounded number compares with another as it did before, when its rounding is smaller than its distance from the other (`ctx_compare`).  Numbers
of a common grid with few digits have quotients that are far enough from the integers, so the whole part of a rounded quotient is that of the
quotient (`truncZ_ctx_div`).
-/
import Mathlib.Algebra.BigOperators.Group.List.Basic
import Mathlib.Algebra.Order.Field.Basic
import Mathlib.Data.Int.Log
import Mathlib.Data.Rat.Floor
import Mathlib.Tactic.FieldSimp
import Mathlib.Tactic.Linarith
import Mathlib.Tactic.NormNum
import Mathlib.Tactic.Positivity
import Mathlib.Tactic.Ring

namespace Lib.Decimal

/-! ## Rounding to an integer -/

/-- Nearest integer, a tie going to the even neighbour. -/
def roundHalfEven (x : ℚ) : ℤ :=
  if x - ⌊x⌋ < 1 / 2 then ⌊x⌋
  else if 1 / 2 < x - ⌊x⌋ then ⌊x⌋ + 1
  else if 2 ∣ ⌊x⌋ then ⌊x⌋ else ⌊x⌋ + 1

@[simp] theorem roundHalfEven_intCast (n : ℤ) : roundHalfEven (n : ℚ) = n := by
  simp [roundHalfEven]

@[simp] theorem roundHalfEven_zero : roundHalfEven 0 = 0 := by
  simpa using roundHalfEven_intCast 0

theorem abs_roundHalfEven_sub_le (x : ℚ) : |(roundHalfEven x : ℚ) - x| ≤ 1 / 2 := by
  have hlo := Int.floor_le x
  have hhi := Int.lt_floor_add_one x
  unfold roundHalfEven
  split_ifs <;> (push_cast; exact abs_le.mpr ⟨by linarith, by linarith⟩)

/-- The value is one of the two neighbours. -/
theorem floor_le_roundHalfEven (x : ℚ) : ⌊x⌋ ≤ roundHalfEven x := by
  unfold roundHalfEven; split_ifs <;> omega

theorem roundHalfEven_le_floor_add_one (x : ℚ) : roundHalfEven x ≤ ⌊x⌋ + 1 := by
  unfold roundHalfEven; split_ifs <;> omega

theorem roundHalfEven_mono {x y : ℚ} (h : x ≤ y) : roundHalfEven x ≤ roundHalfEven y := by
  have hfl : ⌊x⌋ ≤ ⌊y⌋ := Int.floor_le_floor h
  rcases hfl.lt_or_eq with hlt | heq
  · have := roundHalfEven_le_floor_add_one x
    have := floor_le_roundHalfEven y
    omega
  · -- same floor: the three cases are ordered by the fractional part
    unfold roundHalfEven
    rw [← heq]
    split_ifs <;> first | omega | (exfalso; linarith)

theorem roundHalfEven_neg (x : ℚ) : roundHalfEven (-x) = -roundHalfEven x := by
  by_cases hx : (⌊x⌋ : ℚ) = x
  · rw [← hx, ← Int.cast_neg, roundHalfEven_intCast, roundHalfEven_intCast]
  · have hlo : (⌊x⌋ : ℚ) < x := lt_of_le_of_ne (Int.floor_le x) hx
    have hfl : ⌊-x⌋ = -⌊x⌋ - 1 := by
      rw [Int.floor_eq_iff]
      have := Int.lt_floor_add_one x
      push_cast
      constructor <;> linarith
    unfold roundHalfEven
    rw [hfl]
    push_cast
    split_ifs <;> first | omega | (exfalso; linarith)

/-! ## The context -/

/-- The unit in the last place that a context of `prec` digits gives `x`. -/
def ulp (prec : ℕ) (x : ℚ) : ℚ := (10 : ℚ) ^ (Int.log 10 |x| + 1 - prec)

/-- `x` rounded to `prec` significant digits. -/
def ctx (prec : ℕ) (x : ℚ) : ℚ := roundHalfEven (x / ulp prec x) * ulp prec x

variable {prec : ℕ} {x y : ℚ}

theorem ulp_pos (prec : ℕ) (x : ℚ) : 0 < ulp prec x := zpow_pos (by norm_num) _

@[simp] theorem ulp_neg (prec : ℕ) (x : ℚ) : ulp prec (-x) = ulp prec x := by
  simp [ulp]

@[simp] theorem ctx_zero (prec : ℕ) : ctx prec 0 = 0 := by simp [ctx]

theorem ctx_neg (prec : ℕ) (x : ℚ) : ctx prec (-x) = -ctx prec x := by
  simp [ctx, neg_div, roundHalfEven_neg]

/-- `x` is written with at most `prec` significant digits. -/
def Fits (prec : ℕ) (x : ℚ) : Prop := ∃ n e : ℤ, x = n * (10 : ℚ) ^ e ∧ |n| < 10 ^ prec

theorem Fits.neg (h : Fits prec x) : Fits prec (-x) := by
  obtain ⟨n, e, rfl, hn⟩ := h
  exact ⟨-n, e, by push_cast; ring, by rwa [abs_neg]⟩

/-- **Exactness.**  The context leaves a value that fits it alone. -/
theorem ctx_of_fits (h : Fits prec x) : ctx prec x = x := by
  by_cases hx : x = 0
  · simp [hx]
  obtain ⟨n, e, rfl, hn⟩ := h
  set x : ℚ := n * (10 : ℚ) ^ e with hxe
  have hpos : 0 < |x| := abs_pos.mpr hx
  have hlt : |x| < (10 : ℚ) ^ ((prec : ℤ) + e) := by
    rw [zpow_add₀ (by norm_num), hxe, abs_mul, abs_of_pos (zpow_pos (by norm_num : (0:ℚ) < 10) e)]
    apply mul_lt_mul_of_pos_right _ (zpow_pos (by norm_num) _)
    rw [zpow_natCast]
    exact_mod_cast hn
  have hlog : Int.log 10 |x| < (prec : ℤ) + e :=
    (Int.lt_zpow_iff_log_lt (by norm_num) hpos).mp (by exact_mod_cast hlt)
  -- so the unit in the last place divides `10 ^ e`
  obtain ⟨k, hk⟩ : ∃ k : ℕ, e - (Int.log 10 |x| + 1 - prec) = k :=
    Int.eq_ofNat_of_zero_le (by omega)
  have hdiv : x / ulp prec x = ((n * 10 ^ k : ℤ) : ℚ) := by
    have he : (10 : ℚ) ^ e = 10 ^ k * ulp prec x := by
      rw [ulp, ← zpow_natCast, ← zpow_add₀ (by norm_num)]
      congr 1
      omega
    rw [div_eq_iff (ulp_pos _ _).ne']
    push_cast
    rw [mul_assoc, ← he]
  rw [ctx, hdiv, roundHalfEven_intCast, ← hdiv, div_mul_cancel₀ _ (ulp_pos _ _).ne']

theorem abs_ctx_sub_le_ulp (prec : ℕ) (x : ℚ) : |ctx prec x - x| ≤ ulp prec x / 2 := by
  have hu := ulp_pos prec x
  have h := abs_roundHalfEven_sub_le (x / ulp prec x)
  calc |ctx prec x - x|
      = |(roundHalfEven (x / ulp prec x) : ℚ) - x / ulp prec x| * ulp prec x := by
        rw [← abs_of_pos hu, ← abs_mul, abs_of_pos hu, sub_mul,
          div_mul_cancel₀ _ hu.ne', ctx]
    _ ≤ 1 / 2 * ulp prec x := by gcongr
    _ = ulp prec x / 2 := by ring

theorem ulp_le (prec : ℕ) (hx : x ≠ 0) : ulp prec x ≤ |x| * (10 : ℚ) ^ (1 - (prec : ℤ)) := by
  have h := Int.zpow_log_le_self (b := 10) (by norm_num) (abs_pos.mpr hx)
  have h10 : ((10 : ℕ) : ℚ) = 10 := by norm_num
  rw [h10] at h
  rw [ulp, add_sub_assoc, zpow_add₀ (by norm_num)]
  exact mul_le_mul_of_nonneg_right h (zpow_nonneg (by norm_num) _)

/-- **Relative error.**  Half a unit in the last place, as a fraction of `x`. -/
theorem abs_ctx_sub_le (prec : ℕ) (x : ℚ) :
    |ctx prec x - x| ≤ |x| * (10 : ℚ) ^ (1 - (prec : ℤ)) := by
  by_cases hx : x = 0
  · simp [hx]
  · have h1 := abs_ctx_sub_le_ulp prec x
    have h2 := ulp_le prec hx
    have h3 := ulp_pos prec x
    linarith

theorem abs_ctx_le (prec : ℕ) (x : ℚ) :
    |ctx prec x| ≤ |x| * (1 + (10 : ℚ) ^ (1 - (prec : ℤ))) := by
  have h := abs_ctx_sub_le prec x
  have := abs_sub_abs_le_abs_sub (ctx prec x) x
  linarith [mul_add |x| 1 ((10 : ℚ) ^ (1 - (prec : ℤ)))]

theorem ctx_nonneg (hx : 0 ≤ x) : 0 ≤ ctx prec x := by
  have h : (0 : ℤ) ≤ roundHalfEven (x / ulp prec x) := by
    simpa using roundHalfEven_mono (div_nonneg hx (ulp_pos prec x).le)
  exact mul_nonneg (by exact_mod_cast h) (ulp_pos prec x).le

/-- No rounding leaves the decade of its argument upwards by more than its end. -/
theorem ctx_le_decade (hx : 0 < x) : ctx prec x ≤ (10 : ℚ) ^ (Int.log 10 x + 1) := by
  have hu := ulp_pos prec x
  have h10 : (10 : ℚ) ^ (Int.log 10 x + 1) = ((10 ^ prec : ℤ) : ℚ) * ulp prec x := by
    rw [ulp, abs_of_pos hx]
    push_cast
    rw [← zpow_natCast, ← zpow_add₀ (by norm_num)]
    congr 1
    omega
  have hlt : x < (10 : ℚ) ^ (Int.log 10 x + 1) := by
    exact_mod_cast Int.lt_zpow_succ_log_self (b := 10) (by norm_num) x
  have hr : roundHalfEven (x / ulp prec x) ≤ 10 ^ prec := by
    have := roundHalfEven_mono (x := x / ulp prec x) (y := ((10 ^ prec : ℤ) : ℚ))
      (by rw [div_le_iff₀ hu, ← h10]; exact hlt.le)
    rwa [roundHalfEven_intCast] at this
  rw [h10, ctx]
  exact mul_le_mul_of_nonneg_right (by exact_mod_cast hr) hu.le

theorem decade_le_ctx (hp : 0 < prec) (hx : 0 < x) : (10 : ℚ) ^ Int.log 10 x ≤ ctx prec x := by
  have hu := ulp_pos prec x
  have h10 : (10 : ℚ) ^ Int.log 10 x = ((10 ^ (prec - 1) : ℤ) : ℚ) * ulp prec x := by
    rw [ulp, abs_of_pos hx]
    push_cast
    rw [← zpow_natCast, ← zpow_add₀ (by norm_num)]
    congr 1
    omega
  have hle : (10 : ℚ) ^ Int.log 10 x ≤ x := by
    exact_mod_cast Int.zpow_log_le_self (b := 10) (by norm_num) hx
  have hr : 10 ^ (prec - 1) ≤ roundHalfEven (x / ulp prec x) := by
    have := roundHalfEven_mono (x := ((10 ^ (prec - 1) : ℤ) : ℚ)) (y := x / ulp prec x)
      (by rw [le_div_iff₀ hu, ← h10]; exact hle)
    rwa [roundHalfEven_intCast] at this
  rw [h10, ctx]
  exact mul_le_mul_of_nonneg_right (by exact_mod_cast hr) hu.le

theorem ctx_mono_of_pos (hp : 0 < prec) (hx : 0 < x) (h : x ≤ y) : ctx prec x ≤ ctx prec y := by
  have hy : 0 < y := hx.trans_le h
  rcases (Int.log_mono_right (b := 10) hx h).lt_or_eq with hlt | heq
  · -- different decades: the boundary between them separates the two values
    calc ctx prec x ≤ (10 : ℚ) ^ (Int.log 10 x + 1) := ctx_le_decade hx
      _ ≤ (10 : ℚ) ^ Int.log 10 y := zpow_le_zpow_right₀ (by norm_num) (by omega)
      _ ≤ ctx prec y := decade_le_ctx hp hy
  · have hu : ulp prec x = ulp prec y := by rw [ulp, ulp, abs_of_pos hx, abs_of_pos hy, heq]
    rw [ctx, ctx, hu]
    have hup := ulp_pos prec y
    exact mul_le_mul_of_nonneg_right
      (by exact_mod_cast roundHalfEven_mono (div_le_div_of_nonneg_right h hup.le)) hup.le

/-- **Order.**  Rounding to a positive number of digits is monotone. -/
theorem ctx_mono (hp : 0 < prec) (h : x ≤ y) : ctx prec x ≤ ctx prec y := by
  rcases lt_or_ge 0 x with hx | hx
  · exact ctx_mono_of_pos hp hx h
  rcases lt_or_ge y 0 with hy | hy
  · have := ctx_mono_of_pos hp (neg_pos.mpr hy) (neg_le_neg h)
    rw [ctx_neg, ctx_neg] at this
    linarith
  · have hx' : ctx prec x ≤ 0 := by
      have : 0 ≤ ctx prec (-x) := ctx_nonneg (neg_nonneg.mpr hx)
      rw [ctx_neg] at this
      linarith
    exact hx'.trans (ctx_nonneg hy)

/-! ## Amounts on a decimal grid -/

/-- `x` has at most `k` decimal places. -/
def OnGrid (k : ℕ) (x : ℚ) : Prop := ∃ n : ℤ, x * 10 ^ k = n

instance (k : ℕ) (x : ℚ) : Decidable (OnGrid k x) :=
  decidable_of_iff ((x * 10 ^ k).den = 1) <| by
    rw [Rat.den_eq_one_iff]
    exact ⟨fun h => ⟨_, h.symm⟩, fun ⟨n, hn⟩ => by rw [hn]; simp⟩

theorem OnGrid.zero (k : ℕ) : OnGrid k 0 := ⟨0, by simp⟩

theorem OnGrid.add {k : ℕ} (hx : OnGrid k x) (hy : OnGrid k y) : OnGrid k (x + y) := by
  obtain ⟨m, hm⟩ := hx
  obtain ⟨n, hn⟩ := hy
  exact ⟨m + n, by push_cast; rw [← hm, ← hn]; ring⟩

theorem OnGrid.neg {k : ℕ} (hx : OnGrid k x) : OnGrid k (-x) := by
  obtain ⟨m, hm⟩ := hx
  exact ⟨-m, by push_cast; rw [← hm]; ring⟩

theorem OnGrid.sub {k : ℕ} (hx : OnGrid k x) (hy : OnGrid k y) : OnGrid k (x - y) := by
  simpa [sub_eq_add_neg] using hx.add hy.neg

theorem OnGrid.int_mul {k : ℕ} (m : ℤ) (hx : OnGrid k x) : OnGrid k (m * x) := by
  obtain ⟨n, hn⟩ := hx
  exact ⟨m * n, by push_cast; rw [← hn]; ring⟩

theorem OnGrid.mono {k l : ℕ} (hkl : k ≤ l) (hx : OnGrid k x) : OnGrid l x := by
  obtain ⟨n, hn⟩ := hx
  refine ⟨n * 10 ^ (l - k), ?_⟩
  push_cast
  rw [← hn, mul_assoc, ← pow_add, Nat.add_sub_cancel' hkl]

theorem OnGrid.list_sum {k : ℕ} : ∀ {l : List ℚ}, (∀ x ∈ l, OnGrid k x) → OnGrid k l.sum
  | [], _ => .zero k
  | x :: l, h => by
      rw [List.sum_cons]
      exact (h x (by simp)).add (OnGrid.list_sum fun y hy => h y (by simp [hy]))

/-- A grid value needs as many digits as its number of grid steps. -/
theorem OnGrid.fits {k : ℕ} (hx : OnGrid k x) (h : |x| * 10 ^ k < 10 ^ prec) : Fits prec x := by
  obtain ⟨n, hn⟩ := hx
  refine ⟨n, -(k : ℤ), ?_, ?_⟩
  · rw [zpow_neg, zpow_natCast, ← hn]
    field_simp
  · have : |(n : ℚ)| < 10 ^ prec := by
      rwa [← hn, abs_mul, abs_of_pos (by positivity : (0 : ℚ) < 10 ^ k)]
    exact_mod_cast this

theorem ctx_of_onGrid {k : ℕ} (hx : OnGrid k x) (h : |x| * 10 ^ k < 10 ^ prec) :
    ctx prec x = x :=
  ctx_of_fits (hx.fits h)

theorem ctx_intCast {n : ℤ} (h : |n| < 10 ^ prec) : ctx prec (n : ℚ) = n :=
  ctx_of_fits ⟨n, 0, by simp, h⟩

/-! ## Sums under the context -/

/-- Left-to-right summation, each addition rounded. -/
def ctxSum (prec : ℕ) (l : List ℚ) : ℚ := l.foldl (fun acc x => ctx prec (acc + x)) 0

/-- Magnitude of a list: no partial sum exceeds it. -/
def absSum (l : List ℚ) : ℚ := (l.map (|·|)).sum

@[simp] theorem absSum_nil : absSum [] = 0 := rfl

@[simp] theorem absSum_cons (x : ℚ) (l : List ℚ) : absSum (x :: l) = |x| + absSum l := by
  simp [absSum]

theorem absSum_nonneg : ∀ l : List ℚ, 0 ≤ absSum l
  | [] => le_rfl
  | x :: l => by
      have := absSum_nonneg l
      rw [absSum_cons]
      positivity

theorem abs_sum_le_absSum : ∀ l : List ℚ, |l.sum| ≤ absSum l
  | [] => by simp
  | x :: l => by
      have h := abs_sum_le_absSum l
      rw [List.sum_cons, absSum_cons]
      exact (abs_add_le x l.sum).trans (by linarith)

theorem abs_le_absSum {l : List ℚ} (h : x ∈ l) : |x| ≤ absSum l := by
  induction l with
  | nil => cases h
  | cons y l ih =>
      have := absSum_nonneg l
      rw [absSum_cons]
      rcases List.mem_cons.mp h with rfl | h
      · linarith
      · have := ih h
        linarith [abs_nonneg y]

/-- Running totals that stay on a grid within the context are exact. -/
theorem foldl_ctx_of_onGrid {k : ℕ} : ∀ (l : List ℚ) (acc : ℚ), OnGrid k acc →
    (∀ x ∈ l, OnGrid k x) → (|acc| + absSum l) * 10 ^ k < 10 ^ prec →
    l.foldl (fun acc x => ctx prec (acc + x)) acc = acc + l.sum
  | [], acc, _, _, _ => by simp
  | x :: l, acc, hacc, hl, hlt => by
      have hx : OnGrid k x := hl x (by simp)
      rw [absSum_cons] at hlt
      have habs : |acc + x| ≤ |acc| + |x| := abs_add_le acc x
      have h10 : (0 : ℚ) ≤ 10 ^ k := by positivity
      have hstep : ctx prec (acc + x) = acc + x := by
        refine ctx_of_onGrid (hacc.add hx) (lt_of_le_of_lt ?_ hlt)
        have := absSum_nonneg l
        exact mul_le_mul_of_nonneg_right (by linarith) h10
      rw [List.foldl_cons, hstep, foldl_ctx_of_onGrid l (acc + x) (hacc.add hx)
        (fun y hy => hl y (by simp [hy])), List.sum_cons]
      · ring
      · exact lt_of_le_of_lt (mul_le_mul_of_nonneg_right (by linarith) h10) hlt

theorem ctxSum_of_onGrid {k : ℕ} {l : List ℚ} (hl : ∀ x ∈ l, OnGrid k x)
    (h : absSum l * 10 ^ k < 10 ^ prec) : ctxSum prec l = l.sum := by
  rw [ctxSum, foldl_ctx_of_onGrid l 0 (.zero k) hl (by simpa using h), zero_add]

/-- A running total that stays on a grid within the context is exact. -/
theorem ctx_add_of_onGrid {k : ℕ} {bound : ℚ} (hx : OnGrid k x) (hy : OnGrid k y)
    (h : |x| + |y| ≤ bound) (hb : bound * 10 ^ k < 10 ^ prec) : ctx prec (x + y) = x + y := by
  refine ctx_of_onGrid (hx.add hy) (lt_of_le_of_lt ?_ hb)
  exact mul_le_mul_of_nonneg_right ((abs_add_le x y).trans h) (by positivity)

/-! ## Truncation -/

/-- Towards zero, to an integer. -/
def truncZ (x : ℚ) : ℤ := if 0 ≤ x then ⌊x⌋ else ⌈x⌉

/-- Towards zero, to `places` decimal places; fails when the result needs more
than `prec` digits. -/
def quantizeDown (prec places : ℕ) (x : ℚ) : Option ℚ :=
  if |truncZ (x * 10 ^ places)| < 10 ^ prec then
    some ((truncZ (x * 10 ^ places) : ℚ) / 10 ^ places)
  else none

theorem abs_truncZ_le (x : ℚ) : |(truncZ x : ℚ)| ≤ |x| := by
  rcases le_or_gt 0 x with hx | hx
  · have hn : (0 : ℚ) ≤ ⌊x⌋ := by exact_mod_cast Int.floor_nonneg.mpr hx
    simpa [truncZ, hx, abs_of_nonneg, hn] using Int.floor_le x
  · have hc : (⌈x⌉ : ℚ) ≤ 0 := by exact_mod_cast Int.ceil_le.mpr (by simpa using hx.le)
    simpa [truncZ, hx.not_ge, abs_of_nonpos, hc, hx.le] using Int.le_ceil x

theorem quantizeDown_eq_some {places : ℕ} (h : |x| * 10 ^ places < 10 ^ prec) :
    quantizeDown prec places x = some ((truncZ (x * 10 ^ places) : ℚ) / 10 ^ places) := by
  have h1 := abs_truncZ_le (x * 10 ^ places)
  rw [abs_mul, abs_of_pos (by positivity : (0 : ℚ) < 10 ^ places)] at h1
  have h2 : |truncZ (x * 10 ^ places)| < 10 ^ prec := by
    have := lt_of_le_of_lt h1 h
    exact_mod_cast this
  exact if_pos h2

theorem onGrid_of_quantizeDown {places : ℕ} (h : quantizeDown prec places x = some y) :
    OnGrid places y := by
  unfold quantizeDown at h
  split_ifs at h
  refine ⟨truncZ (x * 10 ^ places), ?_⟩
  rw [← Option.some.inj h]
  field_simp

theorem abs_quantizeDown_le {places : ℕ} (h : quantizeDown prec places x = some y) :
    |y| ≤ |x| := by
  unfold quantizeDown at h
  split_ifs at h
  have h10 : (0 : ℚ) < 10 ^ places := by positivity
  rw [← Option.some.inj h, abs_div, abs_of_pos h10, div_le_iff₀ h10]
  calc |(truncZ (x * 10 ^ places) : ℚ)| ≤ |x * 10 ^ places| := abs_truncZ_le _
    _ = |x| * 10 ^ places := by rw [abs_mul, abs_of_pos h10]

end Lib.Decimal

namespace Lib.Decimal

/-! ## Quotients on a grid, in a decimal context -/

variable {prec k : ℕ} {x y s : ℚ}

/-- A number that is rounded by less than its distance from another one compares as it did. -/
theorem ctx_compare (hy : Fits prec y) (hgap : x ≠ y → |x| * (10 : ℚ) ^ (1 - (prec : ℤ)) < |x - y|) :
    (ctx prec x ≤ y ↔ x ≤ y) ∧ (y ≤ ctx prec x ↔ y ≤ x) := by
  have hround := abs_le.mp (abs_ctx_sub_le prec x)
  rcases lt_trichotomy x y with hlt | rfl | hgt
  · have hdist := hgap hlt.ne
    rw [abs_of_neg (sub_neg.mpr hlt)] at hdist
    constructor
    · exact ⟨fun _ => hlt.le, fun _ => by linarith⟩
    · exact ⟨fun hle => by linarith, fun hle => absurd hle (not_le.mpr hlt)⟩
  · rw [ctx_of_fits hy]
    exact ⟨Iff.rfl, Iff.rfl⟩
  · have hdist := hgap hgt.ne'
    rw [abs_of_pos (sub_pos.mpr hgt)] at hdist
    constructor
    · exact ⟨fun hle => by linarith, fun hle => absurd hle (not_le.mpr hgt)⟩
    · exact ⟨fun _ => hgt.le, fun _ => by linarith⟩

/-- A positive number of a grid is at least its unit. -/
theorem OnGrid.one_le (hs : OnGrid k s) (hpos : 0 < s) : 1 ≤ s * 10 ^ k := by
  obtain ⟨n, hn⟩ := hs
  have hscaled : 0 < s * 10 ^ k := by positivity
  rw [hn] at hscaled ⊢
  exact_mod_cast Int.add_one_le_iff.mpr (Int.cast_pos.mp hscaled)

/-- A quotient is not closer to an integer than the unit of the grid, in steps. -/
theorem OnGrid.apart (hx : OnGrid k x) (hs : OnGrid k s) (hpos : 0 < s) (n : ℤ) (hne : x / s ≠ n) : 1 ≤ |x / s - n| * (s * 10 ^ k) := by
  obtain ⟨a, ha⟩ := hx
  obtain ⟨b, hb⟩ := hs
  have hscaled : 0 < s * 10 ^ k := by positivity
  have hsame : (x / s - n) * (s * 10 ^ k) = ((a - n * b : ℤ) : ℚ) := by
    push_cast
    rw [← ha, ← hb]
    field_simp
  have hnonzero : a - n * b ≠ 0 := by
    intro hzero
    rw [hzero, Int.cast_zero] at hsame
    rcases mul_eq_zero.mp hsame with hequal | hten
    · exact hne (sub_eq_zero.mp hequal)
    · exact hscaled.ne' hten
  rw [← abs_of_pos hscaled, ← abs_mul, hsame, ← Int.cast_abs]
  exact_mod_cast Int.one_le_abs hnonzero

/-- The quotient compares with the integers as it did before it was rounded. -/
theorem ctx_div_compare (hprec : 0 < prec) (hx : OnGrid k x) (hs : OnGrid k s) (hpos : 0 < s) (hnonneg : 0 ≤ x)
    (hbound : x * 10 ^ k < 10 ^ (prec - 1)) {n : ℤ} (hn : |n| < 10 ^ prec) :
    (ctx prec (x / s) ≤ n ↔ x / s ≤ n) ∧ (n ≤ ctx prec (x / s) ↔ n ≤ x / s) := by
  refine ctx_compare ⟨n, 0, by simp, hn⟩ ?_
  intro hne
  have hapart := hx.apart hs hpos n hne
  have hscaled : 0 < s * 10 ^ k := by positivity
  refine lt_of_mul_lt_mul_right ?_ hscaled.le
  refine lt_of_lt_of_le ?_ hapart
  -- the numerator has one digit less than the context
  have hpow : (10 : ℚ) ^ (prec - 1) * (10 : ℚ) ^ (1 - (prec : ℤ)) = 1 := by
    have hcast : ((prec - 1 : ℕ) : ℤ) + (1 - (prec : ℤ)) = 0 := by omega
    rw [← zpow_natCast, ← zpow_add₀ (by norm_num), hcast, zpow_zero]
  rw [abs_of_nonneg (div_nonneg hnonneg hpos.le)]
  calc x / s * (10 : ℚ) ^ (1 - (prec : ℤ)) * (s * 10 ^ k) = x * 10 ^ k * (10 : ℚ) ^ (1 - (prec : ℤ)) := by field_simp
    _ < 10 ^ (prec - 1) * (10 : ℚ) ^ (1 - (prec : ℤ)) := mul_lt_mul_of_pos_right hbound (zpow_pos (by norm_num) _)
    _ = 1 := hpow

/-- The whole part of a rounded quotient is that of the quotient. -/
theorem truncZ_ctx_div (hprec : 0 < prec) (hx : OnGrid k x) (hs : OnGrid k s) (hpos : 0 < s) (hnonneg : 0 ≤ x)
    (hbound : x * 10 ^ k < 10 ^ (prec - 1)) : truncZ (ctx prec (x / s)) = ⌊x / s⌋ := by
  have hquotient : 0 ≤ x / s := div_nonneg hnonneg hpos.le
  have hfloor : 0 ≤ ⌊x / s⌋ := Int.floor_nonneg.mpr hquotient
  -- a step is at least a unit, so the quotient is at most the numerator in units
  have hsmall : ⌊x / s⌋ + 1 ≤ 10 ^ (prec - 1) := by
    have hunit := hs.one_le hpos
    have hle : x / s ≤ x * 10 ^ k := by
      rw [div_le_iff₀ hpos]
      calc x = x * 1 := (mul_one x).symm
        _ ≤ x * (s * 10 ^ k) := mul_le_mul_of_nonneg_left hunit hnonneg
        _ = x * 10 ^ k * s := by ring
    have hlt : ((⌊x / s⌋ : ℤ) : ℚ) < ((10 ^ (prec - 1) : ℤ) : ℚ) := by
      push_cast
      exact lt_of_le_of_lt ((Int.floor_le _).trans hle) hbound
    exact Int.add_one_le_iff.mpr (Int.cast_lt.mp hlt)
  have hdigits : (10 : ℤ) ^ (prec - 1) < 10 ^ prec := pow_lt_pow_right₀ (by norm_num) (by omega)
  have hlow : |⌊x / s⌋| < 10 ^ prec := by
    rw [abs_of_nonneg hfloor]
    omega
  have hhigh : |⌊x / s⌋ + 1| < 10 ^ prec := by
    rw [abs_of_nonneg (by omega)]
    omega
  rw [truncZ, if_pos (ctx_nonneg hquotient), Int.floor_eq_iff]
  constructor
  · exact (ctx_div_compare hprec hx hs hpos hnonneg hbound hlow).2.mpr (Int.floor_le _)
  · have hnext := (ctx_div_compare hprec hx hs hpos hnonneg hbound hhigh).2
    push_cast at hnext
    rw [← not_le, hnext, not_le]
    exact Int.lt_floor_add_one _

/-! ## Shifts of the point -/

theorem log_mul_pow (hx : 0 < x) (n : ℕ) : Int.log 10 (x * 10 ^ n) = Int.log 10 x + n := by
  refine eq_of_forall_le_iff fun z => ?_
  have hpos : 0 < x * 10 ^ n := by positivity
  have hten : (10 : ℚ) ^ z = 10 ^ (z - n) * 10 ^ n := by
    rw [← zpow_natCast, ← zpow_add₀ (by norm_num), sub_add_cancel]
  have hscaled := Int.zpow_le_iff_le_log (b := 10) (x := z) (by norm_num) hpos
  have hplain := Int.zpow_le_iff_le_log (b := 10) (x := z - n) (by norm_num) hx
  rw [← hscaled, ← sub_le_iff_le_add, ← hplain]
  push_cast
  rw [hten]
  exact mul_le_mul_iff_left₀ (by positivity)

/-- A shift of the point does not change the digits. -/
theorem ctx_mul_pow (prec : ℕ) (x : ℚ) (n : ℕ) : ctx prec (x * 10 ^ n) = ctx prec x * 10 ^ n := by
  rcases eq_or_ne x 0 with rfl | hx
  · simp [ctx]
  · have hten : (0 : ℚ) < 10 ^ n := by positivity
    have hulp : ulp prec (x * 10 ^ n) = ulp prec x * 10 ^ n := by
      rw [ulp, ulp, abs_mul, abs_of_pos hten, log_mul_pow (abs_pos.mpr hx), ← zpow_natCast (10 : ℚ) n, ← zpow_add₀ (by norm_num)]
      congr 1
      ring
    rw [ctx, ctx, hulp, mul_div_mul_right _ _ hten.ne', mul_assoc]

theorem truncZ_neg (x : ℚ) : truncZ (-x) = -truncZ x := by
  rcases lt_trichotomy x 0 with hx | rfl | hx
  · rw [truncZ, truncZ, if_pos (by linarith), if_neg (by linarith), Int.floor_neg]
  · simp [truncZ]
  · rw [truncZ, truncZ, if_neg (by linarith), if_pos (by linarith), Int.ceil_neg]

theorem OnGrid.mul {k j : ℕ} {x y : ℚ} (hx : OnGrid k x) (hy : OnGrid j y) : OnGrid (k + j) (x * y) := by
  obtain ⟨m, hm⟩ := hx
  obtain ⟨n, hn⟩ := hy
  refine ⟨m * n, ?_⟩
  push_cast
  rw [← hm, ← hn, pow_add]
  ring

end Lib.Decimal
