/-
# `Lib.DecimalFormat` — numbers written as texts

`format(value.normalize(), "f")`: the value rounded to 28 digits, its trailing zeros dropped, written without an
exponent.  `Decimal(text)` reads the value back (`decimal?_fixed`), and the value is the one that was written as long
as it has 28 digits and is no smaller than the context's normal numbers (`normalize_value`).

`str(d)` writes the coefficient and the exponent, with `E` notation where the exponent is positive or the number is small.
-/
import LiveTrader.Lib.DecimalText
import Mathlib.Data.Nat.Digits.Defs

namespace Lib.Py

open Lib.Decimal

/-! ## What the context keeps -/

/-- What the context makes of a number fits it. -/
theorem fits_ctx {prec : ℕ} (hprec : 0 < prec) (x : ℚ) : Fits prec (ctx prec x) := by
  have hu := ulp_pos prec x
  have hone : (1 : ℤ) < 10 ^ prec := one_lt_pow₀ (by norm_num) hprec.ne'
  rcases eq_or_ne x 0 with rfl | hx
  · rw [ctx_zero]
    exact ⟨0, 0, by norm_num, by rw [abs_zero]; exact zero_lt_one.trans hone⟩
  have hdecade : (10 : ℚ) ^ (Int.log 10 |x| + 1) = ((10 ^ prec : ℤ) : ℚ) * ulp prec x := by
    rw [ulp]
    push_cast
    rw [← zpow_natCast, ← zpow_add₀ (by norm_num)]
    congr 1
    ring
  have habs : |x| / ulp prec x ≤ ((10 ^ prec : ℤ) : ℚ) := by
    have hlt : |x| < (10 : ℚ) ^ (Int.log 10 |x| + 1) := by exact_mod_cast Int.lt_zpow_succ_log_self (b := 10) (by norm_num) |x|
    rw [div_le_iff₀ hu, ← hdecade]
    exact hlt.le
  have hhigh : roundHalfEven (x / ulp prec x) ≤ 10 ^ prec := by
    have h := roundHalfEven_mono ((div_le_div_of_nonneg_right (le_abs_self x) hu.le).trans habs)
    rwa [roundHalfEven_intCast] at h
  have hlow : -(10 ^ prec) ≤ roundHalfEven (x / ulp prec x) := by
    have hneg := div_le_div_of_nonneg_right (neg_abs_le x) hu.le
    rw [neg_div] at hneg
    have h := roundHalfEven_mono ((neg_le_neg habs).trans hneg)
    rwa [roundHalfEven_neg, roundHalfEven_intCast] at h
  rw [ctx]
  rcases hhigh.lt_or_eq with hlt | heq
  · rcases hlow.lt_or_eq with hgt | heq
    · exact ⟨_, _, rfl, abs_lt.mpr ⟨hgt, hlt⟩⟩
    · refine ⟨-1, Int.log 10 |x| + 1, ?_, by rwa [abs_neg, abs_one]⟩
      rw [← heq, Int.cast_neg, neg_mul, ← hdecade, Int.cast_neg, Int.cast_one, neg_one_mul]
  · refine ⟨1, Int.log 10 |x| + 1, ?_, by rwa [abs_one]⟩
    rw [heq, ← hdecade, Int.cast_one, one_mul]

/-! ## Plain digits -/

/-- The digits of `format(d, "f")`. -/
def Dec.plain (d : Dec) : List Char :=
  if 0 ≤ d.exp then Nat.toDigits 10 (d.coeff * 10 ^ d.exp.toNat)
  else
    let places := (-d.exp).toNat
    Nat.toDigits 10 (d.coeff / 10 ^ places) ++ '.' :: (Nat.toDigits 10 (d.coeff % 10 ^ places)).leftpad places '0'

/-- `format(d, "f")`. -/
def Dec.fixed (d : Dec) : String := String.ofList (if d.neg then '-' :: d.plain else d.plain)

/-! ## Reading them back -/

theorem digit?_of_isDigit {c : Char} (h : c.isDigit = true) : digit? c = some (c.toNat - 48) := by
  rw [Char.isDigit, Bool.and_eq_true, decide_eq_true_eq, decide_eq_true_eq] at h
  have hlow : 48 ≤ c.toNat := h.1
  have hhigh : c.toNat ≤ 57 := h.2
  rw [digit?, zeros, List.find?_cons_of_pos (by rw [decide_eq_true_eq]; omega)]
  rfl

/-- Digits are read up to what is none. -/
theorem leadingDigits_append (cs rest : List Char) (hcs : ∀ c ∈ cs, c.isDigit = true)
    (hrest : ∀ c ∈ rest.head?, digit? c = none) :
    leadingDigits (cs ++ rest) = (cs.map fun c => c.toNat - 48, rest) := by
  induction cs with
  | nil =>
    cases rest with
    | nil => rfl
    | cons c rest =>
      rw [List.nil_append, leadingDigits, hrest c rfl]
      rfl
  | cons c cs ih =>
    rw [List.cons_append, leadingDigits, digit?_of_isDigit (hcs c List.mem_cons_self),
      ih fun c hc => hcs c (List.mem_cons_of_mem _ hc)]
    rfl

theorem ofDigits_eq (cs : List Char) : ofDigits (cs.map fun c => c.toNat - 48) = Nat.ofDigitChars 10 cs 0 := by
  rw [ofDigits, List.foldl_map, Nat.ofDigitChars_eq_foldl]
  rfl

theorem isDigit_toDigits {n : ℕ} {c : Char} (h : c ∈ Nat.toDigits 10 n) : c.isDigit = true :=
  Nat.isDigit_of_mem_toDigits (by norm_num) (by norm_num) h

theorem isDigit_leftpad {n k : ℕ} {c : Char} (h : c ∈ (Nat.toDigits 10 n).leftpad k '0') : c.isDigit = true := by
  rcases List.mem_append.mp h with h | h
  · rw [List.eq_of_mem_replicate h]
    rfl
  · exact isDigit_toDigits h

/-- A sign is looked for before the first digit. -/
theorem leadingSign_of_isDigit {c : Char} (cs : List Char) (h : c.isDigit = true) : leadingSign (c :: cs) = (false, c :: cs) := by
  rw [leadingSign.eq_def]
  split
  · next heq =>
    obtain ⟨rfl, -⟩ := List.cons.inj heq
    cases h
  · next heq =>
    obtain ⟨rfl, -⟩ := List.cons.inj heq
    cases h
  · rfl

/-- The digits, a point, or a sign. -/
theorem mem_plain {d : Dec} {c : Char} (h : c ∈ d.plain) : c.isDigit = true ∨ c = '.' := by
  rw [Dec.plain] at h
  split at h
  · exact .inl (isDigit_toDigits h)
  · rcases List.mem_append.mp h with h | h
    · exact .inl (isDigit_toDigits h)
    · rcases List.mem_cons.mp h with rfl | h
      · exact .inr rfl
      · exact .inl (isDigit_leftpad h)

/-- A digit comes first. -/
theorem plain_eq_cons (d : Dec) : ∃ c cs, d.plain = c :: cs ∧ c.isDigit = true := by
  have hdigits : ∀ (n : ℕ) (rest : List Char), ∃ c cs, Nat.toDigits 10 n ++ rest = c :: cs ∧ c.isDigit = true := by
    intro n rest
    cases hn : Nat.toDigits 10 n with
    | nil => exact absurd hn Nat.toDigits_ne_nil
    | cons c cs => exact ⟨c, cs ++ rest, rfl, isDigit_toDigits (hn ▸ List.mem_cons_self)⟩
  rw [Dec.plain]
  split
  · have h := hdigits (d.coeff * 10 ^ d.exp.toNat) []
    rwa [List.append_nil] at h
  · exact hdigits _ _

/-- The digits on both sides of the point make up the coefficient. -/
theorem ofDigits_places {coeff places : ℕ} (hplaces : 0 < places) :
    Nat.ofDigitChars 10 (Nat.toDigits 10 (coeff / 10 ^ places) ++
      (Nat.toDigits 10 (coeff % 10 ^ places)).leftpad places '0') 0 = coeff := by
  have hlength : (Nat.toDigits 10 (coeff % 10 ^ places)).length ≤ places :=
    (Nat.length_toDigits_le_iff (by norm_num) hplaces).mpr (Nat.mod_lt _ (by positivity))
  rw [List.leftpad, Nat.ofDigitChars_append, Nat.ofDigitChars_append, Nat.ofDigitChars_ten_toDigits,
    Nat.ofDigitChars_replicate_zero, Nat.ofDigitChars_eq_ofDigitChars_zero, Nat.ofDigitChars_ten_toDigits, ← mul_assoc,
    ← pow_add, Nat.add_sub_cancel' hlength, Nat.div_add_mod]

/-- What is between the sign and the end of a text is read as digits, a point and digits. -/
theorem trim_fixed (d : Dec) : (trim d.fixed.toList).filter (· ≠ '_') = if d.neg then '-' :: d.plain else d.plain := by
  have hplain : ∀ c ∈ (if d.neg then '-' :: d.plain else d.plain), isSpace c = false ∧ c ≠ '_' := by
    intro c hc
    have hc : c = '-' ∨ c.isDigit = true ∨ c = '.' := by
      split at hc
      · exact (List.mem_cons.mp hc).imp id mem_plain
      · exact .inr (mem_plain hc)
    rcases hc with rfl | hdigit | rfl
    · exact ⟨rfl, by decide⟩
    · rw [Char.isDigit, Bool.and_eq_true, decide_eq_true_eq, decide_eq_true_eq] at hdigit
      have hlow : 48 ≤ c.toNat := hdigit.1
      have hhigh : c.toNat ≤ 57 := hdigit.2
      refine ⟨by simp only [isSpace]; grind, ?_⟩
      rintro rfl
      exact absurd hhigh (by decide)
    · exact ⟨rfl, by decide⟩
  rw [Dec.fixed, String.toList_ofList, trim_of_trimmed ⟨fun c hc => (hplain c (List.mem_of_mem_head? hc)).1,
    fun c hc => (hplain c (List.mem_of_mem_getLast? hc)).1⟩, List.filter_eq_self.mpr fun c hc => decide_eq_true (hplain c hc).2]

theorem leadingSign_fixed (d : Dec) : leadingSign (if d.neg then '-' :: d.plain else d.plain) = (d.neg, d.plain) := by
  cases hneg : d.neg with
  | true => rfl
  | false =>
    obtain ⟨c, cs, hplain, hdigit⟩ := plain_eq_cons d
    rw [hplain]
    exact leadingSign_of_isDigit cs hdigit

/-- A whole number is read without an exponent. -/
theorem decimal?_fixed_whole {d : Dec} (hexp : 0 ≤ d.exp) :
    decimal? d.fixed = some (.finite ⟨d.neg, d.coeff * 10 ^ d.exp.toNat, 0⟩) := by
  rw [decimal?, trim_fixed, leadingSign_fixed]
  have hread := leadingDigits_append (Nat.toDigits 10 (d.coeff * 10 ^ d.exp.toNat)) []
    (fun c hc => isDigit_toDigits hc) fun c hc => by cases hc
  rw [List.append_nil] at hread
  have hne : (Nat.toDigits 10 (d.coeff * 10 ^ d.exp.toNat)).map (fun c => c.toNat - 48) ≠ [] := by
    rw [ne_eq, List.map_eq_nil_iff]
    exact Nat.toDigits_ne_nil
  rw [Dec.plain, if_pos hexp]
  simp only [hread, hne, false_and, if_false, exponent?, Option.map_some, List.append_nil, List.length_nil, Nat.cast_zero, sub_zero]
  rw [ofDigits_eq, Nat.ofDigitChars_ten_toDigits]

/-- A number with places is read as it is. -/
theorem decimal?_fixed_places {d : Dec} (hexp : d.exp < 0) : decimal? d.fixed = some (.finite d) := by
  rw [decimal?, trim_fixed, leadingSign_fixed]
  obtain ⟨places, hplaces⟩ : ∃ places : ℕ, d.exp = -(places : ℤ) := ⟨(-d.exp).toNat, by omega⟩
  have hpos : 0 < places := by omega
  have htoNat : (-d.exp).toNat = places := by omega
  have hread := leadingDigits_append (Nat.toDigits 10 (d.coeff / 10 ^ places))
    ('.' :: (Nat.toDigits 10 (d.coeff % 10 ^ places)).leftpad places '0')
    (fun c hc => isDigit_toDigits hc) fun c hc => by
      obtain rfl := Option.some.inj hc
      decide +kernel
  have hfrac := leadingDigits_append ((Nat.toDigits 10 (d.coeff % 10 ^ places)).leftpad places '0') []
    (fun c hc => isDigit_leftpad hc) fun c hc => by cases hc
  rw [List.append_nil] at hfrac
  have hne : (Nat.toDigits 10 (d.coeff / 10 ^ places)).map (fun c => c.toNat - 48) ≠ [] := by
    rw [ne_eq, List.map_eq_nil_iff]
    exact Nat.toDigits_ne_nil
  have hlength : ((Nat.toDigits 10 (d.coeff % 10 ^ places)).leftpad places '0').length = places := by
    rw [List.length_leftpad]
    exact max_eq_left ((Nat.length_toDigits_le_iff (by norm_num) hpos).mpr (Nat.mod_lt _ (by positivity)))
  rw [Dec.plain, if_neg (not_le.mpr hexp), htoNat]
  simp only [hread, hfrac, hne, false_and, if_false, exponent?, Option.map_some]
  rw [← List.map_append, ofDigits_eq, ofDigits_places hpos, List.length_map, hlength, zero_sub, ← hplaces]

/-- **The text of a decimal denotes its value.** -/
theorem decimal?_fixed (d : Dec) : ∃ d', decimal? d.fixed = some (.finite d') ∧ d'.value = d.value := by
  rcases lt_or_ge d.exp 0 with hexp | hexp
  · exact ⟨d, decimal?_fixed_places hexp, rfl⟩
  · refine ⟨_, decimal?_fixed_whole hexp, ?_⟩
    obtain ⟨n, hn⟩ := Int.eq_ofNat_of_zero_le hexp
    simp only [Dec.value, hn, Int.toNat_natCast, zpow_natCast, zpow_zero]
    push_cast
    ring

/-! ## Normal form -/

/-- The trailing zeros of a number. -/
def trailingZeros (n : ℕ) : ℕ := ((Nat.digits 10 n).takeWhile (· = 0)).length

/-- The exponent of the last digit that the default context keeps: 28 digits, and none below the smallest subnormal
number. -/
def quantum (x : ℚ) : ℤ := max (Int.log 10 |x| + 1 - 28) (-1000026)

/-- `x.normalize()`, with a zero written without places. -/
def normalize (x : ℚ) : Dec :=
  let coeff := (roundHalfEven (|x| / 10 ^ quantum x)).toNat
  if coeff = 0 then ⟨x < 0, 0, 0⟩
  else ⟨x < 0, coeff / 10 ^ trailingZeros coeff, quantum x + trailingZeros coeff⟩

theorem pow_takeWhile_dvd (ds : List ℕ) : 10 ^ (ds.takeWhile (· = 0)).length ∣ Nat.ofDigits 10 ds := by
  induction ds with
  | nil => exact one_dvd _
  | cons n ds ih =>
    rw [Nat.ofDigits_cons, List.takeWhile_cons]
    by_cases hn : n = 0
    · rw [if_pos (decide_eq_true hn), hn, zero_add, List.length_cons, pow_succ']
      exact Nat.mul_dvd_mul_left 10 ih
    · rw [if_neg (by rwa [decide_eq_true_eq])]
      exact one_dvd _

theorem pow_trailingZeros_dvd (n : ℕ) : 10 ^ trailingZeros n ∣ n := by
  have h := pow_takeWhile_dvd (Nat.digits 10 n)
  rwa [Nat.ofDigits_digits] at h

/-- Dropping the zeros does not change the value. -/
theorem normalize_value_eq (x : ℚ) : (normalize x).value =
    (if x < 0 then -1 else 1) * ((roundHalfEven (|x| / 10 ^ quantum x)).toNat : ℚ) * (10 : ℚ) ^ quantum x := by
  rw [normalize]
  set coeff := (roundHalfEven (|x| / 10 ^ quantum x)).toNat
  by_cases hcoeff : coeff = 0
  · simp only [hcoeff, if_true, Dec.value, Nat.cast_zero, mul_zero, zero_mul]
  · obtain ⟨rest, hrest⟩ := pow_trailingZeros_dvd coeff
    have hdiv : coeff / 10 ^ trailingZeros coeff = rest := Nat.div_eq_of_eq_mul_right (pow_pos (by norm_num) _) hrest
    have hcast : (coeff : ℚ) = 10 ^ trailingZeros coeff * rest := by exact_mod_cast hrest
    simp only [hcoeff, if_false, Dec.value, hdiv, decide_eq_true_eq]
    rw [zpow_add₀ (by norm_num), zpow_natCast, hcast]
    ring

/-- A number of 28 digits that is none below the normal numbers of the context is kept. -/
theorem normalize_value {x : ℚ} (hfits : Fits 28 x) (hnormal : x = 0 ∨ (10 : ℚ) ^ (-999999 : ℤ) ≤ |x|) : (normalize x).value = x := by
  rcases eq_or_ne x 0 with rfl | hx
  · rw [normalize_value_eq]
    simp only [abs_zero, zero_div, roundHalfEven_zero, Int.toNat_zero, Nat.cast_zero, mul_zero, zero_mul]
  · have hlog : (-999999 : ℤ) ≤ Int.log 10 |x| :=
      (Int.zpow_le_iff_le_log (by norm_num) (abs_pos.mpr hx)).mp (by exact_mod_cast hnormal.resolve_left hx)
    have hquantum : (10 : ℚ) ^ quantum x = ulp 28 |x| := by
      rw [quantum, max_eq_left (by omega), ulp, abs_abs]
      rfl
    have habs : Fits 28 |x| := by
      rcases abs_choice x with h | h
      · rwa [h]
      · rw [h]
        exact hfits.neg
    have hround : 0 ≤ roundHalfEven (|x| / ulp 28 |x|) := by
      have h := roundHalfEven_mono (div_nonneg (abs_nonneg x) (ulp_pos 28 |x|).le)
      rwa [roundHalfEven_zero] at h
    have hctx := ctx_of_fits habs
    rw [ctx] at hctx
    have hcast : ((roundHalfEven (|x| / ulp 28 |x|)).toNat : ℚ) = roundHalfEven (|x| / ulp 28 |x|) := by
      exact_mod_cast Int.toNat_of_nonneg hround
    rw [normalize_value_eq, hquantum, hcast, mul_assoc, hctx]
    split
    · next hneg => rw [abs_of_neg hneg, neg_one_mul, neg_neg]
    · next hnonneg => rw [abs_of_nonneg (not_lt.mp hnonneg), one_mul]

/-- A number below half of the smallest subnormal number is lost. -/
theorem normalize_of_small {x : ℚ} (h : |x| * 2 < (10 : ℚ) ^ (-1000026 : ℤ)) : normalize x = ⟨x < 0, 0, 0⟩ := by
  have hle : (10 : ℚ) ^ (-1000026 : ℤ) ≤ 10 ^ quantum x := zpow_le_zpow_right₀ (by norm_num) (le_max_right _ _)
  have hpos : (0 : ℚ) < 10 ^ quantum x := zpow_pos (by norm_num) _
  have hhalf : |x| / 10 ^ quantum x < 1 / 2 := by
    rw [div_lt_iff₀ hpos]
    linarith
  have hfloor : ⌊|x| / 10 ^ quantum x⌋ = 0 :=
    Int.floor_eq_zero_iff.mpr ⟨div_nonneg (abs_nonneg x) hpos.le, hhalf.trans (by norm_num)⟩
  rw [normalize, roundHalfEven, hfloor, Int.cast_zero, sub_zero, if_pos hhalf]
  exact if_pos rfl

example : (normalize (-3 / 200)).fixed = "-0.015" := by decide +kernel

/-! ## Writing -/

/-- The exponent that `E` notation shows. -/
def Dec.adjusted (d : Dec) : ℤ := d.exp + (Nat.toDigits 10 d.coeff).length - 1

/-- `f"{n:+d}"`. -/
def signedText (n : ℤ) : List Char := (if n < 0 then '-' else '+') :: Nat.toDigits 10 n.natAbs

/-- The digits of `E` notation: a point after the first, where more follow. -/
def pointed : List Char → List Char
  | [] => []
  | [c] => [c]
  | c :: cs => c :: '.' :: cs

/-- `E` notation without the sign of the number. -/
def Dec.scientific (d : Dec) : List Char := pointed (Nat.toDigits 10 d.coeff) ++ 'E' :: signedText d.adjusted

/-- `str(d)`. -/
def Dec.str (d : Dec) : String :=
  if d.exp ≤ 0 ∧ -6 ≤ d.adjusted then d.fixed
  else String.ofList (if d.neg then '-' :: d.scientific else d.scientific)

example : (Dec.mk true 1050 1).str = "-1.050E+4" := by decide +kernel

end Lib.Py
