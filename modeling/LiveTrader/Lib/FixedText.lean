/-
# `Lib.FixedText` — texts with a number of places

`f"{x:.12f}".rstrip("0").rstrip(".")` is a text that denotes `x` rounded to twelve places.  And a text that is a decimal has no comma, so
it stays one where commas are taken out.
-/
import LiveTrader.Lib.DecimalFormat
import Mathlib.Data.List.DropRight
import Mathlib.Data.Nat.Factorization.Basic

namespace Lib.Py

open Lib.Decimal

/-! ## Rounded texts -/

/-- A number with `k` places. -/
def rounded (k : ℕ) (x : ℚ) : Dec := ⟨x < 0, (roundHalfEven (|x| * 10 ^ k)).toNat, -k⟩

/-- `text.rstrip("0").rstrip(".")`. -/
def unpadded (text : String) : String := String.ofList ((text.toList.rdropWhile (· = '0')).rdropWhile (· = '.'))

/-- `f"{x:.kf}".rstrip("0").rstrip(".")`. -/
def shortText (k : ℕ) (x : ℚ) : String := unpadded (rounded k x).fixed

/-! ## Reading them back -/

/-- Digits with a point before the last of them, if there are places. -/
def pointedDigits (whole frac : List Char) : List Char := if frac = [] then whole else whole ++ '.' :: frac

theorem mem_pointedDigits {whole frac : List Char} {c : Char} (h : c ∈ pointedDigits whole frac) :
    c ∈ whole ∨ c = '.' ∨ c ∈ frac := by
  rw [pointedDigits] at h
  split at h
  · exact .inl h
  · rcases List.mem_append.mp h with h | h
    · exact .inl h
    · exact .inr (List.mem_cons.mp h)

/-- A digit is neither a blank nor an underscore. -/
theorem plain_of_isDigit {c : Char} (h : c.isDigit = true) : isSpace c = false ∧ c ≠ '_' := by
  rw [Char.isDigit, Bool.and_eq_true, decide_eq_true_eq, decide_eq_true_eq] at h
  have hlow : 48 ≤ c.toNat := h.1
  have hhigh : c.toNat ≤ 57 := h.2
  refine ⟨(isSpace_of_alphanumeric (.inl ⟨hlow, hhigh⟩)).1, ?_⟩
  rintro rfl
  exact absurd hhigh (by decide)

/-- What has neither blanks nor underscores is read as it is. -/
theorem trim_plain {cs : List Char} (h : ∀ c ∈ cs, isSpace c = false ∧ c ≠ '_') : (trim cs).filter (· ≠ '_') = cs := by
  rw [trim_of_trimmed ⟨fun c hc => (h c (List.mem_of_mem_head? hc)).1, fun c hc => (h c (List.mem_of_mem_getLast? hc)).1⟩]
  exact List.filter_eq_self.mpr fun c hc => decide_eq_true (h c hc).2

/-- **Digits with a point are read as the number they are.** -/
theorem decimal?_pointedDigits (neg : Bool) {whole frac : List Char} (hne : whole ≠ []) (hwhole : ∀ c ∈ whole, c.isDigit = true)
    (hfrac : ∀ c ∈ frac, c.isDigit = true) :
    decimal? (String.ofList (if neg then '-' :: pointedDigits whole frac else pointedDigits whole frac)) =
      some (.finite ⟨neg, Nat.ofDigitChars 10 (whole ++ frac) 0, -(frac.length : ℤ)⟩) := by
  have hplain : ∀ c ∈ (if neg then '-' :: pointedDigits whole frac else pointedDigits whole frac), isSpace c = false ∧ c ≠ '_' := by
    have hdigits : ∀ c ∈ pointedDigits whole frac, isSpace c = false ∧ c ≠ '_' := by
      intro c hc
      rcases mem_pointedDigits hc with hc | rfl | hc
      · exact plain_of_isDigit (hwhole c hc)
      · exact ⟨rfl, by decide⟩
      · exact plain_of_isDigit (hfrac c hc)
    intro c hc
    split at hc
    · rcases List.mem_cons.mp hc with rfl | hc
      · exact ⟨rfl, by decide⟩
      · exact hdigits c hc
    · exact hdigits c hc
  have hsign : leadingSign (if neg then '-' :: pointedDigits whole frac else pointedDigits whole frac) =
      (neg, pointedDigits whole frac) := by
    cases neg with
    | true => rfl
    | false =>
      obtain ⟨first, rest, rfl⟩ := List.exists_cons_of_ne_nil hne
      rw [if_neg Bool.false_ne_true, pointedDigits]
      split
      · exact leadingSign_of_isDigit rest (hwhole first List.mem_cons_self)
      · exact leadingSign_of_isDigit _ (hwhole first List.mem_cons_self)
  have hvalue : whole.map (fun c => c.toNat - 48) ≠ [] := by
    rw [ne_eq, List.map_eq_nil_iff]
    exact hne
  rw [decimal?, String.toList_ofList, trim_plain hplain, hsign]
  by_cases hnone : frac = []
  · have hread := leadingDigits_append whole [] hwhole fun c hc => by cases hc
    rw [List.append_nil] at hread
    rw [pointedDigits, if_pos hnone]
    simp only [hread, hvalue, false_and, if_false, exponent?, Option.map_some, List.append_nil, List.length_nil, hnone]
    rw [ofDigits_eq]
    rfl
  · have hread := leadingDigits_append whole ('.' :: frac) hwhole fun c hc => by
      obtain rfl := Option.some.inj hc
      decide +kernel
    have hplaces := leadingDigits_append frac [] hfrac fun c hc => by cases hc
    rw [List.append_nil] at hplaces
    rw [pointedDigits, if_neg hnone]
    simp only [hread, hplaces, hvalue, false_and, if_false, exponent?, Option.map_some]
    rw [← List.map_append, ofDigits_eq, List.length_map, zero_sub]

theorem rdropWhile_append {α : Type*} (p : α → Bool) (as bs : List α) :
    (as ++ bs).rdropWhile p = if bs.rdropWhile p = [] then as.rdropWhile p else as ++ bs.rdropWhile p := by
  simp only [List.rdropWhile, List.reverse_append, List.dropWhile_append, List.isEmpty_iff, List.reverse_eq_nil_iff]
  split
  · rfl
  · rw [List.reverse_append, List.reverse_reverse]

/-- A list whose last digit is none of a character keeps it. -/
theorem rdropWhile_of_digits {cs digits : List Char} (hne : digits ≠ []) (hdigits : ∀ c ∈ digits, c.isDigit = true) :
    (cs ++ digits).rdropWhile (· = '.') = cs ++ digits := by
  rw [List.rdropWhile_eq_self_iff]
  intro hl hpoint
  rw [List.getLast_append_of_ne_nil hl hne] at hpoint
  have hdigit := hdigits _ (List.getLast_mem hne)
  rw [of_decide_eq_true hpoint] at hdigit
  cases hdigit

/-- What is left of digits and a point where the zeros at the end, and then the point, are taken away. -/
theorem rdropWhile_pointed {whole frac : List Char} (hne : whole ≠ []) (hwhole : ∀ c ∈ whole, c.isDigit = true)
    (hfrac : ∀ c ∈ frac, c.isDigit = true) (sign : List Char) :
    ((sign ++ (whole ++ '.' :: frac)).rdropWhile (· = '0')).rdropWhile (· = '.') =
      sign ++ pointedDigits whole (frac.rdropWhile (· = '0')) := by
  have hsplit : sign ++ (whole ++ '.' :: frac) = (sign ++ whole ++ ['.']) ++ frac := by
    simp only [List.append_assoc, List.singleton_append]
  rw [hsplit, rdropWhile_append, pointedDigits]
  split
  · rw [List.rdropWhile_concat_neg _ _ _ (by decide), List.rdropWhile_concat_pos _ _ _ (by decide),
      rdropWhile_of_digits hne hwhole]
  · next hsome =>
    rw [rdropWhile_of_digits hsome fun c hc => hfrac c ((List.rdropWhile_prefix _ _).subset hc)]
    simp only [List.append_assoc, List.singleton_append]

/-- The zeros that are taken away say how much smaller the coefficient gets. -/
theorem ofDigitChars_rdropWhile (whole frac : List Char) : ∃ j : ℕ, frac.length = (frac.rdropWhile (· = '0')).length + j ∧
    Nat.ofDigitChars 10 (whole ++ frac) 0 = Nat.ofDigitChars 10 (whole ++ frac.rdropWhile (· = '0')) 0 * 10 ^ j := by
  have hzeros : frac.rtakeWhile (· = '0') = List.replicate (frac.rtakeWhile (· = '0')).length '0' := by
    refine List.eq_replicate_of_mem fun c hc => ?_
    have hzero := List.mem_rtakeWhile_imp hc
    exact of_decide_eq_true hzero
  have hfrac : frac.rdropWhile (· = '0') ++ frac.rtakeWhile (· = '0') = frac := List.rdropWhile_append_rtakeWhile
  refine ⟨(frac.rtakeWhile (· = '0')).length, ?_, ?_⟩
  · rw [← List.length_append, hfrac]
  · conv_lhs => rw [← hfrac, hzeros]
    rw [← List.append_assoc, Nat.ofDigitChars_append, Nat.ofDigitChars_replicate_zero, mul_comm]

/-- **Zeros and a point that are taken away do not change what is read.** -/
theorem decimal?_unpadded {d : Dec} (hexp : d.exp < 0) :
    ∃ d', decimal? (unpadded d.fixed) = some (.finite d') ∧ d'.value = d.value := by
  obtain ⟨places, hplaces⟩ : ∃ places : ℕ, d.exp = -(places : ℤ) := ⟨(-d.exp).toNat, by omega⟩
  have hpos : 0 < places := by omega
  have htoNat : (-d.exp).toNat = places := by omega
  set whole := Nat.toDigits 10 (d.coeff / 10 ^ places) with hwhole
  set frac := (Nat.toDigits 10 (d.coeff % 10 ^ places)).leftpad places '0' with hfrac
  have hdigits : ∀ c ∈ frac, c.isDigit = true := fun c hc => isDigit_leftpad hc
  have hshort : ∀ c ∈ frac.rdropWhile (· = '0'), c.isDigit = true := fun c hc => hdigits c ((List.rdropWhile_prefix _ _).subset hc)
  have hlength : frac.length = places := by
    rw [hfrac, List.length_leftpad]
    exact max_eq_left ((Nat.length_toDigits_le_iff (by norm_num) hpos).mpr (Nat.mod_lt _ (by positivity)))
  have hplain : d.plain = whole ++ '.' :: frac := by
    rw [Dec.plain, if_neg (not_le.mpr hexp), htoNat]
  have htext : unpadded d.fixed = String.ofList
      (if d.neg then '-' :: pointedDigits whole (frac.rdropWhile (· = '0')) else pointedDigits whole (frac.rdropWhile (· = '0'))) := by
    rw [unpadded, Dec.fixed, String.toList_ofList, hplain]
    cases d.neg with
    | true => exact congrArg String.ofList (rdropWhile_pointed Nat.toDigits_ne_nil (fun c hc => isDigit_toDigits hc) hdigits ['-'])
    | false => exact congrArg String.ofList (rdropWhile_pointed Nat.toDigits_ne_nil (fun c hc => isDigit_toDigits hc) hdigits [])
  refine ⟨⟨d.neg, Nat.ofDigitChars 10 (whole ++ frac.rdropWhile (· = '0')) 0, -((frac.rdropWhile (· = '0')).length : ℤ)⟩, ?_, ?_⟩
  · rw [htext]
    exact decimal?_pointedDigits d.neg Nat.toDigits_ne_nil (fun c hc => isDigit_toDigits hc) hshort
  · obtain ⟨j, hj, hvalue⟩ := ofDigitChars_rdropWhile whole frac
    have hcoeff : Nat.ofDigitChars 10 (whole ++ frac) 0 = d.coeff := ofDigits_places hpos
    rw [hcoeff] at hvalue
    have hexponent : -((frac.rdropWhile (· = '0')).length : ℤ) = d.exp + j := by omega
    rw [Dec.value, Dec.value, hexponent, zpow_add₀ (by norm_num), zpow_natCast]
    conv_rhs => rw [hvalue]
    push_cast
    ring

/-- The text of a number that has `k` places denotes it. -/
theorem decimal?_shortText {k : ℕ} (hk : 0 < k) {x : ℚ} (hx : OnGrid k x) :
    ∃ d, decimal? (shortText k x) = some (.finite d) ∧ d.value = x := by
  have hexp : (rounded k x).exp < 0 := by
    show -(k : ℤ) < 0
    omega
  obtain ⟨d, hd, hvalue⟩ := decimal?_unpadded hexp
  refine ⟨d, hd, hvalue.trans ?_⟩
  obtain ⟨n, hn⟩ := hx
  have hscale : (0 : ℚ) < 10 ^ k := by positivity
  have habs : |x| * 10 ^ k = ((|n| : ℤ) : ℚ) := by
    rw [← abs_of_pos hscale, ← abs_mul, hn, Int.cast_abs]
  have hcoeff : ((rounded k x).coeff : ℚ) = |x| * 10 ^ k := by
    show (((roundHalfEven (|x| * 10 ^ k)).toNat : ℕ) : ℚ) = |x| * 10 ^ k
    rw [habs, roundHalfEven_intCast, ← Int.cast_natCast, Int.toNat_of_nonneg (abs_nonneg n)]
  rw [Dec.value, hcoeff]
  show (if decide (x < 0) = true then (-1 : ℚ) else 1) * (|x| * 10 ^ k) * 10 ^ (-(k : ℤ)) = x
  rw [zpow_neg, zpow_natCast, mul_assoc, mul_inv_cancel_right₀ hscale.ne']
  by_cases hneg : x < 0
  · rw [if_pos (decide_eq_true hneg), abs_of_neg hneg]
    ring
  · rw [if_neg (by simpa using hneg), abs_of_nonneg (not_lt.mp hneg), one_mul]

/-! ## Numbers with a text -/

/-- A number with finitely many places. -/
def IsDecimal (x : ℚ) : Prop := ∃ k, OnGrid k x

theorem IsDecimal.add {x y : ℚ} (hx : IsDecimal x) (hy : IsDecimal y) : IsDecimal (x + y) := by
  obtain ⟨k, hx⟩ := hx
  obtain ⟨l, hy⟩ := hy
  exact ⟨max k l, (hx.mono (le_max_left k l)).add (hy.mono (le_max_right k l))⟩

theorem IsDecimal.mul {x y : ℚ} (hx : IsDecimal x) (hy : IsDecimal y) : IsDecimal (x * y) := by
  obtain ⟨k, n, hn⟩ := hx
  obtain ⟨l, m, hm⟩ := hy
  refine ⟨k + l, n * m, ?_⟩
  rw [Int.cast_mul, ← hn, ← hm]
  ring

theorem isDecimal_intCast (n : ℤ) : IsDecimal n := ⟨0, n, by rw [pow_zero, mul_one]⟩

/-- What a text denotes has finitely many places. -/
theorem isDecimal_dec (d : Dec) : IsDecimal d.value := by
  have hpower : IsDecimal ((10 : ℚ) ^ d.exp) := by
    cases d.exp with
    | ofNat k =>
      have hcast : (10 : ℚ) ^ (Int.ofNat k) = ((10 ^ k : ℤ) : ℚ) := by
        rw [Int.ofNat_eq_natCast, zpow_natCast]
        norm_cast
      rw [hcast]
      exact isDecimal_intCast _
    | negSucc k =>
      refine ⟨k + 1, 1, ?_⟩
      rw [zpow_negSucc, inv_mul_cancel₀ (pow_ne_zero _ (by norm_num)), Int.cast_one]
  have hsigned : IsDecimal ((if d.neg then -1 else 1 : ℚ) * d.coeff) := by
    cases d.neg with
    | true =>
      have hcast : (if true then -1 else 1 : ℚ) * d.coeff = ((-d.coeff : ℤ) : ℚ) := by
        rw [if_pos rfl]
        push_cast
        ring
      rw [hcast]
      exact isDecimal_intCast _
    | false =>
      have hcast : (if false then -1 else 1 : ℚ) * d.coeff = ((d.coeff : ℤ) : ℚ) := by
        rw [if_neg Bool.false_ne_true, one_mul, Int.cast_natCast]
      rw [hcast]
      exact isDecimal_intCast _
  exact hsigned.mul hpower

/-- A divisor of a power divides the power to itself. -/
theorem dvd_pow_self_of_dvd_pow {d n k : ℕ} (hd : d ≠ 0) (hn : n ≠ 0) (h : d ∣ n ^ k) : d ∣ n ^ d := by
  have hle := (Nat.factorization_le_iff_dvd hd (pow_ne_zero k hn)).mpr h
  rw [← Nat.factorization_le_iff_dvd hd (pow_ne_zero d hn)]
  intro p
  have hp := hle p
  rw [Nat.factorization_pow, Finsupp.smul_apply, smul_eq_mul] at hp ⊢
  rcases Nat.eq_zero_or_pos (n.factorization p) with hzero | hpos
  · rw [hzero, mul_zero] at hp ⊢
    exact hp
  · exact (Nat.factorization_lt p hd).le.trans (Nat.le_mul_of_pos_right d hpos)

/-- Its denominator bounds the places of a number. -/
theorem onGrid_den {x : ℚ} (hx : IsDecimal x) : OnGrid x.den x := by
  obtain ⟨k, n, hn⟩ := hx
  have hdvd : x.den ∣ 10 ^ k := by
    have hcast : (x.num : ℚ) * 10 ^ k = n * x.den := by
      have hx : x * x.den = x.num := Rat.mul_den_eq_num x
      rw [← hn, ← hx]
      ring
    have hint : x.num * 10 ^ k = n * x.den := by exact_mod_cast hcast
    have hnat : x.num.natAbs * 10 ^ k = n.natAbs * x.den := by
      have h := congrArg Int.natAbs hint
      rwa [Int.natAbs_mul, Int.natAbs_mul, Int.natAbs_pow] at h
    exact x.reduced.symm.dvd_of_dvd_mul_left ⟨n.natAbs, by rw [hnat, mul_comm]⟩
  obtain ⟨m, hm⟩ := dvd_pow_self_of_dvd_pow x.den_nz (by norm_num) hdvd
  refine ⟨x.num * m, ?_⟩
  have hm' : (10 : ℚ) ^ x.den = x.den * m := by exact_mod_cast hm
  rw [hm', ← mul_assoc, Rat.mul_den_eq_num]
  norm_cast

/-- A text that denotes the number. -/
def exactText (x : ℚ) : String := shortText x.den x

theorem decimal?_exactText {x : ℚ} (hx : IsDecimal x) : ∃ d, decimal? (exactText x) = some (.finite d) ∧ d.value = x :=
  decimal?_shortText x.den_pos (onGrid_den hx)

/-! ## Commas -/

theorem mem_dropWhile_of_not {α : Type*} {p : α → Bool} {a : α} {as : List α} (h : a ∈ as) (ha : p a = false) :
    a ∈ as.dropWhile p := by
  rw [← List.takeWhile_append_dropWhile (p := p) (l := as), List.mem_append] at h
  refine h.resolve_left fun htaken => ?_
  rw [List.mem_takeWhile_imp htaken] at ha
  cases ha

/-- Only blanks are trimmed. -/
theorem mem_trim {cs : List Char} {c : Char} (h : c ∈ cs) (hc : isSpace c = false) : c ∈ trim cs := by
  rw [trim, List.mem_reverse]
  exact mem_dropWhile_of_not (List.mem_reverse.mpr (mem_dropWhile_of_not h hc)) hc

theorem digit?_comma : digit? ',' = none := by decide +kernel

/-- Digits are read up to a comma. -/
theorem comma_mem_leadingDigits {cs : List Char} (h : ',' ∈ cs) : ',' ∈ (leadingDigits cs).2 := by
  induction cs with
  | nil => cases h
  | cons c cs ih =>
    rw [leadingDigits]
    cases hdigit : digit? c with
    | none => exact h
    | some n =>
      rcases List.mem_cons.mp h with rfl | h
      · rw [digit?_comma] at hdigit
        cases hdigit
      · exact ih h

theorem comma_mem_leadingSign {cs : List Char} (h : ',' ∈ cs) : ',' ∈ (leadingSign cs).2 := by
  rw [leadingSign.eq_def]
  split
  · exact List.mem_of_ne_of_mem (by decide) h
  · exact List.mem_of_ne_of_mem (by decide) h
  · exact h

/-- No exponent has a comma. -/
theorem exponent?_comma {cs : List Char} (h : ',' ∈ cs) : exponent? cs = none := by
  cases cs with
  | nil => cases h
  | cons c cs =>
    rw [exponent?]
    split
    · next hletter =>
      have hne : ',' ≠ c := by
        rintro rfl
        exact absurd hletter (by decide)
      have hrest := comma_mem_leadingDigits (comma_mem_leadingSign (List.mem_of_ne_of_mem hne h))
      cases hread : leadingDigits (leadingSign cs).2 with
      | mk ns rest =>
        rw [hread] at hrest
        cases rest with
        | nil => cases hrest
        | cons c' rest =>
          cases ns with
          | nil => simp only [hread]
          | cons n ns => simp only [hread]
    · rfl

/-- A text that is a decimal has no comma. -/
theorem comma_not_mem {text : String} {d : Dec} (h : decimal? text = some (.finite d)) : ',' ∉ text.toList := by
  intro hcomma
  have hsigned : ',' ∈ (leadingSign ((trim text.toList).filter (· ≠ '_'))).2 :=
    comma_mem_leadingSign (List.mem_filter.mpr ⟨mem_trim hcomma rfl, by decide⟩)
  have hrest := comma_mem_leadingDigits hsigned
  rw [decimal?] at h
  dsimp only at h
  split at h
  · next cs hpoint =>
    have hlast : ',' ∈ (leadingDigits cs).2 := by
      rw [hpoint] at hrest
      exact comma_mem_leadingDigits (List.mem_of_ne_of_mem (by decide) hrest)
    rw [exponent?_comma hlast] at h
    split at h
    · split at h
      · cases Option.some.inj h
      · cases h
    · cases h
  · rw [exponent?_comma hrest] at h
    split at h
    · split at h
      · cases Option.some.inj h
      · cases h
    · cases h

/-- **A text that is a decimal is one where commas are taken out.** -/
theorem decimal?_uncommaed {text : String} {d : Dec} (h : decimal? text = some (.finite d)) :
    decimal? (uncommaed text) = some (.finite d) := by
  have hkept : text.toList.filter (· ≠ ',') = text.toList :=
    List.filter_eq_self.mpr fun c hc => decide_eq_true fun hcomma => comma_not_mem h (hcomma ▸ hc)
  have htrim : trim (trim text.toList) = trim text.toList := trim_of_trimmed (trimmed_trim _)
  rw [uncommaed, hkept, strip, String.toList_ofList]
  rw [decimal?] at h ⊢
  rw [String.toList_ofList, htrim]
  exact h

end Lib.Py
