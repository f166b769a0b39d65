/-
# `Lib.IsoTime` — UTC times and the order of their texts

A UTC `datetime` by its fields, the microseconds it stands for, and its `isoformat`.  The fields have a fixed number of
digits and stand in the order of their weight, so texts compare as times do; a time on a whole second has no decimal
places, and its text goes on with `+`, which is less than the `.` of any other.
-/
import Mathlib.Data.Nat.Digits.Defs
import Mathlib.Order.Monotone.Basic
import Mathlib.Tactic.Ring

namespace Lib.Py

/-! ## The calendar -/

/-- `_is_leap`. -/
def IsLeap (year : ℕ) : Prop := year % 4 = 0 ∧ (year % 100 ≠ 0 ∨ year % 400 = 0)

instance (year : ℕ) : Decidable (IsLeap year) := inferInstanceAs (Decidable (_ ∧ _))

/-- `_days_in_month`. -/
def daysInMonth (year month : ℕ) : ℕ :=
  if month = 2 ∧ IsLeap year then 29 else [0, 31, 28, 31, 30, 31, 30, 31, 31, 30, 31, 30, 31].getD month 0

/-- `_days_before_year`. -/
def daysBeforeYear (year : ℕ) : ℕ := (year - 1) * 365 + (year - 1) / 4 - (year - 1) / 100 + (year - 1) / 400

/-- `_days_before_month`. -/
def daysBeforeMonth (year : ℕ) : ℕ → ℕ
  | 0 => 0
  | month + 1 => daysBeforeMonth year month + daysInMonth year month

/-- A UTC `datetime`. -/
structure Utc where
  year : ℕ
  month : ℕ
  day : ℕ
  hour : ℕ
  minute : ℕ
  second : ℕ
  microsecond : ℕ
  date : (1 ≤ year ∧ year ≤ 9999) ∧ (1 ≤ month ∧ month ≤ 12) ∧ 1 ≤ day ∧ day ≤ daysInMonth year month
  time : hour < 24 ∧ minute < 60 ∧ second < 60 ∧ microsecond < 1000000
  deriving DecidableEq

/-- `toordinal`. -/
def Utc.ordinal (t : Utc) : ℕ := daysBeforeYear t.year + daysBeforeMonth t.year t.month + t.day

/-- Microseconds since the day before the first of year 1. -/
def Utc.micros (t : Utc) : ℕ := (((t.ordinal * 24 + t.hour) * 60 + t.minute) * 60 + t.second) * 1000000 + t.microsecond

/-- The fields are compared from the year down. -/
def Utc.Before (a b : Utc) : Prop :=
  a.year < b.year ∨ a.year = b.year ∧ (a.month < b.month ∨ a.month = b.month ∧ (a.day < b.day ∨ a.day = b.day ∧
    (a.hour < b.hour ∨ a.hour = b.hour ∧ (a.minute < b.minute ∨ a.minute = b.minute ∧
      (a.second < b.second ∨ a.second = b.second ∧ a.microsecond < b.microsecond)))))

section calendar

theorem isLeap_iff {year : ℕ} : IsLeap year ↔ 4 ∣ year ∧ (¬ 100 ∣ year ∨ 400 ∣ year) := by
  rw [IsLeap, Nat.dvd_iff_mod_eq_zero, Nat.dvd_iff_mod_eq_zero, Nat.dvd_iff_mod_eq_zero]

theorem daysBeforeYear_succ {year : ℕ} (h : 1 ≤ year) :
    daysBeforeYear (year + 1) = daysBeforeYear year + 365 + if IsLeap year then 1 else 0 := by
  obtain ⟨n, rfl⟩ := Nat.exists_eq_add_of_le' h
  have hle : n / 100 ≤ n := Nat.div_le_self n 100
  simp only [daysBeforeYear, Nat.add_sub_cancel, Nat.succ_div, isLeap_iff]
  generalize n / 4 = quarters at *
  generalize n / 100 = centuries at *
  generalize n / 400 = eras at *
  by_cases h400 : 400 ∣ n + 1
  · have h100 : 100 ∣ n + 1 := (by norm_num : 100 ∣ 400).trans h400
    have h4 : 4 ∣ n + 1 := (by norm_num : 4 ∣ 400).trans h400
    simp only [h4, h100, h400, if_true, not_true, or_true, and_true]
    omega
  · by_cases h100 : 100 ∣ n + 1
    · have h4 : 4 ∣ n + 1 := (by norm_num : 4 ∣ 100).trans h100
      simp only [h4, h100, h400, if_true, if_false, not_true, or_false, and_false]
      omega
    · by_cases h4 : 4 ∣ n + 1
      · simp only [h4, h100, h400, if_true, if_false, not_false_eq_true, or_false, and_true]
        omega
      · simp only [h4, h100, h400, if_false, false_and]
        omega

theorem daysBeforeYear_mono {a b : ℕ} (ha : 1 ≤ a) (h : a ≤ b) : daysBeforeYear a ≤ daysBeforeYear b := by
  induction b, h using Nat.le_induction with
  | base => exact le_rfl
  | succ b hb ih =>
    rw [daysBeforeYear_succ (ha.trans hb)]
    omega

theorem daysInMonth_le (year month : ℕ) : daysInMonth year month ≤ 31 := by
  have htable : ∀ m < 13, [0, 31, 28, 31, 30, 31, 30, 31, 31, 30, 31, 30, 31].getD m 0 ≤ 31 := by decide
  unfold daysInMonth
  split_ifs
  · norm_num
  · rcases lt_or_ge month 13 with h | h
    · exact htable month h
    · rw [List.getD_eq_getElem?_getD, List.getElem?_eq_none h]
      norm_num

theorem daysBeforeMonth_mono (year : ℕ) : Monotone (daysBeforeMonth year) :=
  monotone_nat_of_le_succ fun _ => Nat.le_add_right _ _

theorem daysBeforeMonth_end (year : ℕ) : daysBeforeMonth year 13 = 365 + if IsLeap year then 1 else 0 := by
  by_cases hleap : IsLeap year
  · simp [daysBeforeMonth, daysInMonth, hleap]
  · simp [daysBeforeMonth, daysInMonth, hleap]

/-- The last day of a month is before the first of the next. -/
theorem Utc.day_le (t : Utc) : daysBeforeMonth t.year t.month + t.day ≤ daysBeforeMonth t.year (t.month + 1) :=
  Nat.add_le_add_left t.date.2.2.2 _

theorem Utc.dayOfYear_le (t : Utc) : daysBeforeYear t.year + (daysBeforeMonth t.year t.month + t.day) ≤ daysBeforeYear (t.year + 1) := by
  have hmonth : daysBeforeMonth t.year (t.month + 1) ≤ daysBeforeMonth t.year 13 :=
    daysBeforeMonth_mono t.year (by have := t.date.2.1.2; omega)
  have hday := t.day_le
  rw [daysBeforeMonth_end] at hmonth
  rw [daysBeforeYear_succ t.date.1.1]
  omega

/-- A later date has a greater ordinal. -/
theorem Utc.ordinal_lt {a b : Utc} (h : a.year < b.year ∨ a.year = b.year ∧ (a.month < b.month ∨ a.month = b.month ∧ a.day < b.day)) :
    a.ordinal < b.ordinal := by
  have hday : 1 ≤ b.day := b.date.2.2.1
  unfold ordinal
  rcases h with hyear | ⟨hyear, hmonth | ⟨hmonth, hlt⟩⟩
  · have hend := a.dayOfYear_le
    have hmono : daysBeforeYear (a.year + 1) ≤ daysBeforeYear b.year := daysBeforeYear_mono (by omega) hyear
    omega
  · have hend := a.day_le
    have hmono : daysBeforeMonth a.year (a.month + 1) ≤ daysBeforeMonth a.year b.month := daysBeforeMonth_mono a.year hmonth
    rw [← hyear]
    omega
  · rw [← hyear, ← hmonth]
    omega

theorem Utc.Before.micros_lt {a b : Utc} (h : a.Before b) : a.micros < b.micros := by
  obtain ⟨ha, ha', ha'', ha'''⟩ := a.time
  unfold Utc.micros
  rcases h with h | ⟨hyear, h | ⟨hmonth, h | ⟨hday, h⟩⟩⟩
  · have := Utc.ordinal_lt (.inl h)
    omega
  · have := Utc.ordinal_lt (.inr ⟨hyear, .inl h⟩)
    omega
  · have := Utc.ordinal_lt (.inr ⟨hyear, .inr ⟨hmonth, h⟩⟩)
    omega
  · have hordinal : a.ordinal = b.ordinal := by rw [ordinal, ordinal, hyear, hmonth, hday]
    omega

theorem Utc.before_trichotomy (a b : Utc) : a.Before b ∨ a = b ∨ b.Before a := by
  by_cases h : a = b
  · exact .inr (.inl h)
  · have hfields : ¬ (a.year = b.year ∧ a.month = b.month ∧ a.day = b.day ∧ a.hour = b.hour ∧ a.minute = b.minute ∧
        a.second = b.second ∧ a.microsecond = b.microsecond) := by
      rintro ⟨h1, h2, h3, h4, h5, h6, h7⟩
      cases a
      cases b
      subst h1 h2 h3 h4 h5 h6 h7
      exact h rfl
    unfold Before
    omega

/-- **The fields order times as their microseconds do.** -/
theorem Utc.before_iff {a b : Utc} : a.Before b ↔ a.micros < b.micros := by
  refine ⟨Before.micros_lt, fun h => ?_⟩
  rcases a.before_trichotomy b with hlt | rfl | hgt
  · exact hlt
  · exact absurd h (lt_irrefl _)
  · exact absurd hgt.micros_lt h.asymm

theorem Utc.micros_inj {a b : Utc} (h : a.micros = b.micros) : a = b := by
  rcases a.before_trichotomy b with hlt | heq | hgt
  · exact absurd h hlt.micros_lt.ne
  · exact heq
  · exact absurd h hgt.micros_lt.ne'

end calendar

/-! ## Texts -/

/-- `f"{n:0{width}d}"` of a number that has room. -/
def zeroPad : ℕ → ℕ → List Char
  | 0, _ => []
  | width + 1, n => Nat.digitChar (n / 10 ^ width) :: zeroPad width (n % 10 ^ width)

/-- The end of an `isoformat`: the decimal places and the zone. -/
def isoTail (microsecond : ℕ) : List Char :=
  (if microsecond = 0 then [] else '.' :: zeroPad 6 microsecond) ++ "+00:00".toList

/-- `isoformat`. -/
def Utc.isoformat (t : Utc) : String :=
  String.ofList (zeroPad 4 t.year ++ '-' :: (zeroPad 2 t.month ++ '-' :: (zeroPad 2 t.day ++ 'T' :: (zeroPad 2 t.hour ++
    ':' :: (zeroPad 2 t.minute ++ ':' :: (zeroPad 2 t.second ++ isoTail t.microsecond))))))

section texts

theorem digitChar_lt_iff : ∀ a < 10, ∀ b < 10, Nat.digitChar a < Nat.digitChar b ↔ a < b := by decide

theorem digitChar_eq_iff : ∀ a < 10, ∀ b < 10, Nat.digitChar a = Nat.digitChar b ↔ a = b := by decide

/-- Numbers of one width compare before what follows them. -/
theorem zeroPad_append_lt_iff {width x y : ℕ} (hx : x < 10 ^ width) (hy : y < 10 ^ width) (r r' : List Char) :
    zeroPad width x ++ r < zeroPad width y ++ r' ↔ x < y ∨ x = y ∧ r < r' := by
  induction width generalizing x y with
  | zero =>
    obtain rfl : x = 0 := by simpa using hx
    obtain rfl : y = 0 := by simpa using hy
    simp [zeroPad]
  | succ width ih =>
    have hpos : 0 < 10 ^ width := Nat.pow_pos (by norm_num)
    have hxdigit : x / 10 ^ width < 10 := Nat.div_lt_of_lt_mul (by rwa [← pow_succ])
    have hydigit : y / 10 ^ width < 10 := Nat.div_lt_of_lt_mul (by rwa [← pow_succ])
    have hxrest := Nat.mod_lt x hpos
    have hyrest := Nat.mod_lt y hpos
    rw [zeroPad, zeroPad, List.cons_append, List.cons_append, List.cons_lt_cons_iff,
      digitChar_lt_iff _ hxdigit _ hydigit, digitChar_eq_iff _ hxdigit _ hydigit, ih hxrest hyrest]
    have hxsplit := Nat.div_add_mod x (10 ^ width)
    have hysplit := Nat.div_add_mod y (10 ^ width)
    generalize x / 10 ^ width = a at *
    generalize y / 10 ^ width = b at *
    generalize x % 10 ^ width = x' at *
    generalize y % 10 ^ width = y' at *
    subst hxsplit hysplit
    rcases lt_trichotomy a b with hlt | rfl | hgt
    · have hstep : 10 ^ width * (a + 1) ≤ 10 ^ width * b := Nat.mul_le_mul_left _ hlt
      rw [Nat.mul_succ] at hstep
      exact iff_of_true (.inl hlt) (.inl (by omega))
    · simp
    · have hstep : 10 ^ width * (b + 1) ≤ 10 ^ width * a := Nat.mul_le_mul_left _ hgt
      rw [Nat.mul_succ] at hstep
      refine iff_of_false ?_ ?_
      · rintro (h | ⟨h, -⟩) <;> omega
      · rintro (h | ⟨h, -⟩) <;> omega

theorem isoTail_lt_iff {x y : ℕ} (hx : x < 1000000) (hy : y < 1000000) : isoTail x < isoTail y ↔ x < y := by
  rw [isoTail, isoTail]
  by_cases hx0 : x = 0
  · by_cases hy0 : y = 0
    · rw [hx0, hy0]
      exact iff_of_false (List.lt_irrefl _) (lt_irrefl _)
    · -- the plus sign is less than the point
      rw [if_pos hx0, if_neg hy0]
      exact iff_of_true (List.cons_lt_cons_iff.mpr (.inl (by decide))) (by omega)
  · by_cases hy0 : y = 0
    · rw [if_neg hx0, if_pos hy0]
      refine iff_of_false (fun h => ?_) (by omega)
      rcases List.cons_lt_cons_iff.mp h with h | ⟨h, -⟩
      · exact absurd h (by decide)
      · exact absurd h (by decide)
    · rw [if_neg hx0, if_neg hy0, List.cons_append, List.cons_append, List.cons_lt_cons_self, zeroPad_append_lt_iff hx hy]
      simp only [List.lt_irrefl, and_false, or_false]

/-- **Texts compare as times do.** -/
theorem Utc.isoformat_lt_iff {a b : Utc} : a.isoformat < b.isoformat ↔ a.micros < b.micros := by
  obtain ⟨⟨_, hay⟩, ⟨_, ham⟩, _, had⟩ := a.date
  obtain ⟨⟨_, hby⟩, ⟨_, hbm⟩, _, hbd⟩ := b.date
  obtain ⟨hah, hamin, hasec, hamic⟩ := a.time
  obtain ⟨hbh, hbmin, hbsec, hbmic⟩ := b.time
  have hda := daysInMonth_le a.year a.month
  have hdb := daysInMonth_le b.year b.month
  rw [← before_iff, String.lt_iff, isoformat, isoformat, String.toList_ofList, String.toList_ofList,
    zeroPad_append_lt_iff (by omega) (by omega), List.cons_lt_cons_self, zeroPad_append_lt_iff (by omega) (by omega),
    List.cons_lt_cons_self, zeroPad_append_lt_iff (by omega) (by omega), List.cons_lt_cons_self,
    zeroPad_append_lt_iff (by omega) (by omega), List.cons_lt_cons_self, zeroPad_append_lt_iff (by omega) (by omega),
    List.cons_lt_cons_self, zeroPad_append_lt_iff (by omega) (by omega), isoTail_lt_iff hamic hbmic]
  exact Iff.rfl

theorem Utc.isoformat_inj {a b : Utc} (h : a.isoformat = b.isoformat) : a = b := by
  refine micros_inj (le_antisymm ?_ ?_)
  · exact not_lt.mp fun hlt => String.lt_irrefl _ (h ▸ isoformat_lt_iff.mpr hlt)
  · exact not_lt.mp fun hlt => String.lt_irrefl _ (h ▸ isoformat_lt_iff.mpr hlt)

end texts

example : (Utc.mk 2026 8 5 1 2 3 0 (by decide) (by decide)).isoformat = "2026-08-05T01:02:03+00:00" := by decide

end Lib.Py
