/-
# `Lib.UtcText` — the fields of a point in time, and its text with `Z`

`Utc.ofMicros` finds the fields that a number of microseconds stands for, as `astimezone(timezone.utc)` does.  The text
`isoformat().replace("+00:00", "Z")` ends with `Z`, which is greater than the point in front of decimal places: a text on a whole
second is greater than every other text of that second, and apart from this texts compare as times do (`Utc.zText_lt_iff`).
-/
import LiveTrader.Lib.IsoTime
import LiveTrader.Lib.Python
import Mathlib.Data.Nat.Find

namespace Lib.Py

/-! ## Fields -/

/-- The year of an ordinal. -/
def yearOf (ordinal : ℕ) : ℕ := Nat.findGreatest (fun year => 1 ≤ year ∧ daysBeforeYear year < ordinal) (ordinal / 365 + 1)

/-- The month of a day of the year. -/
def monthOf (year day : ℕ) : ℕ := Nat.findGreatest (fun month => 1 ≤ month ∧ daysBeforeMonth year month < day) 12

/-- The last ordinal, the thirty-first of December 9999. -/
def maxOrdinal : ℕ := 3652059

section fields

variable {ordinal year day : ℕ}

theorem daysBeforeYear_ge (year : ℕ) : (year - 1) * 365 ≤ daysBeforeYear year := by
  have h : (year - 1) / 100 ≤ (year - 1) / 4 := Nat.div_le_div_left (by norm_num) (by norm_num)
  unfold daysBeforeYear
  omega

theorem yearOf_spec (h : 1 ≤ ordinal) : 1 ≤ yearOf ordinal ∧ daysBeforeYear (yearOf ordinal) < ordinal := by
  refine Nat.findGreatest_spec (P := fun year => 1 ≤ year ∧ daysBeforeYear year < ordinal) (m := 1) (by omega) ⟨le_rfl, ?_⟩
  exact h

theorem le_yearOf (hyear : 1 ≤ year) (h : daysBeforeYear year < ordinal) : year ≤ yearOf ordinal := by
  refine Nat.le_findGreatest ?_ ⟨hyear, h⟩
  have hge := daysBeforeYear_ge year
  have hle : year - 1 ≤ ordinal / 365 := by
    rw [Nat.le_div_iff_mul_le (by norm_num)]
    omega
  omega

theorem yearOf_end : ordinal ≤ daysBeforeYear (yearOf ordinal + 1) := by
  by_contra hlt
  have := le_yearOf (Nat.le_add_left 1 _) (not_le.mp hlt)
  omega

theorem yearOf_le (h : 1 ≤ ordinal) (hmax : ordinal ≤ maxOrdinal) : yearOf ordinal ≤ 9999 := by
  by_contra hlt
  have hmono := daysBeforeYear_mono (a := 10000) (by norm_num) (not_le.mp hlt)
  have hspec := (yearOf_spec h).2
  have hlast : daysBeforeYear 10000 = maxOrdinal := by decide
  omega

theorem monthOf_spec (year : ℕ) (h : 1 ≤ day) : 1 ≤ monthOf year day ∧ daysBeforeMonth year (monthOf year day) < day := by
  refine Nat.findGreatest_spec (P := fun month => 1 ≤ month ∧ daysBeforeMonth year month < day) (m := 1) (by norm_num) ⟨le_rfl, ?_⟩
  have hzero : daysBeforeMonth year 1 = 0 := by simp [daysBeforeMonth, daysInMonth]
  omega

theorem monthOf_le : monthOf year day ≤ 12 := Nat.findGreatest_le 12

theorem monthOf_end (year day : ℕ) (hday : day ≤ 365 + if IsLeap year then 1 else 0) : day ≤ daysBeforeMonth year (monthOf year day + 1) := by
  have hle : monthOf year day ≤ 12 := monthOf_le
  rcases hle.lt_or_eq with hlt | heq
  · by_contra hmore
    have hnext : monthOf year day + 1 ≤ monthOf year day :=
      Nat.le_findGreatest (by omega) ⟨Nat.le_add_left 1 _, not_le.mp hmore⟩
    omega
  · rw [heq, daysBeforeMonth_end]
    exact hday

end fields

/-- The microseconds of a `datetime` in UTC, from the day before the first of year 1. -/
def InCalendar (micros : ℕ) : Prop := 86400000000 ≤ micros ∧ micros < (maxOrdinal + 1) * 86400000000

instance (micros : ℕ) : Decidable (InCalendar micros) := inferInstanceAs (Decidable (_ ∧ _))

/-- The date of an ordinal, as year, month and day. -/
def dateOf (ordinal : ℕ) : ℕ × ℕ × ℕ :=
  let year := yearOf ordinal
  let day := ordinal - daysBeforeYear year
  (year, monthOf year day, day - daysBeforeMonth year (monthOf year day))

theorem dateOf_valid {ordinal : ℕ} (h : 1 ≤ ordinal) (hmax : ordinal ≤ maxOrdinal) :
    (1 ≤ (dateOf ordinal).1 ∧ (dateOf ordinal).1 ≤ 9999) ∧ (1 ≤ (dateOf ordinal).2.1 ∧ (dateOf ordinal).2.1 ≤ 12) ∧
      1 ≤ (dateOf ordinal).2.2 ∧ (dateOf ordinal).2.2 ≤ daysInMonth (dateOf ordinal).1 (dateOf ordinal).2.1 := by
  obtain ⟨hyear, hbefore⟩ := yearOf_spec h
  have hend : ordinal ≤ daysBeforeYear (yearOf ordinal + 1) := yearOf_end
  rw [daysBeforeYear_succ hyear] at hend
  have hday : 1 ≤ ordinal - daysBeforeYear (yearOf ordinal) := by omega
  have hmonth := monthOf_spec (yearOf ordinal) hday
  have hlast := monthOf_end (yearOf ordinal) (ordinal - daysBeforeYear (yearOf ordinal)) (by omega)
  rw [daysBeforeMonth] at hlast
  dsimp only [dateOf]
  exact ⟨⟨hyear, yearOf_le h hmax⟩, ⟨hmonth.1, monthOf_le⟩, by omega, by omega⟩

theorem dateOf_ordinal {ordinal : ℕ} (h : 1 ≤ ordinal) :
    daysBeforeYear (dateOf ordinal).1 + daysBeforeMonth (dateOf ordinal).1 (dateOf ordinal).2.1 + (dateOf ordinal).2.2 = ordinal := by
  have hbefore := (yearOf_spec h).2
  have hday : 1 ≤ ordinal - daysBeforeYear (yearOf ordinal) := by omega
  have hmonth := (monthOf_spec (yearOf ordinal) hday).2
  dsimp only [dateOf]
  omega

theorem InCalendar.ordinal {micros : ℕ} (h : InCalendar micros) : 1 ≤ micros / 86400000000 ∧ micros / 86400000000 ≤ maxOrdinal := by
  obtain ⟨hlow, hhigh⟩ := h
  rw [maxOrdinal] at hhigh ⊢
  omega

/-- `datetime.fromtimestamp(…, timezone.utc)`, exactly. -/
def Utc.ofMicros (micros : ℕ) (h : InCalendar micros) : Utc where
  year := (dateOf (micros / 86400000000)).1
  month := (dateOf (micros / 86400000000)).2.1
  day := (dateOf (micros / 86400000000)).2.2
  hour := micros / 3600000000 % 24
  minute := micros / 60000000 % 60
  second := micros / 1000000 % 60
  microsecond := micros % 1000000
  date := dateOf_valid h.ordinal.1 h.ordinal.2
  time := ⟨Nat.mod_lt _ (by norm_num), Nat.mod_lt _ (by norm_num), Nat.mod_lt _ (by norm_num), Nat.mod_lt _ (by norm_num)⟩

/-- **The fields stand for the microseconds.** -/
theorem Utc.micros_ofMicros {micros : ℕ} (h : InCalendar micros) : (Utc.ofMicros micros h).micros = micros := by
  have hordinal := dateOf_ordinal h.ordinal.1
  rw [Utc.micros, Utc.ordinal]
  dsimp only [Utc.ofMicros]
  rw [hordinal]
  omega

/-! ## Texts -/

/-- The end of the text: the decimal places, and `Z` for the zone. -/
def zTail (microsecond : ℕ) : List Char := (if microsecond = 0 then [] else '.' :: zeroPad 6 microsecond) ++ ['Z']

/-- `isoformat().replace("+00:00", "Z")`. -/
def Utc.zText (t : Utc) : String :=
  String.ofList (zeroPad 4 t.year ++ '-' :: (zeroPad 2 t.month ++ '-' :: (zeroPad 2 t.day ++ 'T' :: (zeroPad 2 t.hour ++
    ':' :: (zeroPad 2 t.minute ++ ':' :: (zeroPad 2 t.second ++ zTail t.microsecond))))))

/-- Where a text stands among the texts of its second. -/
def zRank (microsecond : ℕ) : ℕ := if microsecond = 0 then 1000000 else microsecond

theorem zTail_lt_iff {x y : ℕ} (hx : x < 1000000) (hy : y < 1000000) : zTail x < zTail y ↔ zRank x < zRank y := by
  rw [zTail, zTail, zRank, zRank]
  by_cases hx0 : x = 0
  · by_cases hy0 : y = 0
    · rw [hx0, hy0]
      exact iff_of_false (List.lt_irrefl _) (lt_irrefl _)
    · -- the letter is greater than the point
      rw [if_pos hx0, if_neg hy0, if_pos hx0, if_neg hy0]
      refine iff_of_false (fun h => ?_) (by omega)
      rcases List.cons_lt_cons_iff.mp h with h | ⟨h, -⟩
      · exact absurd h (by decide)
      · exact absurd h (by decide)
  · by_cases hy0 : y = 0
    · rw [if_neg hx0, if_pos hy0, if_neg hx0, if_pos hy0]
      exact iff_of_true (List.cons_lt_cons_iff.mpr (.inl (by decide))) hx
    · rw [if_neg hx0, if_neg hy0, if_neg hx0, if_neg hy0, List.cons_append, List.cons_append, List.cons_lt_cons_self,
        zeroPad_append_lt_iff hx hy]
      simp only [List.lt_irrefl, and_false, or_false]

/-- The place of a time in the order of the texts: whole seconds come after the rest of their second. -/
def zPlace (micros : ℕ) : ℕ := micros / 1000000 * 1000001 + zRank (micros % 1000000)

/-- The second of a time. -/
def Utc.whole (t : Utc) : Utc := { t with microsecond := 0, time := ⟨t.time.1, t.time.2.1, t.time.2.2.1, by norm_num⟩ }

theorem Utc.micros_whole (t : Utc) : t.whole.micros = t.micros / 1000000 * 1000000 := by
  have hmicrosecond := t.time.2.2.2
  rw [Utc.micros, Utc.micros]
  dsimp only [Utc.whole, Utc.ordinal]
  omega

theorem Utc.micros_mod (t : Utc) : t.micros % 1000000 = t.microsecond := by
  have hmicrosecond := t.time.2.2.2
  rw [Utc.micros]
  omega

theorem Utc.whole_eq_iff {a b : Utc} : a.whole = b.whole ↔ a.year = b.year ∧ a.month = b.month ∧ a.day = b.day ∧ a.hour = b.hour ∧
    a.minute = b.minute ∧ a.second = b.second := by
  simp only [Utc.whole, Utc.mk.injEq, and_true]

/-- **The texts stand in the order of their places.** -/
theorem Utc.zText_lt_iff {a b : Utc} : a.zText < b.zText ↔ zPlace a.micros < zPlace b.micros := by
  obtain ⟨⟨_, hay⟩, ⟨_, ham⟩, _, had⟩ := a.date
  obtain ⟨⟨_, hby⟩, ⟨_, hbm⟩, _, hbd⟩ := b.date
  obtain ⟨hah, hamin, hasec, hamic⟩ := a.time
  obtain ⟨hbh, hbmin, hbsec, hbmic⟩ := b.time
  have hda := daysInMonth_le a.year a.month
  have hdb := daysInMonth_le b.year b.month
  have hfields : a.zText < b.zText ↔ a.whole.Before b.whole ∨ a.whole = b.whole ∧ zRank a.microsecond < zRank b.microsecond := by
    rw [whole_eq_iff, String.lt_iff, zText, zText, String.toList_ofList, String.toList_ofList,
      zeroPad_append_lt_iff (by omega) (by omega), List.cons_lt_cons_self, zeroPad_append_lt_iff (by omega) (by omega),
      List.cons_lt_cons_self, zeroPad_append_lt_iff (by omega) (by omega), List.cons_lt_cons_self,
      zeroPad_append_lt_iff (by omega) (by omega), List.cons_lt_cons_self, zeroPad_append_lt_iff (by omega) (by omega),
      List.cons_lt_cons_self, zeroPad_append_lt_iff (by omega) (by omega), zTail_lt_iff hamic hbmic]
    dsimp only [Before, whole]
    omega
  have hrank : ∀ x, x < 1000000 → 1 ≤ zRank x ∧ zRank x ≤ 1000000 := fun x hx => by
    rw [zRank]
    split
    · norm_num
    · omega
  have ha := hrank _ hamic
  have hb := hrank _ hbmic
  have heq : a.whole = b.whole ↔ a.whole.micros = b.whole.micros := ⟨congrArg Utc.micros, micros_inj⟩
  rw [hfields, before_iff, heq, micros_whole, micros_whole, zPlace, zPlace, micros_mod, micros_mod]
  generalize zRank a.microsecond = x at *
  generalize zRank b.microsecond = y at *
  omega

example : (Utc.mk 2026 8 5 1 2 3 40 (by decide) (by decide)).zText = "2026-08-05T01:02:03.000040Z" := by decide

/-! ## Reading a text back -/

/-- The number that some digits stand for. -/
def digitsValue (cs : List Char) : ℕ := cs.foldl (fun n c => 10 * n + (c.toNat - 48)) 0

/-- `w` digits from a place on. -/
def digitsAt (cs : List Char) (place width : ℕ) : ℕ := digitsValue ((cs.drop place).take width)

/-- The microseconds of an `isoformat` in UTC. -/
def readIso (text : String) : ℕ :=
  let cs := text.toList
  let year := digitsAt cs 0 4
  let ordinal := daysBeforeYear year + daysBeforeMonth year (digitsAt cs 5 2) + digitsAt cs 8 2
  (((ordinal * 24 + digitsAt cs 11 2) * 60 + digitsAt cs 14 2) * 60 + digitsAt cs 17 2) * 1000000 +
    if cs.length = 25 then 0 else digitsAt cs 20 6

section reading

theorem digitChar_toNat : ∀ d < 10, (Nat.digitChar d).toNat - 48 = d := by decide

theorem foldl_zeroPad {width n : ℕ} (h : n < 10 ^ width) (acc : ℕ) :
    (zeroPad width n).foldl (fun n c => 10 * n + (c.toNat - 48)) acc = acc * 10 ^ width + n := by
  induction width generalizing n acc with
  | zero =>
    obtain rfl : n = 0 := by simpa using h
    simp [zeroPad]
  | succ width ih =>
    have hdigit : n / 10 ^ width < 10 := Nat.div_lt_of_lt_mul (by rwa [← pow_succ])
    have hrest : n % 10 ^ width < 10 ^ width := Nat.mod_lt n (Nat.pow_pos (by norm_num))
    rw [zeroPad, List.foldl_cons, ih hrest, digitChar_toNat _ hdigit, pow_succ]
    have hsplit := Nat.div_add_mod n (10 ^ width)
    calc (10 * acc + n / 10 ^ width) * 10 ^ width + n % 10 ^ width
        = acc * (10 ^ width * 10) + (10 ^ width * (n / 10 ^ width) + n % 10 ^ width) := by ring
      _ = acc * (10 ^ width * 10) + n := by rw [hsplit]

theorem digitsValue_zeroPad {width n : ℕ} (h : n < 10 ^ width) : digitsValue (zeroPad width n) = n := by
  rw [digitsValue, foldl_zeroPad h, zero_mul, zero_add]

theorem readIso_isoformat (t : Utc) : readIso t.isoformat = t.micros := by
  obtain ⟨⟨_, hyear⟩, ⟨_, hmonth⟩, _, hday⟩ := t.date
  obtain ⟨hhour, hminute, hsecond, hmicrosecond⟩ := t.time
  have hdays := daysInMonth_le t.year t.month
  have htail : (if t.isoformat.toList.length = 25 then 0 else digitsAt t.isoformat.toList 20 6) = t.microsecond := by
    rw [Utc.isoformat, String.toList_ofList, isoTail]
    by_cases hzero : t.microsecond = 0
    · rw [if_pos hzero, hzero]
      rfl
    · rw [if_neg hzero]
      have hplaces : t.microsecond < 10 ^ 6 := hmicrosecond
      exact digitsValue_zeroPad hplaces
  have hfields : ∀ place width value, value < 10 ^ width → (t.isoformat.toList.drop place).take width = zeroPad width value →
      digitsAt t.isoformat.toList place width = value := fun place width value hvalue heq => by
    rw [digitsAt, heq, digitsValue_zeroPad hvalue]
  rw [readIso, Utc.micros, Utc.ordinal, htail, hfields 0 4 t.year (by omega) (by rw [Utc.isoformat, String.toList_ofList]; rfl),
    hfields 5 2 t.month (by omega) (by rw [Utc.isoformat, String.toList_ofList]; rfl),
    hfields 8 2 t.day (by omega) (by rw [Utc.isoformat, String.toList_ofList]; rfl),
    hfields 11 2 t.hour (by omega) (by rw [Utc.isoformat, String.toList_ofList]; rfl),
    hfields 14 2 t.minute (by omega) (by rw [Utc.isoformat, String.toList_ofList]; rfl),
    hfields 17 2 t.second (by omega) (by rw [Utc.isoformat, String.toList_ofList]; rfl)]

/-- What `replaceZ` does to a character. -/
def replaceChar (c : Char) : List Char := if c = 'Z' then "+00:00".toList else [c]

theorem digitChar_plain : ∀ d < 10, replaceChar (Nat.digitChar d) = [Nat.digitChar d] ∧ isSpace (Nat.digitChar d) = false := by decide

theorem flatMap_zeroPad {width n : ℕ} (h : n < 10 ^ width) : (zeroPad width n).flatMap replaceChar = zeroPad width n := by
  induction width generalizing n with
  | zero => rfl
  | succ width ih =>
    have hdigit : n / 10 ^ width < 10 := Nat.div_lt_of_lt_mul (by rwa [← pow_succ])
    rw [zeroPad, List.flatMap_cons, (digitChar_plain _ hdigit).1, ih (Nat.mod_lt n (Nat.pow_pos (by norm_num)))]
    rfl

theorem flatMap_zTail {n : ℕ} (h : n < 1000000) : (zTail n).flatMap replaceChar = isoTail n := by
  rw [zTail, isoTail]
  by_cases hzero : n = 0
  · rw [if_pos hzero]
    rfl
  · rw [if_neg hzero, List.flatMap_append, List.flatMap_cons, flatMap_zeroPad h]
    rfl

/-- The zone is spelled out again. -/
theorem replaceZ_zText (t : Utc) : replaceZ t.zText = t.isoformat := by
  obtain ⟨⟨_, hyear⟩, ⟨_, hmonth⟩, _, hday⟩ := t.date
  obtain ⟨hhour, hminute, hsecond, hmicrosecond⟩ := t.time
  have hdays := daysInMonth_le t.year t.month
  have hcons : ∀ c cs, c ≠ 'Z' → (c :: cs : List Char).flatMap replaceChar = c :: cs.flatMap replaceChar := fun c cs hc => by
    rw [List.flatMap_cons, replaceChar, if_neg hc]
    rfl
  show String.ofList (t.zText.toList.flatMap replaceChar) = _
  rw [Utc.zText, Utc.isoformat, String.toList_ofList, List.flatMap_append, flatMap_zeroPad (by omega), hcons _ _ (by decide),
    List.flatMap_append, flatMap_zeroPad (by omega), hcons _ _ (by decide), List.flatMap_append, flatMap_zeroPad (by omega),
    hcons _ _ (by decide), List.flatMap_append, flatMap_zeroPad (by omega), hcons _ _ (by decide), List.flatMap_append,
    flatMap_zeroPad (by omega), hcons _ _ (by decide), List.flatMap_append, flatMap_zeroPad (by omega), flatMap_zTail hmicrosecond]

/-- The text is not empty and begins and ends with no blank. -/
theorem zText_plain (t : Utc) : t.zText ≠ "" ∧ strip t.zText = t.zText := by
  have hyear : t.year / 10 ^ 3 < 10 := by have := t.date.1.2; omega
  have hlast : t.zText.toList.getLast? = some 'Z' := by
    rw [Utc.zText, String.toList_ofList, zTail]
    simp only [← List.cons_append, ← List.append_assoc, List.getLast?_concat]
  have hhead : t.zText.toList.head? = some (Nat.digitChar (t.year / 10 ^ 3)) := by
    rw [Utc.zText, String.toList_ofList]
    rfl
  constructor
  · intro hempty
    rw [hempty] at hlast
    cases hlast
  · rw [strip, trim_of_trimmed, String.ofList_toList]
    constructor
    · intro c hc
      obtain rfl := Option.some.inj (hhead.symm.trans hc)
      exact (digitChar_plain _ hyear).2
    · intro c hc
      obtain rfl := Option.some.inj (hlast.symm.trans hc)
      rfl

end reading

end Lib.Py
