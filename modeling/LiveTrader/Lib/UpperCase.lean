/-
# `Lib.UpperCase` — upper case and blanks

`upper` twice is `upper`, and blanks have no case: a text that was stripped and raised stays as it is.  `upperCase` also has the letters
that become several characters, one of them an ASCII letter.
-/
import LiveTrader.Lib.Python
import Mathlib.Data.List.Infix

namespace Lib.Py

/-- What `upper` makes of a character. -/
def upperChar (c : Char) : Char := if c.toNat = 0x17F then 'S' else if c.toNat = 0x131 then 'I' else c.toUpper

theorem upper_eq_map (s : String) : upper s = String.ofList (s.toList.map upperChar) := rfl

/-- A character stays as it is, or becomes a capital letter of one that is no blank. -/
theorem upperChar_cases (c : Char) : upperChar c = c ∨
    ((65 ≤ (upperChar c).toNat ∧ (upperChar c).toNat ≤ 90) ∧ isSpace c = false) := by
  rw [upperChar]
  by_cases hlong : c.toNat = 0x17F
  · rw [if_pos hlong]
    exact .inr ⟨by decide, by simp [isSpace, hlong]⟩
  · rw [if_neg hlong]
    by_cases hdotless : c.toNat = 0x131
    · rw [if_pos hdotless]
      exact .inr ⟨by decide, by simp [isSpace, hdotless]⟩
    · rw [if_neg hdotless]
      by_cases hlower : 'a'.val ≤ c.val ∧ c.val ≤ 'z'.val
      · have hlow : 97 ≤ c.toNat := hlower.1
        have hhigh : c.toNat ≤ 122 := hlower.2
        have hupper : c.toUpper.toNat = c.toNat - 32 := by
          rw [show c.toUpper = _ from dif_pos hlower]
          show (c.val + ('A'.val - 'a'.val)).toNat = c.val.toNat - 32
          rw [UInt32.toNat_add]
          have hval : c.val.toNat ≤ 122 := hhigh
          have hval' : 97 ≤ c.val.toNat := hlow
          have hdiff : ('A'.val - 'a'.val).toNat = 4294967264 := by decide
          omega
        exact .inr ⟨by omega, (isSpace_of_alphanumeric (.inr ⟨by omega, hhigh⟩)).1⟩
      · exact .inl (dif_neg hlower)

theorem upperChar_of_capital {c : Char} (h : 65 ≤ c.toNat ∧ c.toNat ≤ 90) : upperChar c = c := by
  rw [upperChar, if_neg (by omega), if_neg (by omega)]
  refine dif_neg ?_
  rintro ⟨hlow, -⟩
  have hlow : 97 ≤ c.toNat := hlow
  omega

theorem upperChar_upperChar (c : Char) : upperChar (upperChar c) = upperChar c := by
  rcases upperChar_cases c with heq | ⟨hcapital, -⟩
  · rw [heq, heq]
  · exact upperChar_of_capital hcapital

theorem isSpace_upperChar (c : Char) : isSpace (upperChar c) = isSpace c := by
  rcases upperChar_cases c with heq | ⟨hcapital, hblank⟩
  · rw [heq]
  · rw [hblank, (isSpace_of_alphanumeric (.inr ⟨hcapital.1, by omega⟩)).1]

theorem upper_upper (s : String) : upper (upper s) = upper s := by
  rw [upper_eq_map, upper_eq_map, String.toList_ofList, List.map_map]
  exact congrArg String.ofList (List.map_congr_left fun c _ => upperChar_upperChar c)

/-- Blanks have no case. -/
theorem strip_upper (s : String) : strip (upper s) = upper (strip s) := by
  have hblank : isSpace ∘ upperChar = isSpace := funext isSpace_upperChar
  simp only [strip, upper_eq_map, trim, String.toList_ofList, List.dropWhile_map, ← List.map_reverse, hblank]

/-- What was stripped and raised stays as it is. -/
theorem upper_strip_upper_strip (s : String) : upper (strip (upper (strip s))) = upper (strip s) := by
  rw [strip_upper, strip_strip, upper_upper]

/-! ## Letters that become several -/

/-- The characters with code points. -/
def charsOf (codes : List ℕ) : List Char := codes.map Char.ofNat

/-- The letters whose upper case has several characters, an ASCII letter among them. -/
def expansions : List (ℕ × List Char) :=
  [(0xDF, charsOf [0x53, 0x53]), (0x149, charsOf [0x2BC, 0x4E]), (0x1F0, charsOf [0x4A, 0x30C]), (0x1E96, charsOf [0x48, 0x331]),
    (0x1E97, charsOf [0x54, 0x308]), (0x1E98, charsOf [0x57, 0x30A]), (0x1E99, charsOf [0x59, 0x30A]), (0x1E9A, charsOf [0x41, 0x2BE]),
    (0xFB00, charsOf [0x46, 0x46]), (0xFB01, charsOf [0x46, 0x49]), (0xFB02, charsOf [0x46, 0x4C]), (0xFB03, charsOf [0x46, 0x46, 0x49]),
    (0xFB04, charsOf [0x46, 0x46, 0x4C]), (0xFB05, charsOf [0x53, 0x54]), (0xFB06, charsOf [0x53, 0x54])]

/-- What `str.upper` makes of a character. -/
def upperChars (c : Char) : List Char := (expansions.lookup c.toNat).getD [upperChar c]

/-- `str.upper`, where it gives ASCII letters. -/
def upperCase (s : String) : String := String.ofList (s.toList.flatMap upperChars)

theorem upperChars_of_lookup {c : Char} (h : expansions.lookup c.toNat = none) : upperChars c = [upperChar c] := by
  rw [upperChars, h]
  rfl

/-- Small code points are no such letters. -/
theorem lookup_expansions {n : ℕ} (h : n < 0xDF) : expansions.lookup n = none := by
  rw [List.lookup_eq_none_iff]
  intro entry hentry
  rw [bne_iff_ne]
  rintro rfl
  have hall : ∀ entry ∈ expansions, 0xDF ≤ entry.1 := by decide
  exact absurd h (not_lt.mpr (hall entry hentry))

theorem upperChars_of_ascii {c : Char} (h : c.toNat < 0xDF) : upperChars c = [upperChar c] :=
  upperChars_of_lookup (lookup_expansions h)

/-- The upper case of a character is in upper case. -/
theorem upperChars_stable (c : Char) : ∀ d ∈ upperChars c, upperChars d = [d] := by
  intro d hd
  rw [upperChars] at hd
  cases hlookup : expansions.lookup c.toNat with
  | some chars =>
    rw [hlookup, Option.getD_some] at hd
    have hall : (expansions.all fun entry => entry.2.all fun d => decide (upperChars d = [d])) = true := by decide +kernel
    have hentry := List.all_eq_true.mp hall _ (Dict.mem_of_lookup hlookup)
    exact of_decide_eq_true (List.all_eq_true.mp hentry d hd)
  | none =>
    rw [hlookup, Option.getD_none, List.mem_singleton] at hd
    subst hd
    rcases upperChar_cases c with heq | ⟨hcapital, -⟩
    · rw [heq, upperChars_of_lookup hlookup, heq]
    · rw [upperChars_of_ascii (by omega), upperChar_of_capital hcapital]

theorem flatMap_upperChars_of_stable {cs : List Char} (h : ∀ c ∈ cs, upperChars c = [c]) : cs.flatMap upperChars = cs := by
  induction cs with
  | nil => rfl
  | cons c cs ih =>
    rw [List.flatMap_cons, h c List.mem_cons_self, ih fun d hd => h d (List.mem_cons_of_mem _ hd)]
    rfl

/-- Upper case once is upper case. -/
theorem upperCase_upperCase (s : String) : upperCase (upperCase s) = upperCase s := by
  rw [upperCase, upperCase, String.toList_ofList]
  refine congrArg String.ofList (flatMap_upperChars_of_stable fun d hd => ?_)
  obtain ⟨c, -, hc⟩ := List.mem_flatMap.mp hd
  exact upperChars_stable c d hc

/-- A blank stays in the text. -/
theorem upperChars_of_blank {c : Char} (h : isSpace c = true) : upperChars c = [c] := by
  have hplain : expansions.lookup c.toNat = none := by
    rw [List.lookup_eq_none_iff]
    intro entry hentry
    rw [bne_iff_ne]
    intro hcode
    have hall : ∀ entry ∈ expansions, isSpace (Char.ofNat entry.1) = false := by decide +kernel
    have hnot := hall entry hentry
    rw [← hcode, Char.ofNat_toNat] at hnot
    rw [hnot] at h
    cases h
  rw [upperChars_of_lookup hplain]
  rcases upperChar_cases c with heq | ⟨-, hblank⟩
  · rw [heq]
  · rw [hblank] at h
    cases h

/-! ## Parts of a text -/

/-- A part without the separator is a part of one side. -/
theorem infix_of_separated {α : Type*} {m : List α} {s : α} (hs : s ∉ m) : ∀ {a b : List α}, m <:+: a ++ s :: b → m <:+: a ∨ m <:+: b := by
  have hlead : ∀ {a b : List α}, m <+: a ++ s :: b → m <+: a := by
    intro a b h
    obtain ⟨rest, hrest⟩ := h
    rcases List.append_eq_append_iff.mp hrest with ⟨tail, rfl, -⟩ | ⟨tail, rfl, htail⟩
    · exact List.prefix_append _ _
    · cases tail with
      | nil =>
        rw [List.append_nil]
      | cons t tail =>
        obtain ⟨rfl, -⟩ := List.cons.inj htail
        exact absurd (List.mem_append_right _ List.mem_cons_self) hs
  intro a
  induction a with
  | nil =>
    intro b h
    rcases List.infix_cons_iff.mp h with h | h
    · exact .inl (hlead (a := []) h).isInfix
    · exact .inr h
  | cons x a ih =>
    intro b h
    rcases List.infix_cons_iff.mp h with h | h
    · exact .inl (hlead (a := x :: a) h).isInfix
    · rcases ih h with h | h
      · exact .inl (List.infix_cons h)
      · exact .inr h

end Lib.Py
