/-
# `Lib.Py` — the fragment of Python a shallow embedding leans on

Exceptions, guards and the text methods.  A function that may raise is a
function into `Result`; `require` is the `if not …: raise` statement, and the
`*_eq_ok` lemmas read a successful run back as the list of guards it passed.

The text methods follow the built-in ones: `strip` removes the characters for
which `str.isspace` holds, `upper` and `lower` are exact on every character
whose image is ASCII.  A `Text` is a string that survived `strip`, is not empty
and has no control character.

A `float` is a number, an infinity or NaN.  The numbers are exact: what `float(text)` makes of a text is left to the caller, and
arithmetic on numbers that are finite is arithmetic on rationals.

A `datetime` is a number of microseconds with or without a time zone.  With one
it is a point in time, counted from an epoch in UTC; without one it can neither
be subtracted from nor compared with one that has it.

A check adds its text to a list where its condition holds, and what was checked passes when the list is empty.
-/
import Mathlib.Algebra.BigOperators.Group.List.Basic
import Mathlib.Algebra.Order.Field.Rat
import Mathlib.Data.List.Basic
import Mathlib.Data.String.Basic
import Mathlib.Tactic.Abel

namespace Lib.Py

/-! ## Exceptions -/

/-- What a call can raise. -/
inductive Error where
  | value (msg : String)
  | runtime (msg : String)
  | key (name : String)
  | type (msg : String)
  | invalidOperation
  | integrity (constraint : String)
  | os (msg : String)
  deriving DecidableEq, Repr

abbrev Result := Except Error

variable {α β : Type}

/-- `if not condition: raise error`. -/
def require (c : Prop) [Decidable c] (e : Error) : Result Unit :=
  if c then .ok () else .error e

/-- An `Option` lookup whose absence raises. -/
def orRaise (e : Error) : Option α → Result α
  | some a => .ok a
  | none => .error e

@[simp] theorem bind_eq_ok {x : Result α} {f : α → Result β} {b : β} :
    (x >>= f) = .ok b ↔ ∃ a, x = .ok a ∧ f a = .ok b := by
  cases x <;> simp [bind, Except.bind]

@[simp] theorem ok_bind (a : α) (f : α → Result β) :
    ((Except.ok a : Result α) >>= f) = f a := rfl

@[simp] theorem error_bind (e : Error) (f : α → Result β) :
    ((Except.error e : Result α) >>= f) = .error e := rfl

@[simp] theorem pure_eq_ok {a b : α} : (pure a : Result α) = .ok b ↔ a = b := by
  simp [pure, Except.pure]

@[simp] theorem require_eq_ok {c : Prop} [Decidable c] {e : Error} {u : Unit} :
    require c e = .ok u ↔ c := by
  by_cases h : c <;> simp [require, h]

theorem require_true {c : Prop} [Decidable c] {e : Error} (h : c) : require c e = .ok () :=
  if_pos h

@[simp] theorem orRaise_eq_ok {e : Error} {o : Option α} {a : α} :
    orRaise e o = .ok a ↔ o = some a := by
  cases o <;> simp [orRaise]

/-- A call that succeeds with a property can be looked up by evaluation. -/
instance decidableExistsOk {x : Result α} {p : α → Prop} [DecidablePred p] :
    Decidable (∃ a, x = .ok a ∧ p a) :=
  match x with
  | .ok a => decidable_of_iff (p a) (by simp)
  | .error _ => .isFalse (by simp)

/-- A traversal succeeds when every element does, in order. -/
theorem mapM_eq_ok {f : α → Result β} : ∀ {l : List α} {r : List β},
    l.mapM f = .ok r ↔ List.Forall₂ (fun a b => f a = .ok b) l r
  | [], r => by
      rw [List.mapM_nil, pure_eq_ok]
      constructor
      · rintro rfl; exact .nil
      · intro h; cases h; rfl
  | a :: l, r => by
      rw [List.mapM_cons]
      simp only [bind_eq_ok, pure_eq_ok, mapM_eq_ok]
      constructor
      · rintro ⟨b, hb, r', hr, rfl⟩; exact .cons hb hr
      · intro h
        cases h with
        | cons hb hr => exact ⟨_, hb, _, hr, rfl⟩

/-- Where an element of a traversal's result comes from. -/
theorem exists_of_mem_mapM {f : α → Result β} {l : List α} {r : List β} (h : l.mapM f = .ok r)
    {b : β} (hb : b ∈ r) : ∃ a ∈ l, f a = .ok b := by
  replace h := mapM_eq_ok.mp h
  induction h with
  | nil => cases hb
  | @cons a b' _ _ hab _ ih =>
    rcases List.mem_cons.mp hb with rfl | hb
    · exact ⟨a, List.mem_cons_self, hab⟩
    · obtain ⟨a', ha', hab'⟩ := ih hb
      exact ⟨a', List.mem_cons_of_mem _ ha', hab'⟩

/-- A traversal reads each of its elements. -/
theorem exists_mapM_of_mem {f : α → Result β} {l : List α} {r : List β} (h : l.mapM f = .ok r)
    {a : α} (ha : a ∈ l) : ∃ b ∈ r, f a = .ok b := by
  replace h := mapM_eq_ok.mp h
  induction h with
  | nil => cases ha
  | cons hab _ ih =>
    rcases List.mem_cons.mp ha with rfl | ha
    · exact ⟨_, List.mem_cons_self, hab⟩
    · obtain ⟨b, hb, hfound⟩ := ih ha
      exact ⟨b, List.mem_cons_of_mem _ hb, hfound⟩

/-! ## Dictionaries -/

/-- A `dict`, in insertion order. -/
abbrev Dict (κ ν : Type) := List (κ × ν)

section dict

variable {κ ν : Type} [DecidableEq κ]

/-- `d.get(key, default)`. -/
def Dict.get : Dict κ ν → κ → ν → ν
  | [], _, default => default
  | (k, v) :: d, key, default => if k = key then v else Dict.get d key default

/-- `d[key] = value`: in place if the key is there, else at the end. -/
def Dict.set : Dict κ ν → κ → ν → Dict κ ν
  | [], key, value => [(key, value)]
  | (k, v) :: d, key, value => if k = key then (k, value) :: d else (k, v) :: Dict.set d key value

@[simp] theorem Dict.get_set : ∀ (d : Dict κ ν) (key key' : κ) (value default : ν),
    (d.set key value).get key' default = if key = key' then value else d.get key' default
  | [], key, key', value, default => rfl
  | (k, v) :: d, key, key', value, default => by
      by_cases h : k = key
      · subst h
        by_cases hk : k = key' <;> simp [Dict.set, Dict.get, hk]
      · have ih := Dict.get_set d key key' value default
        by_cases hk : k = key'
        · subst hk
          simp [Dict.set, Dict.get, h, Ne.symm h]
        · simp [Dict.set, Dict.get, h, hk, ih]

theorem Dict.lookup_set (d : Dict κ ν) (key key' : κ) (value : ν) :
    (d.set key value).lookup key' = if key' = key then some value else d.lookup key' := by
  induction d with
  | nil =>
    by_cases h : key' = key
    · simp [Dict.set, h]
    · simp [Dict.set, h]
  | cons e d ih =>
    obtain ⟨k, v⟩ := e
    by_cases hk : k = key
    · subst hk
      by_cases h : key' = k
      · simp [Dict.set, h]
      · simp [Dict.set, List.lookup_cons, beq_eq_false_iff_ne.mpr h, h]
    · rw [Dict.set, if_neg hk, List.lookup_cons, List.lookup_cons, ih]
      by_cases h : key' = k
      · subst h
        simp [hk]
      · simp [beq_eq_false_iff_ne.mpr h]

theorem Dict.lookup_of_mem {d : Dict κ ν} (h : (d.map Prod.fst).Nodup) {e : κ × ν} (he : e ∈ d) :
    d.lookup e.1 = some e.2 := by
  induction d with
  | nil => cases he
  | cons f d ih =>
    obtain ⟨k, v⟩ := f
    rw [List.map_cons, List.nodup_cons] at h
    rcases List.mem_cons.mp he with rfl | hmem
    · simp
    · have hne : (e.1 == k) = false := by
        refine beq_eq_false_iff_ne.mpr ?_
        rintro rfl
        exact h.1 (List.mem_map.mpr ⟨e, hmem, rfl⟩)
      rw [List.lookup_cons, hne]
      exact ih h.2 hmem

theorem Dict.mem_of_lookup {d : Dict κ ν} {key : κ} {value : ν} (h : d.lookup key = some value) :
    (key, value) ∈ d := by
  obtain ⟨before, after, rfl, -⟩ := List.lookup_eq_some_iff.mp h
  exact List.mem_append_right _ List.mem_cons_self

/-- A write keeps the keys, or adds its own at the end. -/
theorem Dict.keys_set (d : Dict κ ν) (key : κ) (value : ν) : (d.set key value).map Prod.fst =
    if key ∈ d.map Prod.fst then d.map Prod.fst else d.map Prod.fst ++ [key] := by
  induction d with
  | nil => rfl
  | cons e d ih =>
    obtain ⟨k, v⟩ := e
    rw [Dict.set]
    by_cases hk : k = key
    · simp [hk]
    · rw [if_neg hk, List.map_cons, ih]
      by_cases hmem : key ∈ d.map Prod.fst
      · simp [hmem]
      · simp [hmem, Ne.symm hk]

theorem Dict.nodup_set {d : Dict κ ν} (h : (d.map Prod.fst).Nodup) (key : κ) (value : ν) :
    ((d.set key value).map Prod.fst).Nodup := by
  rw [Dict.keys_set]
  split
  · exact h
  · next hmem =>
    rw [List.nodup_append]
    refine ⟨h, List.nodup_cons.mpr ⟨List.not_mem_nil, .nil⟩, ?_⟩
    rintro a ha b hb rfl
    exact hmem (List.mem_singleton.mp hb ▸ ha)

theorem Dict.forall_get {P : ν → Prop} : ∀ {d : Dict κ ν} {key : κ} {default : ν},
    (∀ e ∈ d, P e.2) → P default → P (d.get key default)
  | [], _, _, _, hd => hd
  | (k, v) :: d, key, default, h, hd => by
      rw [Dict.get]
      split
      · exact h (k, v) List.mem_cons_self
      · exact Dict.forall_get (fun e he => h e (List.mem_cons_of_mem _ he)) hd

theorem Dict.forall_set {P : ν → Prop} : ∀ {d : Dict κ ν} {key : κ} {value : ν},
    (∀ e ∈ d, P e.2) → P value → ∀ e ∈ d.set key value, P e.2
  | [], key, value, _, hv, e, he => by
      obtain rfl := List.mem_singleton.mp he
      exact hv
  | (k, v) :: d, key, value, h, hv, e, he => by
      rw [Dict.set] at he
      split at he
      · rcases List.mem_cons.mp he with rfl | he
        · exact hv
        · exact h e (List.mem_cons_of_mem _ he)
      · rcases List.mem_cons.mp he with rfl | he
        · exact h _ List.mem_cons_self
        · exact Dict.forall_set (fun e he => h e (List.mem_cons_of_mem _ he)) hv e he

/-- Writing one key moves a total by the change of its value. -/
theorem Dict.sum_set {G : Type} [AddCommGroup G] {g : κ → ν → G} (default : ν)
    (h0 : ∀ k, g k default = 0) :
    ∀ (d : Dict κ ν) (key : κ) (value : ν), ((d.set key value).map fun e => g e.1 e.2).sum =
      (d.map fun e => g e.1 e.2).sum - g key (d.get key default) + g key value
  | [], key, value => by simp [Dict.set, Dict.get, h0]
  | (k, v) :: d, key, value => by
      have ih := Dict.sum_set default h0 d key value
      by_cases hk : k = key
      · subst hk
        simp [Dict.set, Dict.get]
        abel
      · simp only [Dict.set, Dict.get, if_neg hk, List.map_cons, List.sum_cons, ih]
        abel

end dict

/-! ## Text methods -/

/-- `str.isspace` on one character. -/
def isSpace (c : Char) : Bool :=
  let n := c.toNat
  (9 ≤ n && n ≤ 13) || (28 ≤ n && n ≤ 32) || n == 0x85 || n == 0xA0 || n == 0x1680 ||
    (0x2000 ≤ n && n ≤ 0x200A) || n == 0x2028 || n == 0x2029 || n == 0x202F ||
    n == 0x205F || n == 0x3000

/-- Drop a run of blanks at both ends of a character list. -/
def trim (cs : List Char) : List Char :=
  ((cs.dropWhile isSpace).reverse.dropWhile isSpace).reverse

def strip (s : String) : String := String.ofList (trim s.toList)

/-- Upper case; long s and dotless i are the non-ASCII letters with an ASCII
upper case. -/
def upper (s : String) : String :=
  String.ofList (s.toList.map fun c =>
    if c.toNat = 0x17F then 'S' else if c.toNat = 0x131 then 'I' else c.toUpper)

/-- Lower case; the Kelvin sign is the non-ASCII letter with an ASCII lower
case. -/
def lower (s : String) : String :=
  String.ofList (s.toList.map fun c => if c.toNat = 0x212A then 'k' else c.toLower)

/-- `a or b` on texts. -/
def orElse (a b : String) : String := if a = "" then b else a

/-! ## Normalised texts -/

/-- No blank at either end. -/
def Trimmed (cs : List Char) : Prop :=
  (∀ c ∈ cs.head?, isSpace c = false) ∧ ∀ c ∈ cs.getLast?, isSpace c = false

/-- A check on the members of a list runs over these members.  The search for an
instance may instead find one that runs over every character there is. -/
def decideMembers {α : Type} (l : List α) (p : α → Prop) [DecidablePred p] :
    Decidable (∀ a ∈ l, p a) := inferInstance

def decideMember {α : Type} (o : Option α) (p : α → Prop) [DecidablePred p] :
    Decidable (∀ a ∈ o, p a) := inferInstance

instance (cs : List Char) : Decidable (Trimmed cs) :=
  @instDecidableAnd _ _ (decideMember _ _) (decideMember _ _)

theorem dropWhile_of_head {cs : List Char} (h : ∀ c ∈ cs.head?, isSpace c = false) :
    cs.dropWhile isSpace = cs := by
  cases cs with
  | nil => rfl
  | cons c cs => simp [h c (by simp)]

theorem trim_of_trimmed {cs : List Char} (h : Trimmed cs) : trim cs = cs := by
  rw [trim, dropWhile_of_head h.1, dropWhile_of_head, List.reverse_reverse]
  intro c hc
  exact h.2 c (by simpa using hc)

theorem head_dropWhile (cs : List Char) : ∀ c ∈ (cs.dropWhile isSpace).head?, isSpace c = false := by
  intro c hc
  have h := List.head?_dropWhile_not isSpace cs
  rwa [Option.mem_def.mp hc] at h

theorem trimmed_trim (cs : List Char) : Trimmed (trim cs) := by
  constructor
  · intro c hc
    -- the head of the trimmed list is the head of `cs.dropWhile isSpace`
    rw [trim, List.head?_reverse] at hc
    have hsuf := List.dropWhile_suffix (p := isSpace) (l := (cs.dropWhile isSpace).reverse)
    have hlast : c ∈ (cs.dropWhile isSpace).reverse.getLast? := by
      obtain ⟨pre, hpre⟩ := hsuf
      rw [← hpre, List.getLast?_append]
      simp [Option.mem_def.mp hc]
    rw [List.getLast?_reverse] at hlast
    exact head_dropWhile cs c hlast
  · intro c hc
    rw [trim, List.getLast?_reverse] at hc
    exact head_dropWhile _ c hc

theorem strip_strip (s : String) : strip (strip s) = strip s := by
  rw [strip, strip, String.toList_ofList, trim_of_trimmed (trimmed_trim _)]

/-! ## Lower case -/

/-- A digit or a letter is no blank. -/
theorem isSpace_of_alphanumeric {c : Char} (h : (48 ≤ c.toNat ∧ c.toNat ≤ 57) ∨ (65 ≤ c.toNat ∧ c.toNat ≤ 122)) :
    isSpace c = false ∧ 32 ≤ c.toNat := by
  refine ⟨?_, by omega⟩
  simp only [isSpace, Bool.or_eq_false_iff, Bool.and_eq_false_iff, decide_eq_false_iff_not, beq_eq_false_iff_ne]
  omega

/-- What `lower` makes of a character. -/
theorem lowerChar_cases (c : Char) : ((if c.toNat = 0x212A then 'k' else c.toLower) = c ∧ c.toNat ≠ 0x212A ∧ c.toLower = c) ∨
    (97 ≤ (if c.toNat = 0x212A then 'k' else c.toLower).toNat ∧ (if c.toNat = 0x212A then 'k' else c.toLower).toNat ≤ 122) := by
  by_cases hkelvin : c.toNat = 0x212A
  · rw [if_pos hkelvin]
    exact .inr (by decide)
  · rw [if_neg hkelvin]
    by_cases hupper : 'A'.val ≤ c.val ∧ c.val ≤ 'Z'.val
    · have hlow : 65 ≤ c.toNat := hupper.1
      have hhigh : c.toNat ≤ 90 := hupper.2
      have hlower : c.toLower.toNat = c.toNat + 32 := by
        rw [show c.toLower = _ from dif_pos hupper]
        show (c.val + ('a'.val - 'A'.val)).toNat = c.val.toNat + 32
        rw [UInt32.toNat_add]
        have hval : c.val.toNat ≤ 90 := hhigh
        have hdiff : ('a'.val - 'A'.val).toNat = 32 := by decide
        omega
      exact .inr (by omega)
    · exact .inl ⟨dif_neg hupper, hkelvin, dif_neg hupper⟩

theorem lower_lower (s : String) : lower (lower s) = lower s := by
  rw [lower, lower, String.toList_ofList, List.map_map]
  refine congrArg String.ofList (List.map_congr_left fun c _ => ?_)
  rcases lowerChar_cases c with ⟨heq, -⟩ | ⟨hlow, hhigh⟩
  · exact congrArg (fun c : Char => if c.toNat = 0x212A then 'k' else c.toLower) heq
  · show (if Char.toNat (if c.toNat = 0x212A then 'k' else c.toLower) = 0x212A then 'k' else _) = _
    rw [if_neg (by omega)]
    refine dif_neg ?_
    rintro ⟨-, hupper⟩
    have hupper : (if c.toNat = 0x212A then 'k' else c.toLower).toNat ≤ 90 := hupper
    omega

theorem isSpace_lowerChar (c : Char) : isSpace (if c.toNat = 0x212A then 'k' else c.toLower) = isSpace c := by
  rcases lowerChar_cases c with ⟨heq, -⟩ | ⟨hlow, hhigh⟩
  · rw [heq]
  · rw [(isSpace_of_alphanumeric (.inr ⟨by omega, hhigh⟩)).1]
    by_cases hkelvin : c.toNat = 0x212A
    · simp [isSpace, hkelvin]
    · rw [if_neg hkelvin] at hlow hhigh
      by_cases hupper : 'A'.val ≤ c.val ∧ c.val ≤ 'Z'.val
      · have hlow' : 65 ≤ c.toNat := hupper.1
        have hhigh' : c.toNat ≤ 90 := hupper.2
        exact (isSpace_of_alphanumeric (.inr ⟨hlow', by omega⟩)).1.symm
      · have hsame : c.toLower = c := dif_neg hupper
        rw [hsame] at hlow hhigh
        exact (isSpace_of_alphanumeric (.inr ⟨by omega, hhigh⟩)).1.symm

/-- Blanks have no case. -/
theorem strip_lower (s : String) : strip (lower s) = lower (strip s) := by
  have hblank : isSpace ∘ (fun c : Char => if c.toNat = 0x212A then 'k' else c.toLower) = isSpace :=
    funext isSpace_lowerChar
  simp only [strip, lower, trim, String.toList_ofList, List.dropWhile_map, ← List.map_reverse, hblank]

/-! ## Texts that are normalised -/

/-- What a required text field holds once it is normalised. -/
def IsText (s : String) : Prop :=
  Trimmed s.toList ∧ s ≠ "" ∧ ∀ c ∈ s.toList, 32 ≤ c.toNat

instance (s : String) : Decidable (IsText s) :=
  @instDecidableAnd _ _ inferInstance (@instDecidableAnd _ _ inferInstance (decideMembers _ _))

/-- A normalised text. -/
abbrev Text := { s : String // IsText s }

theorem IsText.strip_eq {s : String} (h : IsText s) : strip s = s := by
  rw [strip, trim_of_trimmed h.1, String.ofList_toList]

end Lib.Py

namespace Lib.Py

/-! ## Floats as Python reads them -/

/-- A `float`. -/
inductive Number where
  | finite (q : ℚ)
  | infinity (negative : Bool)
  | nan
  deriving DecidableEq

/-- `math.isfinite`. -/
def Number.isFinite : Number → Bool
  | .finite _ => true
  | .infinity _ => false
  | .nan => false

/-- `text.replace(",", "").strip()`. -/
def uncommaed (text : String) : String := strip (String.ofList (text.toList.filter (· ≠ ',')))

/-- `math.isclose(a, b, rel_tol=rel, abs_tol=abs)`. -/
def isClose (a b rel abs : ℚ) : Bool := |a - b| ≤ max (rel * max |a| |b|) abs

theorem isClose_self {a rel abs : ℚ} (habs : 0 ≤ abs) : isClose a a rel abs = true := by
  rw [isClose, sub_self, abs_zero]
  exact decide_eq_true (le_max_of_le_right habs)

/-! ## Points in time as `datetime` has them -/

structure Datetime where
  micros : ℤ
  aware : Bool
  deriving DecidableEq, Repr

namespace Datetime

/-- A number of whole seconds as a `timedelta`. -/
def seconds (n : ℤ) : ℤ := n * 1000000

/-- `a - b`, in microseconds. -/
def sub (a b : Datetime) : Result ℤ := do
  require (a.aware = b.aware) (.type "can't subtract offset-naive and offset-aware datetimes")
  pure (a.micros - b.micros)

theorem sub_eq_ok {a b : Datetime} {d : ℤ} :
    a.sub b = .ok d ↔ a.aware = b.aware ∧ a.micros - b.micros = d := by
  simp only [sub, bind_eq_ok, require_eq_ok, pure_eq_ok, exists_and_left, exists_const]

end Datetime

/-- `value.replace("Z", "+00:00")`. -/
def replaceZ (value : String) : String :=
  String.ofList (value.toList.flatMap fun c => if c = 'Z' then "+00:00".toList else [c])

/-! ## Texts of what blocks -/

/-- A text, if its condition holds. -/
def blocker (condition : Prop) [Decidable condition] (text : String) : List String := if condition then [text] else []

theorem blocker_eq_nil {condition : Prop} [Decidable condition] {text : String} : blocker condition text = [] ↔ ¬condition := by
  rw [blocker]
  split
  · next h => exact iff_of_false (List.cons_ne_nil _ _) (not_not_intro h)
  · next h => exact iff_of_true rfl h

theorem blocker_congr {condition other : Prop} [Decidable condition] [Decidable other] (h : condition ↔ other) (text : String) :
    blocker condition text = blocker other text := by
  rw [blocker, blocker]
  exact if_congr h rfl rfl

/-! ## Texts without repeats -/

section repeats

variable {α : Type*} [BEq α] [LawfulBEq α]

theorem nodup_eraseDups (l : List α) : l.eraseDups.Nodup := by
  induction hlength : l.length using Nat.strong_induction_on generalizing l with
  | _ n ih =>
    cases l with
    | nil => exact List.nodup_nil
    | cons a rest =>
      rw [List.eraseDups_cons]
      have hshorter : (rest.filter fun b => !b == a).length < n := by
        rw [← hlength, List.length_cons]
        exact Nat.lt_succ_of_le (List.length_filter_le _ _)
      refine List.nodup_cons.mpr ⟨?_, ih _ hshorter _ rfl⟩
      rw [List.mem_eraseDups, List.mem_filter]
      rintro ⟨-, hne⟩
      rw [beq_self_eq_true] at hne
      cases hne

theorem eraseDups_of_nodup {l : List α} (h : l.Nodup) : l.eraseDups = l := by
  induction l with
  | nil => rfl
  | cons a rest ih =>
    obtain ⟨hnew, hrest⟩ := List.nodup_cons.mp h
    have hkept : (rest.filter fun b => !b == a) = rest := by
      refine List.filter_eq_self.mpr fun b hb => ?_
      rw [Bool.not_eq_true', beq_eq_false_iff_ne]
      rintro rfl
      exact hnew hb
    rw [List.eraseDups_cons, hkept, ih hrest]

omit [LawfulBEq α] in
theorem eraseDups_eq_nil {l : List α} : l.eraseDups = [] ↔ l = [] := by
  cases l with
  | nil => exact iff_of_true rfl rfl
  | cons a rest =>
    rw [List.eraseDups_cons]
    exact iff_of_false (List.cons_ne_nil _ _) (List.cons_ne_nil _ _)

/-- A second pass finds no repeats. -/
theorem eraseDups_eraseDups (l : List α) : l.eraseDups.eraseDups = l.eraseDups := eraseDups_of_nodup (nodup_eraseDups l)

end repeats

end Lib.Py
