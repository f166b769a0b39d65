/-
# `Lib.Proc` — programs on a state that may raise

A program that raises keeps what it has done to the state.  `wp` is the weakest precondition of
both ways out: `Q` is owed where the program returns and `R` where it raises.  There is one rule
for each statement; a loop is left to an invariant.

`Keeps r m` says that the state after `m` stands in `r` to the state before it, however `m` ends.
For a reflexive and transitive `r` it goes through every statement, and a program is taken apart
without its values.
-/
import Mathlib.Data.List.Basic

namespace Lib

/-- A program on a state `σ` that returns an `α` or raises a `ρ`. -/
def Proc (σ ρ α : Type) : Type := σ → Except ρ α × σ

namespace Proc

variable {σ ρ α β κ : Type}

/-! ## Statements -/

/-- What follows, if nothing is raised. -/
def andThen (m : Proc σ ρ α) (f : α → Proc σ ρ β) : Proc σ ρ β := fun s =>
  match m s with
  | (.ok a, s') => f a s'
  | (.error e, s') => (.error e, s')

instance : Monad (Proc σ ρ) where
  pure a := fun s => (.ok a, s)
  bind := andThen

/-- A value, or an exception. -/
def of (answer : Except ρ α) : Proc σ ρ α := fun s => (answer, s)

def raise (e : ρ) : Proc σ ρ α := of (.error e)

/-- `if not condition: raise error`. -/
def check (c : Prop) [Decidable c] (e : ρ) : Proc σ ρ Unit := of (if c then .ok () else .error e)

/-- A value that is read off the state. -/
def read (f : σ → α) : Proc σ ρ α := fun s => (.ok (f s), s)

def modify (f : σ → σ) : Proc σ ρ Unit := fun s => (.ok (), f s)

/-- `try: …` with `except …: pass`, for the exceptions that are caught. -/
def attempt (caught : ρ → Bool) (m : Proc σ ρ Unit) : Proc σ ρ Unit := fun s =>
  match m s with
  | (.ok _, s') => (.ok (), s')
  | (.error e, s') => (if caught e then .ok () else .error e, s')

/-- `try: …` with `except …: handler`, for the exceptions that are caught. -/
def rescue (caught : ρ → Bool) (m : Proc σ ρ Unit) (handler : ρ → Proc σ ρ Unit) : Proc σ ρ Unit := fun s =>
  match m s with
  | (.ok _, s') => (.ok (), s')
  | (.error e, s') => if caught e then handler e s' else (.error e, s')

/-- `try: …` with `except … as exc`: what is caught becomes a value. -/
def outcome (caught : ρ → Option κ) (m : Proc σ ρ α) : Proc σ ρ (Except κ α) := fun s =>
  match m s with
  | (.ok a, s') => (.ok (.ok a), s')
  | (.error e, s') =>
    match caught e with
    | some k => (.ok (.error k), s')
    | none => (.error e, s')

/-- A loop over a list that collects what its body gives. -/
def mapEach (body : κ → Proc σ ρ α) : List κ → Proc σ ρ (List α)
  | [] => pure []
  | x :: xs => do
    let a ← body x
    let as ← mapEach body xs
    pure (a :: as)

/-- A loop over a list. -/
def forEach (body : κ → Proc σ ρ Unit) : List κ → Proc σ ρ Unit
  | [] => pure ()
  | x :: xs => do
    body x
    forEach body xs

/-! ## The weakest precondition -/

/-- `Q` holds where the program returns, and `R` where it raises. -/
def wp (m : Proc σ ρ α) (Q : α → σ → Prop) (R : σ → Prop) (s : σ) : Prop :=
  match m s with
  | (.ok a, s') => Q a s'
  | (.error _, s') => R s'

variable {Q : α → σ → Prop} {R : σ → Prop} {s : σ}

theorem wp_bind {m : Proc σ ρ α} {f : α → Proc σ ρ β} {Q : β → σ → Prop} :
    (m >>= f).wp Q R s ↔ m.wp (fun a s' => (f a).wp Q R s') R s := by
  show (andThen m f).wp Q R s ↔ _
  rw [wp, andThen, wp]
  cases hm : m s with
  | mk answer s' => cases answer <;> exact Iff.rfl

@[simp] theorem wp_pure {a : α} : (pure a : Proc σ ρ α).wp Q R s ↔ Q a s := Iff.rfl

@[simp] theorem wp_raise {e : ρ} : (raise e : Proc σ ρ α).wp Q R s ↔ R s := Iff.rfl

@[simp] theorem wp_read {f : σ → α} : (read f : Proc σ ρ α).wp Q R s ↔ Q (f s) s := Iff.rfl

@[simp] theorem wp_modify {f : σ → σ} {Q : Unit → σ → Prop} :
    (modify f : Proc σ ρ Unit).wp Q R s ↔ Q () (f s) := Iff.rfl

/-- A value that may be an exception. -/
theorem wp_of {answer : Except ρ α} (hok : ∀ a, answer = .ok a → Q a s) (herror : R s) : (of answer).wp Q R s := by
  cases answer with
  | ok a => exact hok a rfl
  | error e => exact herror

theorem wp_check {c : Prop} [Decidable c] {e : ρ} {Q : Unit → σ → Prop} (hok : c → Q () s) (herror : R s) :
    (check c e).wp Q R s := by
  by_cases h : c
  · rw [check, if_pos h]
    exact hok h
  · rw [check, if_neg h]
    exact herror

theorem wp_ite {c : Prop} [Decidable c] {m m' : Proc σ ρ α} (hthen : c → m.wp Q R s) (helse : ¬ c → m'.wp Q R s) :
    (if c then m else m').wp Q R s := by
  by_cases h : c
  · rw [if_pos h]
    exact hthen h
  · rw [if_neg h]
    exact helse h

/-- The rule of consequence. -/
theorem wp_mono {m : Proc σ ρ α} {Q' : α → σ → Prop} {R' : σ → Prop} (h : m.wp Q R s) (hQ : ∀ a s', Q a s' → Q' a s')
    (hR : ∀ s', R s' → R' s') : m.wp Q' R' s := by
  rw [wp] at h ⊢
  cases hm : m s with
  | mk answer s' =>
    rw [hm] at h
    cases answer with
    | ok a => exact hQ a s' h
    | error e => exact hR s' h

/-- A program and what follows it. -/
theorem wp_then {m : Proc σ ρ α} {f : α → Proc σ ρ β} {Q' : β → σ → Prop} {R' : σ → Prop} (h : m.wp Q R s)
    (hQ : ∀ a s', Q a s' → (f a).wp Q' R' s') (hR : ∀ s', R s' → R' s') : (m >>= f).wp Q' R' s :=
  wp_bind.mpr (wp_mono h hQ hR)

theorem wp_attempt {caught : ρ → Bool} {m : Proc σ ρ Unit} {I : σ → Prop} (h : m.wp (fun _ => I) I s) :
    (attempt caught m).wp (fun _ => I) I s := by
  rw [wp] at h
  rw [wp, attempt]
  cases hm : m s with
  | mk answer s' =>
    rw [hm] at h
    cases answer with
    | ok a => exact h
    | error e =>
      dsimp only
      split
      · next hsplit =>
        obtain ⟨-, rfl⟩ := Prod.mk.inj hsplit
        exact h
      · next hsplit =>
        obtain ⟨-, rfl⟩ := Prod.mk.inj hsplit
        exact h

theorem wp_outcome {caught : ρ → Option κ} {m : Proc σ ρ α} {Q : Except κ α → σ → Prop} {J : σ → Prop}
    (h : m.wp (fun a s' => Q (.ok a) s') J s) (hcaught : ∀ k s', J s' → Q (.error k) s') (hraise : ∀ s', J s' → R s') :
    (outcome caught m).wp Q R s := by
  rw [wp] at h
  cases hm : m s with
  | mk answer s' =>
    rw [hm] at h
    cases answer with
    | ok a =>
      rw [wp, outcome, hm]
      exact h
    | error e =>
      rw [wp, outcome, hm]
      dsimp only
      cases caught e with
      | some k => exact hcaught k s' h
      | none => exact hraise s' h

/-- The loop rule. -/
theorem wp_forEach {body : κ → Proc σ ρ Unit} {I : σ → Prop} {xs : List κ}
    (hbody : ∀ x ∈ xs, ∀ s, I s → (body x).wp (fun _ => I) R s) (h : I s) : (forEach body xs).wp (fun _ => I) R s := by
  induction xs generalizing s with
  | nil => exact h
  | cons x xs ih =>
    refine wp_then (hbody x List.mem_cons_self s h) (fun _ s' hs' => ?_) (fun _ hr => hr)
    exact ih (fun y hy => hbody y (List.mem_cons_of_mem _ hy)) hs'

/-- The loop rule, with what has been collected so far. -/
theorem wp_mapEach {body : κ → Proc σ ρ α} {I : List κ → List α → σ → Prop} {xs : List κ}
    (hbody : ∀ done x rest as s, xs = done ++ x :: rest → I done as s →
      (body x).wp (fun a s' => I (done ++ [x]) (as ++ [a]) s') R s)
    (h : I [] [] s) : (mapEach body xs).wp (I xs) R s := by
  suffices hgen : ∀ (rest done : List κ) (as : List α) (s : σ), xs = done ++ rest → I done as s →
      (mapEach body rest).wp (fun as' s' => I xs (as ++ as') s') R s from hgen xs [] [] s rfl h
  intro rest
  induction rest with
  | nil =>
    intro done as s hxs hI
    show I xs (as ++ []) s
    rw [List.append_nil, hxs, List.append_nil]
    exact hI
  | cons x rest ih =>
    intro done as s hxs hI
    refine wp_then (hbody done x rest as s hxs hI) (fun a s' hs' => ?_) (fun _ hr => hr)
    refine wp_then (ih (done ++ [x]) (as ++ [a]) s' (by simp [hxs]) hs') (fun as' s'' hs'' => ?_) (fun _ hr => hr)
    rw [List.append_assoc] at hs''
    exact hs''

/-- What holds however a program ends. -/
theorem of_wp {m : Proc σ ρ α} {I : σ → Prop} (h : m.wp (fun _ => I) I s) : I (m s).2 := by
  rw [wp] at h
  cases hm : m s with
  | mk answer s' =>
    rw [hm] at h
    cases answer <;> exact h

end Proc

end Lib

namespace Lib.Proc

/-! ## What a program leaves as it was -/

variable {σ ρ α β κ : Type} {r : σ → σ → Prop}

/-- The state stays in the relation. -/
def Keeps (r : σ → σ → Prop) (m : Proc σ ρ α) : Prop := ∀ s, r s (m s).2

/-- The frame rule: what follows from the relation, whatever is returned or raised. -/
theorem Keeps.wp {m : Proc σ ρ α} (h : Keeps r m) {Q : α → σ → Prop} {R : σ → Prop} {s : σ}
    (hQ : ∀ a s', r s s' → Q a s') (hR : ∀ s', r s s' → R s') : m.wp Q R s := by
  have hkept := h s
  rw [Proc.wp]
  cases hm : m s with
  | mk answer s' =>
    rw [hm] at hkept
    cases answer with
    | ok a => exact hQ a s' hkept
    | error e => exact hR s' hkept

/-- A frame, beside what else is known of the ways out. -/
theorem Keeps.and {m : Proc σ ρ α} (h : Keeps r m) {Q : α → σ → Prop} {R : σ → Prop} {s : σ} (hm : m.wp Q R s) :
    m.wp (fun a s' => Q a s' ∧ r s s') (fun s' => R s' ∧ r s s') s := by
  have hkept := h s
  rw [Proc.wp] at hm ⊢
  cases hresult : m s with
  | mk answer s' =>
    rw [hresult] at hkept hm
    cases answer with
    | ok a => exact ⟨hm, hkept⟩
    | error e => exact ⟨hm, hkept⟩

theorem Keeps.mono {r' : σ → σ → Prop} {m : Proc σ ρ α} (h : Keeps r m) (himp : ∀ s t, r s t → r' s t) : Keeps r' m :=
  fun s => himp _ _ (h s)

theorem keeps_modify {f : σ → σ} (h : ∀ s, r s (f s)) : Keeps r (modify f : Proc σ ρ Unit) := h

/-- What holds of the state holds of both ways out. -/
theorem wp_of_state {m : Proc σ ρ α} {I : σ → Prop} {s : σ} (h : I (m s).2) : m.wp (fun _ => I) I s := by
  rw [Proc.wp]
  cases hm : m s with
  | mk answer s' =>
    rw [hm] at h
    cases answer with
    | ok a => exact h
    | error e => exact h

/-- A program that is not looked at. -/
theorem wp_any {m : Proc σ ρ α} {s : σ} : m.wp (fun _ _ => True) (fun _ => True) s := by
  rw [Proc.wp]
  cases m s with
  | mk answer s' => cases answer <;> trivial

theorem wp_skip {m : Proc σ ρ α} {f : α → Proc σ ρ β} {Q : β → σ → Prop} {s : σ}
    (h : ∀ a s', (f a).wp Q (fun _ => True) s') : (m >>= f).wp Q (fun _ => True) s :=
  wp_then wp_any (fun a s' _ => h a s') fun _ _ => trivial

section statements

variable (hrefl : ∀ s, r s s) (htrans : ∀ s t u, r s t → r t u → r s u)

include hrefl

theorem keeps_pure (a : α) : Keeps r (pure a : Proc σ ρ α) := hrefl

theorem keeps_of (answer : Except ρ α) : Keeps r (of answer) := hrefl

theorem keeps_check (c : Prop) [Decidable c] (e : ρ) : Keeps r (check c e) := hrefl

theorem keeps_read (f : σ → α) : Keeps r (read f : Proc σ ρ α) := hrefl

omit hrefl in
include htrans in
theorem Keeps.bind {m : Proc σ ρ α} {f : α → Proc σ ρ β} (h : Keeps r m) (hf : ∀ a, Keeps r (f a)) : Keeps r (m >>= f) := by
  intro s
  have hfirst := h s
  show r s (andThen m f s).2
  rw [andThen]
  cases hm : m s with
  | mk answer s' =>
    rw [hm] at hfirst
    cases answer with
    | ok a => exact htrans s s' _ hfirst (hf a s')
    | error e => exact hfirst

omit hrefl in
theorem Keeps.ite {c : Prop} [Decidable c] {m m' : Proc σ ρ α} (h : Keeps r m) (h' : Keeps r m') :
    Keeps r (if c then m else m') := by
  by_cases hc : c
  · rw [if_pos hc]
    exact h
  · rw [if_neg hc]
    exact h'

omit hrefl in
theorem Keeps.outcome {caught : ρ → Option κ} {m : Proc σ ρ α} (h : Keeps r m) : Keeps r (outcome caught m) := by
  intro s
  have hkept := h s
  rw [Proc.outcome]
  cases hm : m s with
  | mk answer s' =>
    rw [hm] at hkept
    cases answer with
    | ok a => exact hkept
    | error e =>
      dsimp only
      cases caught e with
      | some k => exact hkept
      | none => exact hkept

omit hrefl in
include htrans in
theorem Keeps.rescue {caught : ρ → Bool} {m : Proc σ ρ Unit} {handler : ρ → Proc σ ρ Unit} (h : Keeps r m)
    (hhandler : ∀ e, Keeps r (handler e)) : Keeps r (rescue caught m handler) := by
  intro s
  have hkept := h s
  rw [Proc.rescue]
  cases hm : m s with
  | mk answer s' =>
    rw [hm] at hkept
    cases answer with
    | ok a => exact hkept
    | error e =>
      dsimp only
      by_cases hcaught : caught e = true
      · rw [if_pos hcaught]
        exact htrans s s' _ hkept (hhandler e s')
      · rw [if_neg hcaught]
        exact hkept

include htrans

theorem Keeps.forEach {body : κ → Proc σ ρ Unit} (h : ∀ x, Keeps r (body x)) (xs : List κ) : Keeps r (forEach body xs) := by
  induction xs with
  | nil => exact keeps_pure hrefl ()
  | cons x xs ih => exact (h x).bind htrans fun _ => ih

theorem Keeps.mapEach {body : κ → Proc σ ρ α} (h : ∀ x, Keeps r (body x)) (xs : List κ) : Keeps r (mapEach body xs) := by
  induction xs with
  | nil => exact keeps_pure hrefl []
  | cons x xs ih => exact (h x).bind htrans fun _ => ih.bind htrans fun _ => keeps_pure hrefl _

end statements

end Lib.Proc
