/-
# `Lib.Runs` — runs of a step function and what they preserve

A system is a step function `σ → α → Option σ`: what an action makes of a state,
or `none` where the action is not enabled.  `Run step ok s acts s'` says that the
actions `acts`, each permitted by `ok` in the state it is taken in, lead from `s`
to `s'`.  An invariant is proved for one step and holds of every run by
`Run.invariant`; `Run.trans` and `Run.split` cut a run at a state in between.

A log has its last event first.  `Each p log` says that every event meets `p` against the events that came
before it; it is built event by event and read off at any of them.
-/
import Mathlib.Data.List.Basic

namespace Lib.Runs

variable {σ α : Type}

/-- The actions lead from one state to another, each permitted where it is taken. -/
inductive Run (step : σ → α → Option σ) (ok : σ → α → Prop) : σ → List α → σ → Prop
  | nil (s : σ) : Run step ok s [] s
  | cons {s s' t : σ} {a : α} {acts : List α} :
      ok s a → step s a = some s' → Run step ok s' acts t → Run step ok s (a :: acts) t

/-- Every action is permitted. -/
abbrev Free : σ → α → Prop := fun _ _ => True

variable {step : σ → α → Option σ} {ok : σ → α → Prop}

theorem Run.single {s s' : σ} {a : α} (hok : ok s a) (h : step s a = some s') :
    Run step ok s [a] s' :=
  .cons hok h (.nil s')

theorem Run.trans {s t u : σ} {acts acts' : List α} (h : Run step ok s acts t)
    (h' : Run step ok t acts' u) : Run step ok s (acts ++ acts') u := by
  induction h with
  | nil s => exact h'
  | cons hok hstep _ ih => exact .cons hok hstep (ih h')

theorem Run.snoc {s t u : σ} {acts : List α} {a : α} (h : Run step ok s acts t) (hok : ok t a)
    (ha : step t a = some u) : Run step ok s (acts ++ [a]) u :=
  h.trans (.single hok ha)

/-- **Invariants.**  What every permitted step preserves, every run preserves. -/
theorem Run.invariant {P : σ → Prop}
    (hstep : ∀ {s a s'}, ok s a → step s a = some s' → P s → P s')
    {s t : σ} {acts : List α} (h : Run step ok s acts t) (hs : P s) : P t := by
  induction h with
  | nil s => exact hs
  | cons hok h _ ih => exact ih (hstep hok h hs)

/-- A reflexive and transitive relation that holds across a step holds across a run. -/
theorem Run.relation {R : σ → σ → Prop} (hrefl : ∀ s, R s s)
    (htrans : ∀ {s t u}, R s t → R t u → R s u)
    (hstep : ∀ {s a s'}, ok s a → step s a = some s' → R s s')
    {s t : σ} {acts : List α} (h : Run step ok s acts t) : R s t := by
  induction h with
  | nil s => exact hrefl s
  | cons hok h _ ih => exact htrans (hstep hok h) ih

theorem Run.weaken {ok' : σ → α → Prop} (himp : ∀ s a, ok s a → ok' s a)
    {s t : σ} {acts : List α} (h : Run step ok s acts t) : Run step ok' s acts t := by
  induction h with
  | nil s => exact .nil s
  | cons hok hstep _ ih => exact .cons (himp _ _ hok) hstep ih

/-- A permission that only looks at the action can be read off the list. -/
theorem run_weaken_mem {ok' : σ → α → Prop} {s t : σ} {acts : List α} (h : Run step ok s acts t)
    (himp : ∀ a ∈ acts, ∀ {s}, ok' s a) : Run step ok' s acts t := by
  induction h with
  | nil s => exact .nil s
  | cons _ hstep _ ih =>
    exact .cons (himp _ List.mem_cons_self) hstep
      (ih fun a ha => himp a (List.mem_cons_of_mem _ ha))

/-- The actions one after the other, as a function. -/
def runAll (step : σ → α → Option σ) (s : σ) (acts : List α) : Option σ := acts.foldlM step s

/-- A run can be evaluated when its actions are permitted in any state. -/
theorem run_of_runAll {s t : σ} {acts : List α} (hok : ∀ a ∈ acts, ∀ s, ok s a)
    (h : runAll step s acts = some t) : Run step ok s acts t := by
  induction acts generalizing s with
  | nil =>
    obtain rfl := Option.some.inj h
    exact .nil _
  | cons a acts ih =>
    rw [runAll, List.foldlM_cons] at h
    obtain ⟨s', hs', h⟩ := Option.bind_eq_some_iff.mp h
    exact .cons (hok a List.mem_cons_self s) hs'
      (ih (fun a ha => hok a (List.mem_cons_of_mem _ ha)) h)

theorem free_of_runAll {s t : σ} {acts : List α} (h : runAll step s acts = some t) :
    Run step Free s acts t :=
  run_of_runAll (fun _ _ _ => trivial) h

/-- A run whose permissions can be computed is evaluated along with them. -/
theorem run_of_guarded {ok : σ → α → Bool} {s t : σ} {acts : List α}
    (h : runAll (fun s a => if ok s a then step s a else none) s acts = some t) :
    Run step (fun s a => ok s a = true) s acts t := by
  induction acts generalizing s with
  | nil =>
    obtain rfl := Option.some.inj h
    exact .nil _
  | cons a acts ih =>
    rw [runAll, List.foldlM_cons] at h
    obtain ⟨s', hs', h⟩ := Option.bind_eq_some_iff.mp h
    obtain ⟨hok, hs'⟩ := Option.ite_none_right_eq_some.mp hs'
    exact .cons hok hs' (ih h)

end Lib.Runs

namespace Lib

/-! ## Logs whose events owe something to the past -/

variable {ε : Type} {p q : List ε → ε → Prop}

/-- Each event of a log meets what is asked of it. -/
def Each (p : List ε → ε → Prop) : List ε → Prop
  | [] => True
  | e :: past => p past e ∧ Each p past

/-- What follows for the events of this log follows for the log. -/
theorem Each.mono {log : List ε} (h : Each p log) (himp : ∀ past e, p past e → (∀ e' ∈ past, e' ∈ log) → q past e) : Each q log := by
  induction log with
  | nil => trivial
  | cons e past ih =>
    refine ⟨himp past e h.1 fun e' he' => List.mem_cons_of_mem _ he', ih h.2 fun past' e' hp hsub => ?_⟩
    exact himp past' e' hp fun e'' he'' => List.mem_cons_of_mem _ (hsub e'' he'')

/-- Events that owe nothing may be added. -/
theorem Each.append {delta log : List ε} (h : Each p log) (hdelta : ∀ past, ∀ e ∈ delta, p past e) : Each p (delta ++ log) := by
  induction delta with
  | nil => exact h
  | cons e delta ih => exact ⟨hdelta _ e List.mem_cons_self, ih fun past e' he' => hdelta past e' (List.mem_cons_of_mem _ he')⟩

end Lib
