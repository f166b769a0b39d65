/-
# `Lib.Calls` — programs that call code they do not own

A piece of such a program is what it has called, in order, and what it returns or raises; what a
call answers is given.  `block` is a `with` statement.  The way out of a block is code of somebody
else as well: it may raise, or drop the exception that is in flight.
-/
import Mathlib.Data.List.Basic

namespace Lib

/-- What a piece of a program calls, and what comes of it. -/
@[ext]
structure Calls (ε ρ α : Type) where
  calls : List ε
  answer : Except ρ α

namespace Calls

variable {ε ρ α β κ : Type}

/-! ## Statements -/

/-- An answer that no call is recorded for. -/
def of (answer : Except ρ α) : Calls ε ρ α := ⟨[], answer⟩

/-- What follows, if nothing is raised. -/
def andThen (x : Calls ε ρ α) (f : α → Calls ε ρ β) : Calls ε ρ β :=
  match x.answer with
  | .ok a => ⟨x.calls ++ (f a).calls, (f a).answer⟩
  | .error e => ⟨x.calls, .error e⟩

instance : Monad (Calls ε ρ) where
  pure a := of (.ok a)
  bind := andThen

/-- A call and its answer. -/
def call (e : ε) (answer : Except ρ α) : Calls ε ρ α := ⟨[e], answer⟩

/-- `raise error`. -/
def raise (e : ρ) : Calls ε ρ α := of (.error e)

/-- `if not condition: raise error`. -/
def check (c : Prop) [Decidable c] (e : ρ) : Calls ε ρ Unit := of (if c then .ok () else .error e)

/-- `try … except`, where an exception is replaced. -/
def mapError (f : ρ → ρ) (x : Calls ε ρ α) : Calls ε ρ α := ⟨x.calls, x.answer.mapError f⟩

/-- `try … except`, with what is done about an exception. -/
def handle (x : Calls ε ρ α) (f : ρ → Calls ε ρ α) : Calls ε ρ α :=
  match x.answer with
  | .ok _ => x
  | .error e => ⟨x.calls ++ (f e).calls, (f e).answer⟩

/-- The way out of a block.  `exit` is told what is in flight, and says whether that is dropped. -/
def leave (exit : Option ρ → Except ρ Bool) : Except ρ α → Except ρ (Option α)
  | .ok a => (exit none).map fun _ => some a
  | .error e =>
    match exit (some e) with
    | .error e' => .error e'
    | .ok true => .ok none
    | .ok false => .error e

/-- `with manager as value: body`; it is `none` where an exception was dropped. -/
def block (enter : Except ρ κ) (exit : Option ρ → Except ρ Bool) (body : κ → Calls ε ρ α) : Calls ε ρ (Option α) :=
  of enter >>= fun value => ⟨(body value).calls, leave exit (body value).answer⟩

/-! ## Running a piece -/

@[simp] theorem ok_bind (a : α) (f : α → Calls ε ρ β) : (of (.ok a) >>= f) = f a := rfl

@[simp] theorem error_bind (e : ρ) (f : α → Calls ε ρ β) : (of (.error e) >>= f) = raise e := rfl

theorem check_bind {c : Prop} [Decidable c] (h : c) (e : ρ) (f : Unit → Calls ε ρ β) : (check c e >>= f) = f () := by
  rw [check, if_pos h, ok_bind]

theorem check_pure {c : Prop} [Decidable c] (e : ρ) (a : α) :
    (check c e >>= fun _ => pure a : Calls ε ρ α) = of (if c then .ok a else .error e) := by
  by_cases h : c
  · rw [check_bind h, if_pos h]
    rfl
  · rw [check, if_neg h, if_neg h]
    rfl

/-- What follows calls nothing. -/
theorem bind_of (x : Calls ε ρ α) (f : α → Except ρ β) : (x >>= fun a => of (f a)) = ⟨x.calls, x.answer >>= f⟩ := by
  obtain ⟨calls, answer⟩ := x
  cases answer with
  | ok a => exact congrArg (Calls.mk · (f a)) (List.append_nil calls)
  | error e => rfl

theorem call_bind (e : ε) (a : α) (f : α → Calls ε ρ β) :
    (call e (.ok a) >>= f) = ⟨e :: (f a).calls, (f a).answer⟩ := rfl

/-- What follows what has come out already. -/
theorem mk_bind (calls : List ε) (a : α) (f : α → Calls ε ρ β) :
    ((⟨calls, .ok a⟩ : Calls ε ρ α) >>= f) = ⟨calls ++ (f a).calls, (f a).answer⟩ := rfl

@[simp] theorem mapError_eq_ok {ρ' : Type} {answer : Except ρ α} {f : ρ → ρ'} {a : α} :
    answer.mapError f = .ok a ↔ answer = .ok a := by
  cases answer <;> simp [Except.mapError]

/-- What two pieces come to, if they return. -/
theorem answer_bind_eq_ok {x : Calls ε ρ α} {f : α → Calls ε ρ β} {b : β} :
    (x >>= f).answer = .ok b ↔ ∃ a, x.answer = .ok a ∧ (f a).answer = .ok b := by
  obtain ⟨calls, answer⟩ := x
  cases answer with
  | ok a =>
    refine ⟨fun h => ⟨a, rfl, h⟩, ?_⟩
    rintro ⟨a', ha', h⟩
    rwa [← Except.ok.inj ha'] at h
  | error e =>
    refine ⟨fun h => ?_, ?_⟩
    · cases h
    · rintro ⟨a', ha', -⟩
      cases ha'

theorem answer_bind_of_ok {x : Calls ε ρ α} {a : α} (h : x.answer = .ok a) (f : α → Calls ε ρ β) :
    (x >>= f).answer = (f a).answer := by
  obtain ⟨calls, answer⟩ := x
  subst h
  rfl

theorem answer_bind_of_error {x : Calls ε ρ α} {e : ρ} (h : x.answer = .error e) (f : α → Calls ε ρ β) :
    (x >>= f).answer = .error e := by
  obtain ⟨calls, answer⟩ := x
  subst h
  rfl

theorem handle_of_ok {x : Calls ε ρ α} {a : α} (h : x.answer = .ok a) (f : ρ → Calls ε ρ α) : x.handle f = x := by
  obtain ⟨calls, answer⟩ := x
  subst h
  rfl

theorem handle_of_error {x : Calls ε ρ α} {e : ρ} (h : x.answer = .error e) (f : ρ → Calls ε ρ α) :
    x.handle f = ⟨x.calls ++ (f e).calls, (f e).answer⟩ := by
  obtain ⟨calls, answer⟩ := x
  subst h
  rfl

/-- A block that is left with a value was not left with an exception. -/
theorem leave_eq_some {exit : Option ρ → Except ρ Bool} {answer : Except ρ α} {a : α}
    (h : leave exit answer = .ok (some a)) : answer = .ok a := by
  cases answer with
  | ok a' =>
    rw [leave] at h
    cases hexit : exit none with
    | ok dropped =>
      rw [hexit] at h
      rw [Option.some.inj (Except.ok.inj h)]
    | error e =>
      rw [hexit] at h
      cases h
  | error e =>
    rw [leave] at h
    split at h <;> cases h

/-! ## Which calls are made -/

theorem not_mem_of {e : ε} {answer : Except ρ α} : e ∉ (of answer).calls := List.not_mem_nil

theorem not_mem_pure {e : ε} {a : α} : e ∉ (pure a : Calls ε ρ α).calls := List.not_mem_nil

theorem mem_call {e e' : ε} {answer : Except ρ α} : e ∈ (call e' answer).calls ↔ e = e' := List.mem_singleton

/-- A call of two pieces is one of the first, or the first has returned. -/
theorem mem_bind {x : Calls ε ρ α} {f : α → Calls ε ρ β} {e : ε} :
    e ∈ (x >>= f).calls ↔ e ∈ x.calls ∨ ∃ a, x.answer = .ok a ∧ e ∈ (f a).calls := by
  obtain ⟨calls, answer⟩ := x
  cases answer with
  | ok a =>
    show e ∈ calls ++ (f a).calls ↔ _
    rw [List.mem_append]
    refine or_congr_right ⟨fun h => ⟨a, rfl, h⟩, ?_⟩
    rintro ⟨b, hb, h⟩
    rwa [Except.ok.inj hb]
  | error e' =>
    refine ⟨Or.inl, fun h => h.resolve_right ?_⟩
    rintro ⟨b, hb, -⟩
    cases hb

/-- A call that is none of the first piece. -/
theorem mem_bind_of_not_mem {x : Calls ε ρ α} {f : α → Calls ε ρ β} {e : ε} (h : e ∉ x.calls) :
    e ∈ (x >>= f).calls ↔ ∃ a, x.answer = .ok a ∧ e ∈ (f a).calls := by
  rw [mem_bind]
  exact or_iff_right h

theorem mem_ok_bind {answer : Except ρ α} {f : α → Calls ε ρ β} {e : ε} :
    e ∈ (of answer >>= f).calls ↔ ∃ a, answer = .ok a ∧ e ∈ (f a).calls := mem_bind_of_not_mem not_mem_of

theorem mem_check_bind {c : Prop} [Decidable c] {e' : ρ} {f : Unit → Calls ε ρ β} {e : ε} :
    e ∈ (check c e' >>= f).calls ↔ c ∧ e ∈ (f ()).calls := by
  by_cases h : c
  · rw [check_bind h, and_iff_right h]
  · rw [check, if_neg h, error_bind]
    exact iff_of_false not_mem_of fun hc => h hc.1

theorem mem_handle {x : Calls ε ρ α} {f : ρ → Calls ε ρ α} {e : ε} :
    e ∈ (x.handle f).calls ↔ e ∈ x.calls ∨ ∃ e', x.answer = .error e' ∧ e ∈ (f e').calls := by
  obtain ⟨calls, answer⟩ := x
  cases answer with
  | ok a =>
    refine ⟨Or.inl, fun h => h.resolve_right ?_⟩
    rintro ⟨e', he', -⟩
    cases he'
  | error e' =>
    show e ∈ calls ++ (f e').calls ↔ _
    rw [List.mem_append]
    refine or_congr_right ⟨fun h => ⟨e', rfl, h⟩, ?_⟩
    rintro ⟨e'', he'', h⟩
    rwa [Except.error.inj he'']

theorem mem_block {enter : Except ρ κ} {exit : Option ρ → Except ρ Bool} {body : κ → Calls ε ρ α} {e : ε} :
    e ∈ (block enter exit body).calls ↔ ∃ value, enter = .ok value ∧ e ∈ (body value).calls := mem_ok_bind

/-! ## Acts behind a guard -/

/-- Every act is behind a guard. -/
def Guarded (guard act : ε → Prop) (calls : List ε) : Prop :=
  ∀ before e after, calls = before ++ e :: after → act e → ∃ g ∈ before, guard g

/-- Nothing is an act. -/
def Quiet (act : ε → Prop) (calls : List ε) : Prop := ∀ e ∈ calls, ¬ act e

variable {guard act : ε → Prop}

theorem Quiet.guarded {calls : List ε} (h : Quiet act calls) : Guarded guard act calls := by
  rintro before e after rfl hact
  exact absurd hact (h e (List.mem_append_right _ List.mem_cons_self))

/-- A single act with a guard before it. -/
theorem guarded_of_split {before after : List ε} {e : ε} (hbefore : Quiet act before)
    (hguard : ∃ g ∈ before, guard g) : Guarded guard act (before ++ e :: after) := by
  intro before' e' after' h hact
  obtain ⟨g, hg, hguard⟩ := hguard
  rcases List.append_eq_append_iff.mp h with ⟨rest, rfl, hrest⟩ | ⟨rest, rfl, hrest⟩
  · exact ⟨g, List.mem_append_left _ hg, hguard⟩
  · cases rest with
    | nil => exact ⟨g, by simpa using hg, hguard⟩
    | cons f rest =>
      -- an act among the calls before is none
      obtain ⟨rfl, -⟩ := List.cons.inj hrest
      exact absurd hact (hbefore _ (List.mem_append_right _ List.mem_cons_self))

end Calls

end Lib
