/-
# `Lib.EventChain` — append-only logs, one chain per entity

A table holds the rows of many entities.  The rows of one entity are numbered from one,
and each names the hash of the row before it.  `Linked` says so, `tip` is the row the
next one is appended to, and `Linked.append` is the one fact an append has to give.

An audit reads the whole table in the order of entity and sequence and keeps, for each
entity, the sequence and the hash it saw last: `InStep`.  `inStep_sorted` says that the
audit of a linked table finds every row in its place.

What else consecutive rows have to do with each other (a transition, a time that does
not go back) is a `History`, kept by an append in the same way.
-/
import Mathlib.Data.List.Chain
import Mathlib.Data.List.MinMax
import Mathlib.Data.List.Sort

namespace Lib

variable {ρ ε η : Type}

/-! ## Lists that go up -/

/-- Where a function goes up along a list, its greatest value is at the end. -/
theorem argmax_of_increasing {α : Type} {f : α → ℕ} {l : List α}
    (h : l.Pairwise fun a b => f a < f b) : l.argmax f = l.getLast? := by
  induction l using List.reverseRecOn with
  | nil => rfl
  | append_singleton l a _ =>
    rw [List.argmax_concat, List.getLast?_concat]
    have hlast := (List.pairwise_append.mp h).2.2
    cases hmax : l.argmax f with
    | none => rfl
    | some b =>
      have hlt := hlast b (List.argmax_mem hmax) a (List.mem_singleton_self a)
      simp only [if_pos hlt]

/-! ## Histories -/

/-- The first row starts, and every row follows the row before it. -/
def History (start : ρ → Prop) (next : ρ → ρ → Prop) (rows : List ρ) : Prop :=
  (∀ r ∈ rows.head?, start r) ∧ rows.IsChain next

namespace History

variable {start : ρ → Prop} {next : ρ → ρ → Prop} {rows : List ρ} {row : ρ}

theorem nil : History start next [] := ⟨fun _ h => (nomatch h), .nil⟩

/-- A row that starts an empty history, or follows the last row. -/
theorem concat (h : History start next rows) (hstart : rows.getLast? = none → start row)
    (hnext : ∀ last, rows.getLast? = some last → next last row) : History start next (rows ++ [row]) := by
  constructor
  · intro r hr
    cases rows with
    | nil =>
      obtain rfl := Option.some.inj hr
      exact hstart rfl
    | cons r' rows => exact h.1 r hr
  · refine h.2.append (.singleton row) ?_
    intro last hlast r hr
    obtain rfl := Option.some.inj hr
    exact hnext last hlast

theorem imp {start' : ρ → Prop} {next' : ρ → ρ → Prop} (h : History start next rows)
    (hstart : ∀ r, start r → start' r) (hnext : ∀ r r', next r r' → next' r r') :
    History start' next' rows :=
  ⟨fun r hr => hstart r (h.1 r hr), h.2.imp fun r r' => hnext r r'⟩

/-- A transitive relation between consecutive rows holds between any two. -/
theorem pairwise {R : ρ → ρ → Prop} (h : History start next rows) (hnext : ∀ r r', next r r' → R r r')
    (htrans : ∀ a b c, R a b → R b c → R a c) : rows.Pairwise R := by
  have : Trans R R R := ⟨fun hab hbc => htrans _ _ _ hab hbc⟩
  exact (h.2.imp fun r r' => hnext r r').pairwise

end History

/-! ## Chains -/

/-- How the rows of a table are read. -/
structure Log (ρ ε η : Type) where
  entity : ρ → ε
  sequence : ρ → ℕ
  previous : ρ → η
  hash : ρ → η

namespace Log

variable [DecidableEq ε] (log : Log ρ ε η) (root : η)

/-- The rows of one entity, in the order they were written. -/
def rowsOf (rows : List ρ) (e : ε) : List ρ := rows.filter (log.entity · = e)

/-- The row of an entity with the greatest sequence. -/
def tip (rows : List ρ) (e : ε) : Option ρ := (log.rowsOf rows e).argmax log.sequence

/-- The number of the next row after a tip. -/
def nextSequence (tip : Option ρ) : ℕ := (tip.map log.sequence).getD 0 + 1

/-- The hash the next row after a tip names. -/
def nextPrevious (tip : Option ρ) : η := (tip.map log.hash).getD root

/-- The rows are numbered on from `n`, each naming the hash before it. -/
def LinkedFrom : ℕ → η → List ρ → Prop
  | _, _, [] => True
  | n, p, r :: rows =>
    log.sequence r = n + 1 ∧ log.previous r = p ∧ LinkedFrom (log.sequence r) (log.hash r) rows

/-- Every entity has its own chain. -/
def Linked (rows : List ρ) : Prop := ∀ e, log.LinkedFrom 0 root (log.rowsOf rows e)

variable {log root} {rows : List ρ} {n : ℕ} {p : η}

theorem rowsOf_append (e : ε) (row : ρ) : log.rowsOf (rows ++ [row]) e =
    if log.entity row = e then log.rowsOf rows e ++ [row] else log.rowsOf rows e := by
  rw [rowsOf, List.filter_append, rowsOf]
  split <;> simp [*]

theorem mem_rowsOf {e : ε} {row : ρ} : row ∈ log.rowsOf rows e ↔ row ∈ rows ∧ log.entity row = e := by
  simp [rowsOf]

/-! ## The tip of a chain -/

omit [DecidableEq ε] in
/-- The numbers of a chain go up by one. -/
theorem LinkedFrom.bounds : ∀ {rows : List ρ} {n : ℕ} {p : η}, log.LinkedFrom n p rows →
    ∀ r ∈ rows, n < log.sequence r
  | [], _, _, _, _, hr => by cases hr
  | r :: rows, n, p, h, r', hr' => by
      rcases List.mem_cons.mp hr' with rfl | hr'
      · have := h.1
        omega
      · have := h.1
        have := h.2.2.bounds r' hr'
        omega

omit [DecidableEq ε] in
theorem LinkedFrom.pairwise : ∀ {rows : List ρ} {n : ℕ} {p : η}, log.LinkedFrom n p rows →
    rows.Pairwise fun r r' => log.sequence r < log.sequence r'
  | [], _, _, _ => .nil
  | _ :: _, _, _, h => .cons h.2.2.bounds h.2.2.pairwise

omit [DecidableEq ε] in
/-- The greatest number is the last one. -/
theorem LinkedFrom.argmax (h : log.LinkedFrom n p rows) :
    rows.argmax log.sequence = rows.getLast? := argmax_of_increasing h.pairwise

theorem Linked.tip_eq (h : log.Linked root rows) (e : ε) :
    log.tip rows e = (log.rowsOf rows e).getLast? := (h e).argmax

theorem getLast?_map_cons {α β : Type} (f : α → β) (a : α) : ∀ (l : List α) (d : β),
    ((a :: l).getLast?.map f).getD d = (l.getLast?.map f).getD (f a)
  | [], _ => rfl
  | b :: l, d => by rw [List.getLast?_cons_cons, getLast?_map_cons f b l d, getLast?_map_cons f b l (f a)]

omit [DecidableEq ε] in
theorem LinkedFrom.concat {row : ρ} (h : log.LinkedFrom n p rows)
    (hseq : log.sequence row = (rows.getLast?.map log.sequence).getD n + 1)
    (hprev : log.previous row = (rows.getLast?.map log.hash).getD p) :
    log.LinkedFrom n p (rows ++ [row]) := by
  induction rows generalizing n p with
  | nil => exact ⟨hseq, hprev, trivial⟩
  | cons r rows ih =>
    rw [getLast?_map_cons] at hseq hprev
    exact ⟨h.1, h.2.1, ih h.2.2 hseq hprev⟩

omit [DecidableEq ε] in
/-- A chain as a history. -/
theorem LinkedFrom.history : ∀ {rows : List ρ} {n : ℕ} {p : η}, log.LinkedFrom n p rows →
    History (fun r => log.sequence r = n + 1 ∧ log.previous r = p)
      (fun r r' => log.sequence r' = log.sequence r + 1 ∧ log.previous r' = log.hash r) rows
  | [], _, _, _ => .nil
  | r :: rows, n, p, h => by
      obtain ⟨hhead, hchain⟩ := h.2.2.history
      refine ⟨fun r' hr' => ?_, hchain.cons hhead⟩
      obtain rfl := Option.some.inj hr'
      exact ⟨h.1, h.2.1⟩

/-- **Appending.**  The next row after the tip of its entity keeps every chain. -/
theorem Linked.append {row : ρ} (h : log.Linked root rows)
    (hseq : log.sequence row = log.nextSequence (log.tip rows (log.entity row)))
    (hprev : log.previous row = log.nextPrevious root (log.tip rows (log.entity row))) :
    log.Linked root (rows ++ [row]) := by
  intro e
  rw [rowsOf_append]
  split
  · next he =>
    subst he
    rw [h.tip_eq] at hseq hprev
    exact (h _).concat hseq hprev
  · exact h e

/-- What consecutive rows of an entity have to do with each other is kept likewise. -/
theorem history_append {start : ρ → Prop} {next : ρ → ρ → Prop} {row : ρ}
    (hlink : log.Linked root rows) (h : ∀ e, History start next (log.rowsOf rows e))
    (hstart : log.tip rows (log.entity row) = none → start row)
    (hnext : ∀ last, log.tip rows (log.entity row) = some last → next last row) (e : ε) :
    History start next (log.rowsOf (rows ++ [row]) e) := by
  rw [rowsOf_append]
  split
  · next he =>
    subst he
    rw [hlink.tip_eq] at hstart hnext
    exact (h _).concat hstart hnext
  · exact h e

theorem tip_mem {e : ε} {row : ρ} (h : log.tip rows e = some row) :
    row ∈ rows ∧ log.entity row = e := mem_rowsOf.mp (List.argmax_mem h)

theorem tip_eq_none {e : ε} : log.tip rows e = none ↔ log.rowsOf rows e = [] := List.argmax_eq_none

theorem tip_ne_none {e : ε} {row : ρ} (h : row ∈ rows) (he : log.entity row = e) :
    log.tip rows e ≠ none := by
  intro hnone
  rw [tip_eq_none] at hnone
  exact List.ne_nil_of_mem (mem_rowsOf.mpr ⟨h, he⟩) hnone

/-- The tip after an append. -/
theorem Linked.tip_append {row : ρ} (h : log.Linked root (rows ++ [row])) (e : ε) :
    log.tip (rows ++ [row]) e = if log.entity row = e then some row else log.tip rows e := by
  rw [h.tip_eq, rowsOf_append]
  split
  · rw [List.getLast?_concat]
  · next hne =>
    have he := (h e).argmax
    rw [rowsOf_append, if_neg hne] at he
    exact he.symm

/-- The last row of a kind, after an append. -/
theorem Linked.argmax_filter_append {row : ρ} (h : log.Linked root (rows ++ [row])) (p : ρ → Bool) (e : ε) :
    ((log.rowsOf (rows ++ [row]) e).filter p).argmax log.sequence =
      if log.entity row = e ∧ p row = true then some row
      else ((log.rowsOf rows e).filter p).argmax log.sequence := by
  have hup := (h e).pairwise.filter p
  by_cases he : log.entity row = e
  · rw [rowsOf_append, if_pos he, List.filter_append] at hup ⊢
    cases hp : p row with
    | true =>
      rw [List.filter_cons_of_pos hp, List.filter_nil] at hup ⊢
      rw [argmax_of_increasing hup, List.getLast?_concat, if_pos ⟨he, rfl⟩]
    | false => simp [hp]
  · rw [rowsOf_append, if_neg he, if_neg fun hrow => he hrow.1]

/-! ## The audit -/

variable (log) in
/-- Every row has the number after the one seen last for its entity, and names the hash
seen last. -/
def InStep : (ε → ℕ) → (ε → η) → List ρ → Prop
  | _, _, [] => True
  | seqs, prevs, r :: rows =>
    log.sequence r = seqs (log.entity r) + 1 ∧ log.previous r = prevs (log.entity r) ∧
      InStep (Function.update seqs (log.entity r) (log.sequence r))
        (Function.update prevs (log.entity r) (log.hash r)) rows

theorem inStep_of_linkedFrom : ∀ {rows : List ρ} {seqs : ε → ℕ} {prevs : ε → η},
    (∀ e, log.LinkedFrom (seqs e) (prevs e) (log.rowsOf rows e)) → log.InStep seqs prevs rows
  | [], _, _, _ => trivial
  | r :: rows, seqs, prevs, h => by
      have hr := h (log.entity r)
      rw [rowsOf, List.filter_cons_of_pos (by simp)] at hr
      refine ⟨hr.1, hr.2.1, inStep_of_linkedFrom fun e => ?_⟩
      by_cases he : log.entity r = e
      · subst he
        rw [Function.update_self, Function.update_self]
        exact hr.2.2
      · rw [Function.update_of_ne (Ne.symm he), Function.update_of_ne (Ne.symm he)]
        have hrest := h e
        rwa [rowsOf, List.filter_cons_of_neg (by simpa using he)] at hrest

/-- Rows in the order of entity and sequence. -/
def rowLE [LinearOrder ε] (log : Log ρ ε η) (r r' : ρ) : Prop :=
  log.entity r < log.entity r' ∨ log.entity r = log.entity r' ∧ log.sequence r ≤ log.sequence r'

end Log

namespace Log

variable [LinearOrder ε] (log : Log ρ ε η) {root : η} {rows : List ρ}

instance : DecidableRel log.rowLE := fun r r' => by
  unfold rowLE
  infer_instance

instance : Std.Total log.rowLE := ⟨fun r r' => by
  rcases lt_trichotomy (log.entity r) (log.entity r') with h | h | h
  · exact .inl (.inl h)
  · rcases le_total (log.sequence r) (log.sequence r') with hs | hs
    · exact .inl (.inr ⟨h, hs⟩)
    · exact .inr (.inr ⟨h.symm, hs⟩)
  · exact .inr (.inl h)⟩

instance : IsTrans ρ log.rowLE := ⟨fun a b c hab hbc => by
  rcases hab with h | ⟨h, hs⟩ <;> rcases hbc with h' | ⟨h', hs'⟩
  · exact .inl (h.trans h')
  · exact .inl (h' ▸ h)
  · exact .inl (h ▸ h')
  · exact .inr ⟨h.trans h', hs.trans hs'⟩⟩

/-- `ORDER BY entity, sequence`. -/
def sorted (rows : List ρ) : List ρ := rows.insertionSort log.rowLE

variable {log}

/-- Sorting a linked table does not move the rows of one entity among each other. -/
theorem rowsOf_sorted (h : log.Linked root rows) (e : ε) :
    log.rowsOf (log.sorted rows) e = log.rowsOf rows e := by
  have hperm : (log.rowsOf (log.sorted rows) e).Perm (log.rowsOf rows e) :=
    (List.perm_insertionSort log.rowLE rows).filter _
  have hsorted : (log.rowsOf (log.sorted rows) e).Pairwise fun r r' => log.sequence r ≤ log.sequence r' := by
    refine ((List.pairwise_insertionSort log.rowLE rows).filter _).imp_of_mem ?_
    intro r r' hr hr' hle
    rcases hle with hlt | ⟨_, hseq⟩
    · exact absurd ((mem_rowsOf.mp hr).2.trans (mem_rowsOf.mp hr').2.symm) hlt.ne
    · exact hseq
  have hdistinct : ((log.rowsOf rows e).map log.sequence).Nodup :=
    List.pairwise_map.mpr ((h e).pairwise.imp ne_of_lt)
  refine hperm.eq_of_pairwise ?_ hsorted ((h e).pairwise.imp le_of_lt)
  intro r r' hr hr' hle hge
  exact List.inj_on_of_nodup_map hdistinct (hperm.subset hr) hr' (le_antisymm hle hge)

/-- **The audit of a linked table** finds every row in its place. -/
theorem inStep_sorted (h : log.Linked root rows) :
    log.InStep (fun _ => 0) (fun _ => root) (log.sorted rows) :=
  inStep_of_linkedFrom fun e => by
    rw [rowsOf_sorted h e]
    exact h e

end Log

end Lib
