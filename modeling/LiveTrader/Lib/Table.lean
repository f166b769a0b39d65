/-
# `Lib.Table` — a table with a primary key

Rows of any type under a key read off the row, no two rows with one key.  A row
is looked up, inserted under a free key, or rewritten without touching its key.
What a change leaves alone is `get?_insert` and `get?_update`: the lookup under
every key after the change, in terms of the lookup before it.
-/
import Mathlib.Data.List.Nodup
import Mathlib.Data.List.Basic

namespace Lib

variable {ρ κ : Type} [DecidableEq κ]

/-- The rows, in the order of their insertion. -/
structure Table (key : ρ → κ) where
  rows : List ρ
  unique : (rows.map key).Nodup

namespace Table

variable {key : ρ → κ}

def empty : Table key := ⟨[], List.nodup_nil⟩

/-- The row under a key. -/
def get? (t : Table key) (k : κ) : Option ρ := t.rows.find? (key · = k)

/-- A new row; `none` when its key is taken. -/
def insert (t : Table key) (row : ρ) : Option (Table key) :=
  if h : key row ∈ t.rows.map key then none
  else some ⟨t.rows ++ [row], by
    rw [List.map_append, List.nodup_append]
    refine ⟨t.unique, List.nodup_cons.mpr ⟨List.not_mem_nil, List.nodup_nil⟩, ?_⟩
    rintro k hk _ hrow rfl
    exact h (List.mem_singleton.mp hrow ▸ hk)⟩

/-- Rewrite the row under a key by a change that keeps the key of every row. -/
def update (t : Table key) (k : κ) (f : ρ → ρ) (hf : ∀ row, key (f row) = key row) : Table key :=
  ⟨t.rows.map fun row => if key row = k then f row else row, by
    rw [List.map_map]
    convert t.unique using 2
    funext row
    simp only [Function.comp]
    split
    · exact hf row
    · rfl⟩

/-! ## Lookups -/

variable {t : Table key} {k : κ} {row : ρ}

theorem get?_key (h : t.get? k = some row) : key row = k := by
  simpa using List.find?_some h

theorem get?_of_mem (h : row ∈ t.rows) : t.get? (key row) = some row := by
  obtain ⟨rows, hnodup⟩ := t
  rw [get?]
  induction rows with
  | nil => cases h
  | cons r rows ih =>
    rw [List.map_cons, List.nodup_cons] at hnodup
    rcases List.mem_cons.mp h with rfl | h
    · simp
    · rw [List.find?_cons_of_neg]
      · exact ih hnodup.2 h
      · intro heq
        simp only [decide_eq_true_eq] at heq
        exact hnodup.1 (heq ▸ List.mem_map_of_mem h)

theorem get?_eq_none : t.get? k = none ↔ k ∉ t.rows.map key := by
  simp [get?, List.find?_eq_none]

/-! ## Changes -/

theorem insert_rows {t' : Table key} (h : t.insert row = some t') : t'.rows = t.rows ++ [row] := by
  rw [insert] at h
  split at h
  · cases h
  · cases h
    rfl

/-- An insertion finds its key free. -/
theorem get?_of_insert {t' : Table key} (h : t.insert row = some t') : t.get? (key row) = none := by
  rw [insert] at h
  split at h
  · cases h
  · next hfree => exact get?_eq_none.mpr hfree

theorem get?_insert {t' : Table key} (h : t.insert row = some t') (k : κ) :
    t'.get? k = if k = key row then some row else t.get? k := by
  have hfree := get?_of_insert h
  rw [get?, insert_rows h, List.find?_append]
  change (t.get? k).or _ = _
  by_cases hk : k = key row
  · subst hk
    simp [hfree]
  · cases t.get? k <;> simp [hk, Ne.symm hk]

/-- A key that is found is not lost by an insertion. -/
theorem get?_insert_of_some {t' : Table key} {new : ρ} (h : t.insert new = some t')
    (hrow : t.get? k = some row) : t'.get? k = some row := by
  rw [get?_insert h, if_neg, hrow]
  rintro rfl
  rw [get?_of_insert h] at hrow
  cases hrow

theorem get?_update (f : ρ → ρ) (hf : ∀ row, key (f row) = key row) (k k' : κ) :
    (t.update k f hf).get? k' = (t.get? k').map fun row => if k' = k then f row else row := by
  have hmap : (t.update k f hf).get? k' =
      (t.get? k').map fun row => if key row = k then f row else row := by
    rw [get?, get?, update, List.find?_map]
    congr 1
    refine congrArg (fun p => List.find? p t.rows) (funext fun row => ?_)
    simp only [Function.comp]
    split
    · rw [hf]
    · rfl
  rw [hmap]
  cases hrow : t.get? k' with
  | none => rfl
  | some row => rw [Option.map_some, Option.map_some, get?_key hrow]

theorem get?_update_ne (f : ρ → ρ) (hf : ∀ row, key (f row) = key row) {k k' : κ} (h : k' ≠ k) :
    (t.update k f hf).get? k' = t.get? k' := by
  rw [get?_update]
  simp [h]

theorem get?_update_self (f : ρ → ρ) (hf : ∀ row, key (f row) = key row) (h : t.get? k = some row) :
    (t.update k f hf).get? k = some (f row) := by
  rw [get?_update, h]
  simp

end Table

end Lib
