/-
# `Lib.Recent` — the latest items of a list, and the last one of each identifier

`latest key n items` is `sorted(items, key=key, reverse=True)[:n]`.  An item is in it when no
more than `n` items, itself among them, are at least as late (`mem_latest`).

`Dict.index id items` holds the last item of every identifier, in the order in which the
identifiers appear first (`Dict.lookup_index`).

A store finds the newest of some items by a key that is to grow with time.  Where two keys stand the other way round than the
times, the newest by the key need not be the newest in time: `isLatest_newest_iff` and `latest_ordered_iff` say when it is.
-/
import LiveTrader.Lib.Python
import Mathlib.Data.List.MinMax
import Mathlib.Data.List.Pairwise
import Mathlib.Data.List.Sort
import Mathlib.Order.Basic

namespace Lib

section latest

variable {α κ : Type} [LinearOrder κ] (key : α → κ)

/-- The first item is at least as late. -/
def LaterEq (a b : α) : Prop := key b ≤ key a

instance : DecidableRel (LaterEq key) := fun a b => inferInstanceAs (Decidable (key b ≤ key a))

instance : Std.Total (LaterEq key) := ⟨fun a b => le_total (key b) (key a)⟩

instance : IsTrans α (LaterEq key) := ⟨fun _ _ _ hab hbc => le_trans hbc hab⟩

/-- The `n` latest items, the latest one first; items of one key stay in their order. -/
def latest (n : ℕ) (items : List α) : List α := (items.insertionSort (LaterEq key)).take n

variable {key} {n : ℕ} {items : List α} {a : α}

theorem mem_of_mem_latest (h : a ∈ latest key n items) : a ∈ items :=
  (List.mem_insertionSort _).mp (List.mem_of_mem_take h)

/-- Nothing is in it twice that is not in the list twice. -/
theorem nodup_map_latest {β : Type} {f : α → β} (h : (items.map f).Nodup) : ((latest key n items).map f).Nodup := by
  have hsorted : ((items.insertionSort (LaterEq key)).map f).Nodup :=
    ((List.perm_insertionSort (LaterEq key) items).map f).nodup_iff.mpr h
  exact hsorted.sublist ((List.take_sublist n _).map f)

/-- **An item with few later ones** is among the latest. -/
theorem mem_latest (ha : a ∈ items) (hcount : items.countP (fun b => key a ≤ key b) ≤ n) : a ∈ latest key n items := by
  have hperm := List.perm_insertionSort (LaterEq key) items
  obtain ⟨before, after, hsorted⟩ := List.append_of_mem (hperm.mem_iff.mpr ha)
  have hlater : ∀ b ∈ before, key a ≤ key b := by
    have hpairwise := List.pairwise_insertionSort (LaterEq key) items
    rw [hsorted] at hpairwise
    exact fun b hb => (List.pairwise_append.mp hpairwise).2.2 b hb a List.mem_cons_self
  have hall : before.countP (fun b => decide (key a ≤ key b)) = before.length :=
    List.countP_eq_length.mpr fun b hb => decide_eq_true (hlater b hb)
  have hself : (a :: after).countP (fun b => decide (key a ≤ key b)) = after.countP (fun b => decide (key a ≤ key b)) + 1 :=
    List.countP_cons_of_pos (decide_eq_true le_rfl)
  have hplace : before.length < n := by
    rw [← hperm.countP_eq, hsorted, List.countP_append, hall, hself] at hcount
    omega
  obtain ⟨k, hk⟩ : ∃ k, n - before.length = k + 1 := ⟨n - before.length - 1, by omega⟩
  rw [latest, hsorted, List.take_append, hk, List.take_succ_cons]
  exact List.mem_append_right _ List.mem_cons_self

end latest

namespace Py

section index

variable {α : Type} (id : α → String)

/-- The last item of each identifier, after those that are there; an item without an identifier
is left out. -/
def Dict.index (d : Dict String α) (items : List α) : Dict String α :=
  items.foldl (fun d item => if id item = "" then d else d.set (id item) item) d

/-- Every key is the identifier of its item, and there is one item for each. -/
structure Dict.Indexed (d : Dict String α) : Prop where
  nodup : (d.map Prod.fst).Nodup
  identifier : ∀ e ∈ d, id e.2 = e.1

variable {id} {d : Dict String α}

theorem Dict.indexed_nil : Dict.Indexed id ([] : Dict String α) :=
  ⟨List.nodup_nil, fun _ he => absurd he List.not_mem_nil⟩

theorem Dict.mem_set {key : String} {value : α} {e : String × α} (h : e ∈ d.set key value) :
    e = (key, value) ∨ e ∈ d := by
  induction d with
  | nil => exact .inl (List.mem_singleton.mp h)
  | cons f d ih =>
    obtain ⟨k, v⟩ := f
    rw [Dict.set] at h
    split at h
    · next hk =>
      rcases List.mem_cons.mp h with rfl | h
      · exact .inl (hk ▸ rfl)
      · exact .inr (List.mem_cons_of_mem _ h)
    · rcases List.mem_cons.mp h with rfl | h
      · exact .inr List.mem_cons_self
      · exact (ih h).imp_right (List.mem_cons_of_mem _)

theorem Dict.Indexed.set (h : Dict.Indexed id d) (item : α) : Dict.Indexed id (d.set (id item) item) := by
  refine ⟨Dict.nodup_set h.nodup _ _, fun e he => ?_⟩
  rcases Dict.mem_set he with rfl | he
  · rfl
  · exact h.identifier e he

theorem Dict.Indexed.index (h : Dict.Indexed id d) (items : List α) : Dict.Indexed id (d.index id items) := by
  induction items generalizing d with
  | nil => exact h
  | cons item items ih =>
    rw [Dict.index, List.foldl_cons]
    split
    · exact ih h
    · exact ih (h.set item)

theorem Dict.mem_index {items : List α} {e : String × α} (h : e ∈ d.index id items) : e ∈ d ∨ e.2 ∈ items := by
  induction items generalizing d with
  | nil => exact .inl h
  | cons item items ih =>
    rw [Dict.index, List.foldl_cons] at h
    split at h
    · exact (ih h).imp_right (List.mem_cons_of_mem _)
    · rcases ih h with h | h
      · rcases Dict.mem_set h with rfl | h
        · exact .inr List.mem_cons_self
        · exact .inl h
      · exact .inr (List.mem_cons_of_mem _ h)

/-- Items with other identifiers do not matter. -/
theorem Dict.lookup_index_of_notMem {items : List α} {key : String} (h : key ∉ items.map id) :
    (d.index id items).lookup key = d.lookup key := by
  induction items generalizing d with
  | nil => rfl
  | cons item items ih =>
    rw [List.map_cons, List.mem_cons, not_or] at h
    rw [Dict.index, List.foldl_cons]
    split
    · exact ih h.2
    · refine (ih h.2).trans ?_
      rw [Dict.lookup_set, if_neg h.1]

/-- **The item of an identifier**, where no two items share one. -/
theorem Dict.lookup_index {items : List α} (hnodup : (items.map id).Nodup) {item : α} (hitem : item ∈ items)
    (hid : id item ≠ "") : (d.index id items).lookup (id item) = some item := by
  induction items generalizing d with
  | nil => exact absurd hitem List.not_mem_nil
  | cons other items ih =>
    rw [List.map_cons, List.nodup_cons] at hnodup
    rw [Dict.index, List.foldl_cons]
    rcases List.mem_cons.mp hitem with rfl | hitem
    · rw [if_neg hid]
      refine (Dict.lookup_index_of_notMem hnodup.1).trans ?_
      rw [Dict.lookup_set, if_pos rfl]
    · exact ih hnodup.2 hitem

/-- The last item of an identifier. -/
theorem Dict.exists_lookup_index {items : List α} {key : String} (h : key ∈ items.map id) (hkey : key ≠ "") :
    ∃ item ∈ items, id item = key ∧ (d.index id items).lookup key = some item := by
  induction items generalizing d with
  | nil => exact absurd h List.not_mem_nil
  | cons item items ih =>
    rw [Dict.index, List.foldl_cons]
    by_cases hlater : key ∈ items.map id
    · obtain ⟨found, hmem, hfound⟩ := ih hlater
      exact ⟨found, List.mem_cons_of_mem _ hmem, hfound⟩
    · obtain rfl : key = id item := (List.mem_cons.mp h).resolve_right hlater
      refine ⟨item, List.mem_cons_self, rfl, ?_⟩
      rw [if_neg hkey]
      refine (Dict.lookup_index_of_notMem hlater).trans ?_
      rw [Dict.lookup_set, if_pos rfl]

theorem Dict.Indexed.map_id (h : Dict.Indexed id d) : (d.map Prod.snd).map id = d.map Prod.fst := by
  rw [List.map_map]
  exact List.map_congr_left h.identifier

/-- The items are among any that have them all, with no more of any kind. -/
theorem Dict.Indexed.countP_le (h : Dict.Indexed id d) {items : List α} (hsub : ∀ e ∈ d, e.2 ∈ items) (p : α → Bool) :
    (d.map Prod.snd).countP p ≤ items.countP p := by
  have hnodup : (d.map Prod.snd).Nodup := by
    have hids := h.nodup
    rw [← h.map_id] at hids
    exact hids.of_map _
  have hsubset : d.map Prod.snd ⊆ items := by
    intro item hitem
    obtain ⟨e, he, rfl⟩ := List.mem_map.mp hitem
    exact hsub e he
  exact (List.subperm_of_subset hnodup hsubset).countP_le p

end index

end Py

/-! ## The latest by a key, and the latest in time -/

variable {α κ : Type} [LinearOrder κ]

/-- An item was found, if there is any, and none is later. -/
def IsLatest (time : α → ℤ) (items : List α) (found : Option α) : Prop := ∀ a ∈ items, ∃ b ∈ found, time a ≤ time b

/-- The item of the greatest key, as `ORDER BY key DESC LIMIT 1` finds it; the first one, where several have it. -/
def newest (key : α → κ) (items : List α) : Option α := items.argmax key

section latest

variable {key : α → κ} {items : List α}

/-- **The greatest key is the latest time** exactly if no item of the greatest key has a later one beside it. -/
theorem isLatest_newest_iff (time : α → ℤ) (htie : ∀ a b, key a = key b → time a = time b) : IsLatest time items (newest key items) ↔
    ∀ a ∈ items, (∀ b ∈ items, key b ≤ key a) → ∀ b ∈ items, time b ≤ time a := by
  constructor
  · intro hlatest a ha hmax b hb
    obtain ⟨c, hc, hle⟩ := hlatest b hb
    have hkey : key a = key c := le_antisymm (List.le_of_mem_argmax ha hc) (hmax c (List.argmax_mem hc))
    exact hle.trans (htie a c hkey).ge
  · intro h b hb
    cases hfound : newest key items with
    | none =>
      rw [List.argmax_eq_none.mp hfound] at hb
      exact absurd hb List.not_mem_nil
    | some a =>
      have hmax : ∀ c ∈ items, key c ≤ key a := fun c hc => List.le_of_mem_argmax hc hfound
      exact ⟨a, rfl, h a (List.argmax_mem hfound) hmax b hb⟩

theorem mem_of_mem_newest {a : α} (h : a ∈ newest key items) : a ∈ items := List.argmax_mem h

theorem pairwise_latest (n : ℕ) : (latest key n items).Pairwise (LaterEq key) :=
  (List.pairwise_insertionSort (LaterEq key) items).sublist (List.take_sublist n _)

/-- Two items of a list stand in it in one order or the other. -/
theorem either_of_pairwise {R : α → α → Prop} {a b : α} (h : items.Pairwise R) (hne : a ≠ b) (ha : a ∈ items) (hb : b ∈ items) :
    R a b ∨ R b a := by
  have heither : items.Pairwise fun x y => R x y ∨ R y x := h.imp Or.inl
  have : Std.Symm fun x y => R x y ∨ R y x := ⟨fun _ _ => Or.symm⟩
  exact heither.forall ha hb hne

/-- **The latest items stand in the order of time** exactly if the keys of all do. -/
theorem latest_ordered_iff (time : α → ℤ) (htie : ∀ a b, key a = key b → time a = time b) :
    (∀ n, 0 < n → (latest key n items).Pairwise fun a b => time b ≤ time a) ↔
      ∀ a ∈ items, ∀ b ∈ items, key a < key b → time a ≤ time b := by
  constructor
  · intro hordered a ha b hb hlt
    by_contra hlater
    -- all the items
    have hall : latest key (items.length + 1) items = items.insertionSort (LaterEq key) :=
      List.take_of_length_le (by rw [List.length_insertionSort]; omega)
    have hsorted : (latest key (items.length + 1) items).Pairwise (LaterEq key) := pairwise_latest _
    have hboth := hsorted.and (hordered _ (Nat.succ_pos _))
    rw [hall] at hboth
    have hne : a ≠ b := fun heq => hlt.ne (congrArg key heq)
    rcases either_of_pairwise hboth hne ((List.mem_insertionSort _).mpr ha) ((List.mem_insertionSort _).mpr hb) with h | h
    · exact absurd h.1 (not_le.mpr hlt)
    · exact hlater h.2
  · intro h n _
    refine (pairwise_latest n).imp_of_mem fun {a b} ha hb hle => ?_
    rcases hle.lt_or_eq with hlt | heq
    · exact h b (mem_of_mem_latest hb) a (mem_of_mem_latest ha) hlt
    · exact (htie b a heq).le

end latest

end Lib
