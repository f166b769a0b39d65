/-
# `Lib.Drawdown` — running maximum and drawdown of a series

The peak of a series is its greatest member, and its drawdown the greatest loss from a member to a later one.  Both can
be kept up to date from one member to the next, without the members before.
-/
import Mathlib.Algebra.Order.Group.Defs
import Mathlib.Order.Bounds.Basic

namespace Lib.Drawdown

variable {α : Type} [LinearOrder α] {series : List α} {x peak worst : α}

/-! ## The peak -/

/-- The greatest member. -/
def IsPeak (series : List α) (peak : α) : Prop := IsGreatest {x | x ∈ series} peak

theorem isPeak_singleton (x : α) : IsPeak [x] x :=
  ⟨List.mem_singleton_self x, fun _ hy => (List.mem_singleton.mp hy).le⟩

theorem IsPeak.concat (h : IsPeak series peak) (x : α) : IsPeak (series ++ [x]) (max peak x) := by
  refine ⟨?_, ?_⟩
  · rcases max_choice peak x with hmax | hmax
    · rw [hmax]
      exact List.mem_append_left _ h.1
    · rw [hmax]
      exact List.mem_append_right _ (List.mem_singleton_self x)
  · rintro y hy
    rcases List.mem_append.mp hy with hy | hy
    · exact (h.2 hy).trans (le_max_left _ _)
    · exact (List.mem_singleton.mp hy).le.trans (le_max_right _ _)

/-! ## The drawdown -/

variable [AddCommGroup α]

/-- The losses from a member to itself or a later one; a gain is a loss of zero. -/
def losses (series : List α) : Set α :=
  {loss | ∃ i j, ∃ hj : j < series.length, ∃ hij : i ≤ j, loss = max 0 (series[i] - series[j])}

/-- The greatest loss. -/
def IsDrawdown (series : List α) (loss : α) : Prop := IsGreatest (losses series) loss

theorem isDrawdown_singleton (x : α) : IsDrawdown [x] 0 := by
  refine ⟨⟨0, 0, Nat.zero_lt_one, le_rfl, ?_⟩, ?_⟩
  · rw [List.getElem_cons_zero, sub_self, max_self]
  · rintro loss ⟨i, j, hj, hij, rfl⟩
    obtain rfl : j = 0 := by simpa using hj
    obtain rfl : i = 0 := by omega
    rw [sub_self, max_self]

/-- The losses that a new member brings are those down to it. -/
theorem mem_losses_concat {loss : α} :
    loss ∈ losses (series ++ [x]) ↔ loss ∈ losses series ∨ ∃ y ∈ series ++ [x], loss = max 0 (y - x) := by
  constructor
  · rintro ⟨i, j, hj', hij, rfl⟩
    have hj : j < series.length + 1 := by rwa [List.length_append, List.length_singleton] at hj'
    rcases Nat.lt_succ_iff_lt_or_eq.mp hj with hj | rfl
    · refine .inl ⟨i, j, hj, hij, ?_⟩
      rw [List.getElem_append_left (hij.trans_lt hj), List.getElem_append_left hj]
    · have hi : i < (series ++ [x]).length := hij.trans_lt hj'
      exact .inr ⟨(series ++ [x])[i], List.getElem_mem hi,
        congrArg (fun last => max 0 ((series ++ [x])[i] - last)) (List.getElem_concat_length rfl hj')⟩
  · rintro (⟨i, j, hj, hij, rfl⟩ | ⟨y, hy, rfl⟩)
    · refine ⟨i, j, by rw [List.length_append]; omega, hij, ?_⟩
      rw [List.getElem_append_left (hij.trans_lt hj), List.getElem_append_left hj]
    · obtain ⟨i, hi, rfl⟩ := List.mem_iff_getElem.mp hy
      have hlast : series.length < (series ++ [x]).length := by
        rw [List.length_append, List.length_singleton]
        exact Nat.lt_succ_self _
      have hle : i ≤ series.length := by
        rw [List.length_append, List.length_singleton] at hi
        omega
      exact ⟨i, series.length, hlast, hle,
        congrArg (fun last => max 0 ((series ++ [x])[i] - last)) (List.getElem_concat_length rfl hlast).symm⟩

variable [IsOrderedAddMonoid α]

/-- **The drawdown of a longer series**: the old one, or the loss from the new peak. -/
theorem IsDrawdown.concat (h : IsDrawdown series worst) (hpeak : IsPeak (series ++ [x]) peak) :
    IsDrawdown (series ++ [x]) (max worst (max 0 (peak - x))) := by
  refine ⟨mem_losses_concat.mpr ?_, ?_⟩
  · rcases max_choice worst (max 0 (peak - x)) with hmax | hmax
    · rw [hmax]
      exact .inl h.1
    · rw [hmax]
      exact .inr ⟨peak, hpeak.1, rfl⟩
  · rintro loss hloss
    rcases mem_losses_concat.mp hloss with hloss | ⟨y, hy, rfl⟩
    · exact (h.2 hloss).trans (le_max_left _ _)
    · exact (max_le_max_left 0 (sub_le_sub_right (hpeak.2 hy) x)).trans (le_max_right _ _)

end Lib.Drawdown
