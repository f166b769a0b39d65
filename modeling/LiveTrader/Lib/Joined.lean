/-
# `Lib.Joined` — names joined by colons

`join a b` is the text `a:b`.  Its first part can be read back unless one of the names in use goes on, after a colon, where
another one ends: `Leads a b` says that `b` is `a` or goes on after it, and `join_cases` that two joined texts are the same
only if their first parts are or one of them leads the other.  A name without a colon is `Plain` and never goes on.
-/
import Mathlib.Data.List.Basic
import Mathlib.Data.String.Basic

namespace Lib.Joined

/-- The text `a:b`. -/
def join (a b : String) : String := a ++ ":" ++ b

/-- `b` is `a`, or `a` and more after a colon. -/
def Leads (a b : String) : Prop := b = a ∨ ∃ w, b = join a w

/-- A name without a colon. -/
def Plain (a : String) : Prop := ':' ∉ a.toList

instance (a : String) : Decidable (Plain a) := by unfold Plain; infer_instance

variable {a b k u v : String}

theorem toList_join (a b : String) : (join a b).toList = a.toList ++ ':' :: b.toList := by
  simp [join, String.toList_append]

theorem join_assoc (a b c : String) : join (join a b) c = join a (join b c) := by
  simp only [join, String.append_assoc]

theorem not_plain_join : ¬ Plain (join a b) := by
  simp [Plain, toList_join]

theorem join_right_inj (h : join a u = join a v) : u = v := by
  have hlist := congrArg String.toList h
  rw [toList_join, toList_join, List.append_cancel_left_eq, List.cons.injEq] at hlist
  exact String.toList_injective hlist.2

/-- Lists that a separator joins are the same only if one first part goes on after the other, or both are the same. -/
theorem append_cons_cases {α : Type} {sep : α} {as bs us vs : List α} (h : as ++ sep :: us = bs ++ sep :: vs) :
    as = bs ∨ (∃ ws, bs = as ++ sep :: ws) ∨ ∃ ws, as = bs ++ sep :: ws := by
  rcases List.append_eq_append_iff.mp h with ⟨ws, hbs, hus⟩ | ⟨ws, has, hvs⟩
  · cases ws with
    | nil => exact .inl (by rw [hbs, List.append_nil])
    | cons w ws =>
      obtain ⟨rfl, -⟩ := List.cons.inj hus
      exact .inr (.inl ⟨ws, hbs⟩)
  · cases ws with
    | nil => exact .inl (by rw [has, List.append_nil])
    | cons w ws =>
      obtain ⟨rfl, -⟩ := List.cons.inj hvs
      exact .inr (.inr ⟨ws, has⟩)

theorem eq_join_of_toList {ws : List Char} (h : b.toList = a.toList ++ ':' :: ws) : b = join a (String.ofList ws) := by
  apply String.toList_injective
  rw [toList_join, h, String.toList_ofList]

/-- **Reading the first part.** -/
theorem join_cases (h : join a u = join b v) :
    (a = b ∧ u = v) ∨ (∃ w, b = join a w ∧ u = join w v) ∨ ∃ w, a = join b w ∧ v = join w u := by
  have hlist := congrArg String.toList h
  rw [toList_join, toList_join] at hlist
  rcases append_cons_cases hlist with heq | ⟨ws, heq⟩ | ⟨ws, heq⟩
  · obtain rfl := String.toList_injective heq
    exact .inl ⟨rfl, join_right_inj h⟩
  · have hb := eq_join_of_toList heq
    refine .inr (.inl ⟨_, hb, ?_⟩)
    rw [hb, join_assoc] at h
    exact join_right_inj h
  · have ha := eq_join_of_toList heq
    refine .inr (.inr ⟨_, ha, ?_⟩)
    rw [ha, join_assoc] at h
    exact (join_right_inj h).symm

theorem join_of_plain (ha : Plain a) (hb : Plain b) (h : join a u = join b v) : a = b ∧ u = v := by
  rcases join_cases h with heq | ⟨w, rfl, -⟩ | ⟨w, rfl, -⟩
  · exact heq
  · exact absurd hb not_plain_join
  · exact absurd ha not_plain_join

/-- Behind a plain name `k`, another first part goes on only through `k`. -/
theorem leads_of_join (hk : Plain k) (h : join k u = join b v) : Leads k b := by
  rcases join_cases h with ⟨rfl, -⟩ | ⟨w, rfl, -⟩ | ⟨w, rfl, -⟩
  · exact .inl rfl
  · exact .inr ⟨w, rfl⟩
  · exact absurd hk not_plain_join

theorem Leads.join (h : Leads k b) (a : String) : Leads (Joined.join a k) (Joined.join a b) := by
  rcases h with rfl | ⟨w, rfl⟩
  · exact .inl rfl
  · exact .inr ⟨w, (join_assoc a k w).symm⟩

theorem leads_iff : Leads a b ↔ a.toList ++ [':'] <+: b.toList ++ [':'] := by
  constructor
  · rintro (rfl | ⟨w, rfl⟩)
    · exact List.prefix_refl _
    · rw [toList_join, List.append_assoc]
      exact (List.prefix_append_right_inj _).mpr ⟨w.toList ++ [':'], by simp⟩
  · rintro ⟨ws, h⟩
    rw [List.append_assoc, List.singleton_append] at h
    rcases append_cons_cases h with heq | ⟨us, heq⟩ | ⟨us, heq⟩
    · exact .inl (String.toList_injective heq).symm
    · exact .inr ⟨_, eq_join_of_toList heq⟩
    · have := congrArg List.length h
      rw [heq] at this
      simp only [List.length_append, List.length_cons, List.length_nil] at this
      omega

instance (a b : String) : Decidable (Leads a b) := decidable_of_iff _ leads_iff.symm

end Lib.Joined
