import Mathlib.Algebra.Order.BigOperators.Group.List
import Mathlib.Algebra.Order.Group.Nat
import Mathlib.Algebra.Ring.Nat
import Mathlib.Data.List.Forall2

/-! # Lists of numbers and of parts

The greatest number of a list is found by a fold (`le_foldl_max`), sums of numbers that are bounded
one by one agree only if the numbers do (`eq_of_sum_map_le`), and what each member is related to can
be collected in a list (`exists_forall₂`). -/

namespace RouteScribe

variable {α β : Type}

theorem le_foldl_max_start (ns : List Nat) (m : Nat) : m ≤ ns.foldl max m := by
  induction ns generalizing m with
  | nil => exact le_rfl
  | cons n ns ih => exact (le_max_left m n).trans (ih _)

theorem le_foldl_max {ns : List Nat} {n : Nat} (h : n ∈ ns) (m : Nat) : n ≤ ns.foldl max m := by
  induction ns generalizing m with
  | nil => exact absurd h List.not_mem_nil
  | cons k ns ih =>
      rcases List.mem_cons.mp h with rfl | h
      · exact (le_max_right m n).trans (le_foldl_max_start ns _)
      · exact ih h _

/-- Numbers that are bounded one by one reach the sum of the bounds only if each reaches its bound.
-/
theorem eq_of_sum_map_le {as : List α} {f g : α → Nat} (hle : ∀ a ∈ as, f a ≤ g a)
    (h : (as.map g).sum ≤ (as.map f).sum) : ∀ a ∈ as, f a = g a := by
  induction as with
  | nil => exact List.forall_mem_nil _
  | cons a as ih =>
      obtain ⟨ha, has⟩ := List.forall_mem_cons.mp hle
      have hsum := List.sum_le_sum has
      simp only [List.map_cons, List.sum_cons] at h
      refine List.forall_mem_cons.mpr ⟨by omega, ih has (by omega)⟩

/-- What each member is related to, all together. -/
theorem exists_forall₂ {R : α → β → Prop} {as : List α} (h : ∀ a ∈ as, ∃ b, R a b) :
    ∃ bs, List.Forall₂ R as bs := by
  induction as with
  | nil => exact ⟨[], .nil⟩
  | cons a as ih =>
      obtain ⟨⟨b, hb⟩, has⟩ := List.forall_mem_cons.mp h
      obtain ⟨bs, hbs⟩ := ih has
      exact ⟨b :: bs, .cons hb hbs⟩

end RouteScribe
