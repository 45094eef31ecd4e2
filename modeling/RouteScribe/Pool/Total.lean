/-!
# Totals

The total of a measure over a list, and what it becomes when lists are joined or a member leaves.
-/

namespace RouteScribe

/-- The total of a measure over a list. -/
def total {α : Type} (f : α → Nat) : List α → Nat
  | [] => 0
  | a :: l => f a + total f l

theorem total_append {α : Type} (f : α → Nat) (k l : List α) :
    total f (k ++ l) = total f k + total f l := by
  induction k with
  | nil => simp [total]
  | cons a k ih => simp only [List.cons_append, total, ih]; omega

/-- A member that leaves takes its own part of the total with it. -/
theorem total_eraseIdx {α : Type} (f : α → Nat) (l : List α) (i : Nat) (a : α)
    (h : l[i]? = some a) : total f (l.eraseIdx i) + f a = total f l := by
  induction l generalizing i with
  | nil => simp at h
  | cons b l ih =>
    cases i with
    | zero =>
      simp only [List.getElem?_cons_zero, Option.some.injEq] at h
      subst h
      simp only [List.eraseIdx_zero, List.tail_cons, total]
      omega
    | succ i =>
      have := ih i (by simpa using h)
      simp only [List.eraseIdx_cons_succ, total]
      omega

end RouteScribe
