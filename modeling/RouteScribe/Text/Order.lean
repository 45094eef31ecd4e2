/-!
# The order of texts

Texts are ordered by code points, from the left: a text stands before its continuations.  The order
is total (`textLe_total`), transitive (`textLe_trans`) and tells texts apart (`textLe_antisymm`), so
sorting by it leaves no choice.
-/

namespace RouteScribe

/-- The first text stands before the second one or equals it. -/
def textLe : List Char → List Char → Bool
  | [], _ => true
  | _ :: _, [] => false
  | a :: as, b :: bs => if a = b then textLe as bs else decide (a < b)

theorem textLe_antisymm {s t : List Char} (h : textLe s t = true) (k : textLe t s = true) :
    s = t := by
  induction s generalizing t with
  | nil =>
    cases t with
    | nil => rfl
    | cons b t => simp [textLe] at k
  | cons a s ih =>
    cases t with
    | nil => simp [textLe] at h
    | cons b t =>
      simp only [textLe] at h k
      by_cases hab : a = b
      · subst hab
        simp only [if_true] at h k
        rw [ih h k]
      · simp only [hab, if_false, Ne.symm hab, decide_eq_true_eq] at h k
        exact absurd k (Char.lt_asymm h)

theorem textLe_total (s t : List Char) : textLe s t = true ∨ textLe t s = true := by
  induction s generalizing t with
  | nil => exact Or.inl rfl
  | cons a s ih =>
    cases t with
    | nil => exact Or.inr rfl
    | cons b t =>
      by_cases hab : a = b
      · subst hab
        simpa [textLe] using ih t
      · simp only [textLe, hab, if_false, Ne.symm hab, decide_eq_true_eq]
        rcases Char.le_total a b with h | h
        · exact Or.inl (Char.not_le.mp fun k => hab (Char.le_antisymm h k))
        · exact Or.inr (Char.not_le.mp fun k => hab (Char.le_antisymm k h))

theorem textLe_trans {s t u : List Char} (h : textLe s t = true) (k : textLe t u = true) :
    textLe s u = true := by
  induction s generalizing t u with
  | nil => rfl
  | cons a s ih =>
    cases t with
    | nil => simp [textLe] at h
    | cons b t =>
      cases u with
      | nil => simp [textLe] at k
      | cons c u =>
        simp only [textLe] at h k ⊢
        by_cases hab : a = b
        · subst hab
          by_cases hac : a = c
          · subst hac
            simp only [if_true] at h k ⊢
            exact ih h k
          · simpa [hac] using k
        · simp only [hab, if_false, decide_eq_true_eq] at h
          by_cases hbc : b = c
          · subst hbc
            simpa [hab] using h
          · simp only [hbc, if_false, decide_eq_true_eq] at k
            have hac : a ≠ c := fun e => Char.lt_asymm h (e ▸ k)
            simpa [hac] using Char.lt_trans h k

end RouteScribe
