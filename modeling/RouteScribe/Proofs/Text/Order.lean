import Mathlib.Data.List.Nodup
import RouteScribe.Text.Order

/-! # Sorted texts

Sorting by a key puts the keys in order (`pairwise_mergeSort_key`).  Texts are ordered as lists of
characters are (`textLe_iff`), so different texts that are sorted stand in strictly increasing order
(`pairwise_lt_mergeSort`). -/

namespace RouteScribe

/-- Texts are ordered as lists of characters are. -/
theorem textLe_iff {s t : List Char} : textLe s t = true ↔ s < t ∨ s = t := by
  induction s generalizing t with
  | nil => cases t <;> simp [textLe]
  | cons a s ih =>
      cases t with
      | nil => simp [textLe]
      | cons b t =>
          rw [textLe, List.cons_lt_cons_iff]
          by_cases hab : a = b
          · subst hab
            rw [if_pos rfl, ih]
            simp only [Char.lt_irrefl a, true_and, false_or, List.cons_inj_right]
          · rw [if_neg hab]
            simp [hab]

/-- Sorting by a key puts the keys in order. -/
theorem pairwise_mergeSort_key {α β : Type} {le : β → β → Bool}
    (htrans : ∀ a b c, le a b = true → le b c = true → le a c = true)
    (htotal : ∀ a b, (le a b || le b a) = true) (key : α → β) (l : List α) :
    (l.mergeSort fun a b => le (key a) (key b)).Pairwise fun a b => le (key a) (key b) = true :=
  List.pairwise_mergeSort (fun a b c => htrans (key a) (key b) (key c))
    (fun a b => htotal (key a) (key b)) l

/-- Sorting by a text puts the texts in order. -/
theorem pairwise_mergeSort_textLe {α : Type} (key : α → List Char) (l : List α) :
    (l.mergeSort fun a b => textLe (key a) (key b)).Pairwise
      fun a b => textLe (key a) (key b) = true := by
  have htrans : ∀ a b c, textLe a b = true → textLe b c = true → textLe a c = true :=
    fun _ _ _ => textLe_trans
  have htotal : ∀ a b, (textLe a b || textLe b a) = true := by
    intro a b
    rw [Bool.or_eq_true]
    exact textLe_total a b
  exact pairwise_mergeSort_key htrans htotal key l

/-- Sorting different texts puts them in strictly increasing order. -/
theorem pairwise_lt_mergeSort {l : List (List Char)} (h : l.Nodup) :
    (l.mergeSort fun a b => textLe a b).Pairwise (· < ·) := by
  have hsorted := pairwise_mergeSort_textLe id l
  have hnodup := (List.mergeSort_perm l fun a b => textLe a b).nodup_iff.mpr h
  refine (hsorted.and hnodup).imp ?_
  rintro a b ⟨hle, hne⟩
  exact (textLe_iff.mp hle).resolve_right hne

end RouteScribe
