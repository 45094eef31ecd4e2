import Mathlib.Data.List.Basic
import RouteScribe.Text.Split

/-! # Pieces that are joined again

A separator parts the pieces before it from those behind it (`pieces_append_cons`), so lists without
separators come back from the list in which they are joined (`pieces_joined`). -/

namespace RouteScribe

variable {α : Type} [DecidableEq α]

theorem mem_of_mem_pieces {sep c : α} {s p : List α}
    (hp : p ∈ pieces sep s) (hc : c ∈ p) : c ∈ s := by
  induction s generalizing p with
  | nil =>
      simp only [pieces, List.mem_singleton] at hp
      exact absurd (hp ▸ hc) List.not_mem_nil
  | cons d s ih =>
      simp only [pieces] at hp
      split at hp
      · rcases List.mem_cons.mp hp with rfl | hp
        · exact absurd hc List.not_mem_nil
        · exact List.mem_cons_of_mem _ (ih hp hc)
      · split at hp
        · next q qs hs =>
            rcases List.mem_cons.mp hp with rfl | hp
            · rcases List.mem_cons.mp hc with rfl | hc
              · exact List.mem_cons_self
              · exact List.mem_cons_of_mem _ (ih (hs ▸ List.mem_cons_self) hc)
            · exact List.mem_cons_of_mem _ (ih (hs ▸ List.mem_cons_of_mem _ hp) hc)
        · next hs => exact absurd hs (pieces_ne_nil sep s)

theorem pieces_of_not_mem {sep : α} {s : List α} (h : sep ∉ s) : pieces sep s = [s] := by
  induction s with
  | nil => rfl
  | cons c s ih =>
      rw [List.mem_cons, not_or] at h
      rw [pieces, if_neg (Ne.symm h.1), ih h.2]

theorem not_mem_of_mem_pieces {sep : α} {s p : List α} (h : p ∈ pieces sep s) : sep ∉ p := by
  induction s generalizing p with
  | nil =>
      rw [pieces, List.mem_singleton] at h
      exact h ▸ List.not_mem_nil
  | cons c s ih =>
      rw [pieces] at h
      split at h
      · rcases List.mem_cons.mp h with rfl | h
        · exact List.not_mem_nil
        · exact ih h
      · next hc =>
          obtain ⟨q, qs, hq⟩ := List.exists_cons_of_ne_nil (pieces_ne_nil sep s)
          rw [hq] at h ih
          rcases List.mem_cons.mp h with rfl | h
          · rw [List.mem_cons, not_or]
            exact ⟨Ne.symm hc, ih List.mem_cons_self⟩
          · exact ih (List.mem_cons_of_mem q h)

/-- A separator parts the pieces. -/
theorem pieces_append_cons (sep : α) (s rest : List α) :
    pieces sep (s ++ sep :: rest) = pieces sep s ++ pieces sep rest := by
  induction s with
  | nil => simp [pieces]
  | cons c s ih =>
      obtain ⟨q, qs, hq⟩ := List.exists_cons_of_ne_nil (pieces_ne_nil sep s)
      rw [List.cons_append, pieces, ih, pieces, hq]
      split <;> rfl

theorem pieces_append {sep : α} {s : List α} (h : sep ∉ s) (rest : List α) :
    pieces sep (s ++ sep :: rest) = s :: pieces sep rest := by
  rw [pieces_append_cons, pieces_of_not_mem h, List.singleton_append]

/-- Separators that stay separators, and nothing else becomes one: the pieces are changed one by
one. -/
theorem pieces_map {sep : α} {f : α → α} (h : ∀ c, f c = sep ↔ c = sep) (s : List α) :
    pieces sep (s.map f) = (pieces sep s).map (List.map f) := by
  induction s with
  | nil => rfl
  | cons c s ih =>
      obtain ⟨q, qs, hq⟩ := List.exists_cons_of_ne_nil (pieces_ne_nil sep s)
      rw [List.map_cons, pieces, pieces, ih, hq]
      by_cases hc : c = sep
      · rw [if_pos hc, if_pos ((h c).mpr hc)]
        rfl
      · rw [if_neg hc, if_neg (mt (h c).mp hc)]
        rfl

omit [DecidableEq α] in
theorem joined_cons_cons (sep p q : List α) (ps : List (List α)) :
    joined sep (p :: q :: ps) = p ++ (sep ++ joined sep (q :: ps)) := by
  simp [joined, List.intercalate]

omit [DecidableEq α] in
/-- Lists in a row, and then more of them. -/
theorem joined_append (sep : List α) {ps qs : List (List α)} (hp : ps ≠ []) (hq : qs ≠ []) :
    joined sep (ps ++ qs) = joined sep ps ++ (sep ++ joined sep qs) := by
  induction ps with
  | nil => exact absurd rfl hp
  | cons p ps ih =>
      cases ps with
      | nil =>
          obtain ⟨q, qs, rfl⟩ := List.exists_cons_of_ne_nil hq
          rw [List.singleton_append, joined_cons_cons]
          simp [joined, List.intercalate]
      | cons r ps =>
          rw [List.cons_append, List.cons_append, joined_cons_cons, ← List.cons_append,
            ih (List.cons_ne_nil r ps), joined_cons_cons, List.append_assoc, List.append_assoc]

/-- Cutting undoes joining, where no list has the separator. -/
theorem pieces_joined {sep : α} {ps : List (List α)} (hne : ps ≠ []) (h : ∀ p ∈ ps, sep ∉ p) :
    pieces sep (joined [sep] ps) = ps := by
  induction ps with
  | nil => exact absurd rfl hne
  | cons p ps ih =>
      have hp := h p List.mem_cons_self
      cases ps with
      | nil => simpa [joined, List.intercalate] using pieces_of_not_mem hp
      | cons q qs =>
          rw [joined_cons_cons, List.singleton_append, pieces_append hp,
            ih (List.cons_ne_nil q qs) fun r hr => h r (List.mem_cons_of_mem p hr)]

omit [DecidableEq α] in
theorem mem_joined {c : α} {sep : List α} {ps : List (List α)} (h : c ∈ joined sep ps) :
    c ∈ sep ∨ ∃ p ∈ ps, c ∈ p := by
  induction ps with
  | nil => simp [joined, List.intercalate] at h
  | cons p ps ih =>
      cases ps with
      | nil => exact .inr ⟨p, List.mem_cons_self, by simpa [joined, List.intercalate] using h⟩
      | cons q qs =>
          rw [joined_cons_cons, List.mem_append, List.mem_append] at h
          rcases h with h | h | h
          · exact .inr ⟨p, List.mem_cons_self, h⟩
          · exact .inl h
          · exact (ih h).imp_right fun ⟨r, hr, hc⟩ => ⟨r, List.mem_cons_of_mem p hr, hc⟩

omit [DecidableEq α] in
/-- What is joined begins and ends with members of the lists, where none of these is empty. -/
theorem mem_of_mem_ends_joined {c : α} {sep : List α} {ps : List (List α)} (hne : ∀ p ∈ ps, p ≠ [])
    (h : c ∈ (joined sep ps).head? ∨ c ∈ (joined sep ps).getLast?) : ∃ p ∈ ps, c ∈ p := by
  induction ps with
  | nil => simp [joined, List.intercalate] at h
  | cons p ps ih =>
      obtain ⟨hp, hps⟩ := List.forall_mem_cons.mp hne
      cases ps with
      | nil =>
          have hjoined : joined sep [p] = p := by simp [joined, List.intercalate]
          rw [hjoined] at h
          exact ⟨p, List.mem_cons_self, h.elim List.mem_of_mem_head? List.mem_of_mem_getLast?⟩
      | cons q qs =>
          have hrest : joined sep (q :: qs) ≠ [] := by
            obtain ⟨hq, -⟩ := List.forall_mem_cons.mp hps
            cases qs <;> simp [joined, List.intercalate, hq]
          rw [joined_cons_cons, List.head?_append_of_ne_nil _ hp, ← List.append_assoc,
            List.getLast?_append_of_ne_nil _ hrest] at h
          rcases h with h | h
          · exact ⟨p, List.mem_cons_self, List.mem_of_mem_head? h⟩
          · obtain ⟨r, hr, hc⟩ := ih hps (.inr h)
            exact ⟨r, List.mem_cons_of_mem p hr, hc⟩

end RouteScribe
