import RouteScribe.Text.Blank

/-! # What trimming leaves

Trimming takes away a front and an end (`exists_trimBy`), and what it leaves begins and ends with
members that stay (`ends_trimBy`).  So it leaves nothing exactly if every member goes
(`trimBy_eq_nil_iff`), and it takes nothing from what has been trimmed (`trimBy_trimBy`). -/

namespace RouteScribe

variable {α : Type} {p : α → Bool}

theorem forall_mem_takeWhile (l : List α) : ∀ c ∈ l.takeWhile p, p c = true :=
  List.all_eq_true.mp List.all_takeWhile

theorem head?_dropWhile {l : List α} {c : α} (h : c ∈ (l.dropWhile p).head?) : p c = false := by
  have hhead := List.head?_dropWhile_not p l
  rw [h] at hhead
  exact hhead

/-- Behind the front that is taken away stand what trimming leaves and the end that is taken away.
-/
theorem exists_dropWhile_eq (p : α → Bool) (l : List α) :
    ∃ b, (∀ c ∈ b, p c = true) ∧ l.dropWhile p = trimBy p l ++ b := by
  refine ⟨((l.dropWhile p).reverse.takeWhile p).reverse, ?_, ?_⟩
  · intro c hc
    exact forall_mem_takeWhile _ c (List.mem_reverse.mp hc)
  · rw [trimBy, ← List.reverse_append, List.takeWhile_append_dropWhile, List.reverse_reverse]

/-- The list is what trimming leaves, with what it takes away on both sides. -/
theorem exists_trimBy (p : α → Bool) (l : List α) : ∃ a b, (∀ c ∈ a, p c = true) ∧
    (∀ c ∈ b, p c = true) ∧ l = a ++ (trimBy p l ++ b) := by
  obtain ⟨b, hb, hl⟩ := exists_dropWhile_eq p l
  refine ⟨l.takeWhile p, b, forall_mem_takeWhile l, hb, ?_⟩
  rw [← hl, List.takeWhile_append_dropWhile]

/-- What trimming leaves begins and ends with members that it does not take away. -/
theorem ends_trimBy {l : List α} {c : α}
    (h : c ∈ (trimBy p l).head? ∨ c ∈ (trimBy p l).getLast?) : p c = false := by
  rcases h with h | h
  · obtain ⟨b, -, hl⟩ := exists_dropWhile_eq p l
    apply head?_dropWhile (l := l)
    rw [hl, List.head?_append, h]
    rfl
  · rw [trimBy, List.getLast?_reverse] at h
    exact head?_dropWhile h

theorem trimBy_eq_nil_iff {l : List α} : trimBy p l = [] ↔ ∀ c ∈ l, p c = true := by
  obtain ⟨a, b, ha, hb, hl⟩ := exists_trimBy p l
  constructor
  · intro h c hc
    rw [hl, h, List.nil_append, List.mem_append] at hc
    exact hc.elim (ha c) (hb c)
  · intro h
    cases ht : trimBy p l with
    | nil => rfl
    | cons c t =>
        have hc : c ∈ l := by
          rw [hl, ht]
          exact List.mem_append_right a List.mem_cons_self
        have hstays : p c = false := ends_trimBy (.inl (by rw [ht]; rfl))
        rw [h c hc] at hstays
        cases hstays

/-- What trimming leaves as it is comes back when members that go stand around it. -/
theorem trimBy_around {a s b : List α} (ha : ∀ c ∈ a, p c = true) (hb : ∀ c ∈ b, p c = true)
    (hs : trimBy p s = s) : trimBy p (a ++ (s ++ b)) = s :=
  trimBy_append ha hb fun _ hc => ends_trimBy (l := s) (by rwa [hs])

theorem trimBy_trimBy (p : α → Bool) (l : List α) : trimBy p (trimBy p l) = trimBy p l := by
  have hnone : ∀ c ∈ ([] : List α), p c = true := List.forall_mem_nil _
  have h := trimBy_append hnone hnone fun _ hc => ends_trimBy (l := l) hc
  rwa [List.nil_append, List.append_nil] at h

end RouteScribe
