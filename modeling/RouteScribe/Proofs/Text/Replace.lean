import Mathlib.Data.List.Infix
import RouteScribe.Text.Split

/-! # Replacing a pattern

A replacement goes through a list in steps: the pattern, or a member at which it does not stand
(`replace_induction`).  `occurrences` counts the places at which a pattern stands in a list, also
those that overlap.  A pattern that stands nowhere is not replaced (`replaceAll_eq_self`), one that
stands at one place is replaced there and nothing else changes (`replaceAll_once`), and a member
that is not in the pattern cuts the list into two parts that are treated apart
(`occurrences_append_cons`, `replaceAll_append_cons`). -/

namespace RouteScribe

variable {α : Type} [DecidableEq α] {p new : List α}

/-- The number of places at which a pattern stands in a list. -/
def occurrences (p : List α) : List α → Nat
  | [] => 0
  | c :: s => (if p.isPrefixOf (c :: s) then 1 else 0) + occurrences p s

/-! ### One step of a replacement -/

theorem replaceFrom_skip (new a s : List α) :
    replaceFrom p new a.length (a ++ s) = replaceFrom p new 0 s := by
  induction a with
  | nil => rfl
  | cons c a ih => exact ih

theorem replaceAll_cons {c : α} {s : List α} (h : ¬ p <+: c :: s) :
    replaceAll p new (c :: s) = c :: replaceAll p new s := by
  rw [replaceAll, replaceFrom, if_neg (by simpa using h), replaceAll]

theorem replaceAll_pattern (hp : p ≠ []) (new s : List α) :
    replaceAll p new (p ++ s) = new ++ replaceAll p new s := by
  obtain ⟨c, p, rfl⟩ := List.exists_cons_of_ne_nil hp
  have hc : (c :: p).isPrefixOf (c :: (p ++ s)) = true := by simp
  rw [replaceAll, List.cons_append, replaceFrom, if_pos hc, List.length_cons,
    Nat.add_sub_cancel, replaceFrom_skip, replaceAll]

/-- Induction along a replacement, which takes the pattern in one step and every other member in a
step of its own. -/
theorem replace_induction (hp : p ≠ []) {motive : List α → Prop} (nil : motive [])
    (pattern : ∀ s, motive s → motive (p ++ s))
    (cons : ∀ c s, ¬ p <+: c :: s → motive s → motive (c :: s)) (s : List α) : motive s := by
  induction h : s.length using Nat.strong_induction_on generalizing s with
  | _ n ih =>
      subst h
      by_cases hs : p <+: s
      · obtain ⟨t, rfl⟩ := hs
        have hlen : t.length < (p ++ t).length := by
          have := List.length_pos_of_ne_nil hp
          rw [List.length_append]
          omega
        exact pattern t (ih t.length hlen t rfl)
      · cases s with
        | nil => exact nil
        | cons c s => exact cons c s hs (ih s.length (Nat.lt_succ_self _) s rfl)

/-! ### Counting -/

theorem occurrences_cons (p : List α) (c : α) (s : List α) :
    occurrences p (c :: s) = (if p <+: c :: s then 1 else 0) + occurrences p s := by
  simp only [occurrences, List.isPrefixOf_iff_prefix]

theorem occurrences_le_append (p a s : List α) : occurrences p s ≤ occurrences p (a ++ s) := by
  induction a with
  | nil => exact Nat.le_refl _
  | cons c a ih =>
      rw [List.cons_append, occurrences_cons]
      omega

theorem occurrences_pattern (hp : p ≠ []) (s : List α) :
    occurrences p s + 1 ≤ occurrences p (p ++ s) := by
  obtain ⟨c, p, rfl⟩ := List.exists_cons_of_ne_nil hp
  have h := occurrences_le_append (c :: p) p s
  rw [List.cons_append, occurrences_cons, if_pos (by simp)]
  omega

/-- No place is counted if the pattern stands nowhere. -/
theorem occurrences_eq_zero_iff (hp : p ≠ []) {s : List α} :
    occurrences p s = 0 ↔ ¬ p <:+: s := by
  induction s with
  | nil => simp [occurrences, hp]
  | cons c s ih =>
      rw [occurrences_cons, List.infix_cons_iff, not_or, ← ih]
      split
      · next h => simp [h]
      · next h => simp [h]

/-! ### Patterns that stand nowhere or once -/

theorem replaceAll_eq_self {s : List α} (h : occurrences p s = 0) :
    replaceAll p new s = s := by
  induction s with
  | nil => rfl
  | cons c s ih =>
      rw [occurrences_cons] at h
      split at h
      · omega
      · next hc => rw [replaceAll_cons hc, ih (by omega)]

/-- A pattern that stands at one place is replaced there. -/
theorem replaceAll_once (hp : p ≠ []) {a b : List α} (h : occurrences p (a ++ (p ++ b)) = 1) :
    replaceAll p new (a ++ (p ++ b)) = a ++ (new ++ b) := by
  have hone := occurrences_pattern hp b
  induction a with
  | nil =>
      rw [List.nil_append] at h ⊢
      rw [replaceAll_pattern hp, replaceAll_eq_self (by omega), List.nil_append]
  | cons c a ih =>
      have hle := occurrences_le_append p a (p ++ b)
      rw [List.cons_append, occurrences_cons] at h
      split at h
      · omega
      · next hc => rw [List.cons_append, replaceAll_cons hc, ih (by omega), List.cons_append]

/-- A pattern that stands at one place stands at no other. -/
theorem eq_of_occurrences_eq_one (hp : p ≠ []) {a b a' b' : List α}
    (h : occurrences p (a ++ (p ++ b)) = 1) (he : a ++ (p ++ b) = a' ++ (p ++ b')) :
    a = a' ∧ b = b' := by
  have hnone : ∀ {c : α} {x y z : List α}, occurrences p (c :: (x ++ (p ++ y))) = 1 →
      p ++ z = c :: (x ++ (p ++ y)) → False := by
    intro c x y z h he
    have hx := occurrences_le_append p x (p ++ y)
    have hy := occurrences_pattern hp y
    rw [occurrences_cons, if_pos ⟨z, he⟩] at h
    omega
  induction a generalizing a' with
  | nil =>
      cases a' with
      | nil => exact ⟨rfl, List.append_cancel_left he⟩
      | cons c' a' =>
          rw [he] at h
          exact absurd he (hnone h)
  | cons c a ih =>
      cases a' with
      | nil => exact absurd he.symm (hnone h)
      | cons c' a' =>
          injection he with hc he
          have hle := occurrences_le_append p a (p ++ b)
          have hb := occurrences_pattern hp b
          rw [List.cons_append, occurrences_cons] at h
          obtain ⟨rfl, rfl⟩ := ih (by omega) he
          exact ⟨by rw [hc], rfl⟩

/-- A replacement changes the list if the pattern stands anywhere and the new text is told from it
by what it begins with. -/
theorem replaceAll_eq_self_iff (hp : p ≠ []) (hn : ∀ a b, new ++ a ≠ p ++ b) {s : List α} :
    replaceAll p new s = s ↔ occurrences p s = 0 := by
  refine ⟨?_, replaceAll_eq_self⟩
  intro h
  induction s with
  | nil => rfl
  | cons c s ih =>
      by_cases hc : p <+: c :: s
      · obtain ⟨t, ht⟩ := hc
        rw [← ht, replaceAll_pattern hp] at h
        exact absurd h (hn _ _)
      · rw [replaceAll_cons hc] at h
        rw [occurrences_cons, if_neg hc, ih (List.cons.inj h).2]

/-! ### Members that are not in the pattern -/

omit [DecidableEq α] in
theorem prefix_append_cons_iff {x : α} (hx : x ∉ p) (a b : List α) :
    p <+: a ++ x :: b ↔ p <+: a := by
  refine ⟨?_, fun h => h.trans (List.prefix_append a _)⟩
  intro h
  induction p generalizing a with
  | nil => exact List.nil_prefix
  | cons c p ih =>
      rw [List.mem_cons, not_or] at hx
      cases a with
      | nil => exact absurd (List.cons_prefix_cons.mp h).1.symm hx.1
      | cons d a =>
          obtain ⟨hc, hp⟩ := List.cons_prefix_cons.mp h
          exact List.cons_prefix_cons.mpr ⟨hc, ih hx.2 a hp⟩

omit [DecidableEq α] in
theorem not_prefix_cons (hp : p ≠ []) {x : α} (hx : x ∉ p) (b : List α) : ¬ p <+: x :: b := by
  intro h
  exact hp (List.prefix_nil.mp ((prefix_append_cons_iff hx [] b).mp h))

/-- The places before and behind the member are counted apart. -/
theorem occurrences_append_cons (hp : p ≠ []) {x : α} (hx : x ∉ p) (a b : List α) :
    occurrences p (a ++ x :: b) = occurrences p a + occurrences p b := by
  induction a with
  | nil => rw [List.nil_append, occurrences_cons, if_neg (not_prefix_cons hp hx b)]; rfl
  | cons c a ih =>
      have hc := prefix_append_cons_iff hx (c :: a) b
      rw [List.cons_append] at hc
      rw [List.cons_append, occurrences_cons, occurrences_cons, ih, Nat.add_assoc]
      simp only [hc]

/-- What stands before and behind the member is replaced apart. -/
theorem replaceAll_append_cons (hp : p ≠ []) {x : α} (hx : x ∉ p) (a b : List α) :
    replaceAll p new (a ++ x :: b) = replaceAll p new a ++ x :: replaceAll p new b := by
  induction a using replace_induction hp with
  | nil => exact replaceAll_cons (not_prefix_cons hp hx b)
  | pattern a ih =>
      rw [List.append_assoc, replaceAll_pattern hp, replaceAll_pattern hp, ih, List.append_assoc]
  | cons c a hc ih =>
      have hc' : ¬ p <+: c :: (a ++ x :: b) := by
        rwa [← List.cons_append, prefix_append_cons_iff hx]
      rw [List.cons_append, replaceAll_cons hc', replaceAll_cons hc, ih, List.cons_append]

theorem occurrences_append_of_not_mem (hp : p ≠ []) {a : List α} (ha : ∀ x ∈ a, x ∉ p)
    (s : List α) : occurrences p (a ++ s) = occurrences p s := by
  induction a with
  | nil => rfl
  | cons x a ih =>
      rw [List.cons_append, occurrences_cons,
        if_neg (not_prefix_cons hp (ha x List.mem_cons_self) _), Nat.zero_add,
        ih fun y hy => ha y (List.mem_cons_of_mem x hy)]

/-! ### Lists that are written member by member -/

section flatMap

variable {f : α → List α} (hf : ∀ c, f c = [c] ∨ f c ≠ [] ∧ c ∉ p ∧ ∀ x ∈ f c, x ∉ p)
include hf

omit [DecidableEq α] in
theorem prefix_flatMap_iff {q : List α} (hq : q ⊆ p) (s : List α) :
    q <+: s.flatMap f ↔ q <+: s := by
  induction s generalizing q with
  | nil => rfl
  | cons c s ih =>
      cases q with
      | nil => simp
      | cons d q =>
          have hd : d ∈ p := hq List.mem_cons_self
          rw [List.flatMap_cons]
          rcases hf c with hc | ⟨hne, hc, hx⟩
          · rw [hc, List.singleton_append, List.cons_prefix_cons, List.cons_prefix_cons,
              ih fun _ h => hq (List.mem_cons_of_mem d h)]
          · obtain ⟨x, xs, hxs⟩ := List.exists_cons_of_ne_nil hne
            have hdx : d ≠ x := by
              rintro rfl
              exact hx d (hxs ▸ List.mem_cons_self) hd
            have hdc : d ≠ c := by
              rintro rfl
              exact hc hd
            rw [hxs, List.cons_append, List.cons_prefix_cons, List.cons_prefix_cons]
            simp [hdx, hdc]

/-- Writing other members in another way changes nothing about the places of the pattern. -/
theorem occurrences_flatMap (hp : p ≠ []) (s : List α) :
    occurrences p (s.flatMap f) = occurrences p s := by
  induction s with
  | nil => rfl
  | cons c s ih =>
      have hpre := prefix_flatMap_iff hf (List.Subset.refl p) (c :: s)
      rw [List.flatMap_cons] at hpre ⊢
      rcases hf c with hc | ⟨-, hc, hx⟩
      · rw [hc, List.singleton_append] at hpre ⊢
        rw [occurrences_cons, occurrences_cons, ih]
        simp only [hpre]
      · rw [occurrences_append_of_not_mem hp hx, ih, occurrences_cons,
          if_neg (not_prefix_cons hp hc s), Nat.zero_add]

end flatMap

/-! ### Putting a member between two -/

section Pair

variable {x y z : α}

theorem head?_replaceAll_pair (s : List α) :
    (replaceAll [x, y] [x, z, y] s).head? = s.head? := by
  cases s with
  | nil => rfl
  | cons c s =>
      by_cases hc : [x, y] <+: c :: s
      · obtain ⟨t, ht⟩ := hc
        rw [← ht, replaceAll_pattern (List.cons_ne_nil _ _)]
        rfl
      · rw [replaceAll_cons hc]
        rfl

omit [DecidableEq α] in
theorem pair_prefix_iff {c : α} {s : List α} : [x, y] <+: c :: s ↔ x = c ∧ s.head? = some y := by
  cases s <;> simp [List.cons_prefix_cons, eq_comm]

/-- The two do not stand next to each other any more. -/
theorem occurrences_replaceAll_pair (hxy : x ≠ y) (hxz : x ≠ z) (hzy : z ≠ y) (s : List α) :
    occurrences [x, y] (replaceAll [x, y] [x, z, y] s) = 0 := by
  have hp : [x, y] ≠ [] := List.cons_ne_nil _ _
  induction s using replace_induction hp with
  | nil => rfl
  | pattern s ih =>
      rw [replaceAll_pattern hp]
      simp [occurrences_cons, ih, hxy, hxz, hzy.symm]
  | cons c s hc ih =>
      have hc' : ¬ [x, y] <+: c :: replaceAll [x, y] [x, z, y] s := by
        rwa [pair_prefix_iff, head?_replaceAll_pair, ← pair_prefix_iff]
      rw [replaceAll_cons hc, occurrences_cons, if_neg hc', ih]

end Pair

end RouteScribe
