/-!
# Cutting and joining lists

`pieces` cuts a list at each separator and `joined` puts the pieces together again
(`joined_pieces`).  `replaceAll` replaces the occurrences of a pattern from the left, none of them
overlapping.
-/

namespace RouteScribe

variable {α : Type} [DecidableEq α]

/-- The pieces between separators: one more than there are separators. -/
def pieces (sep : α) : List α → List (List α)
  | [] => [[]]
  | c :: rest =>
    if c = sep then [] :: pieces sep rest
    else
      match pieces sep rest with
      | p :: ps => (c :: p) :: ps
      | [] => [[c]]

/-- The lists in a row with a separator between neighbours. -/
def joined (sep : List α) (ps : List (List α)) : List α := sep.intercalate ps

/-- The part before the first separator and the part behind it, if there is one. -/
def cutAt (sep : α) : List α → List α × Option (List α)
  | [] => ([], none)
  | c :: rest =>
    if c = sep then ([], some rest)
    else (c :: (cutAt sep rest).1, (cutAt sep rest).2)

/-- Replacement that leaves out the next `skip` members, which a match has used. -/
def replaceFrom (pattern new : List α) : Nat → List α → List α
  | _, [] => []
  | skip + 1, _ :: rest => replaceFrom pattern new skip rest
  | 0, c :: rest =>
    if pattern.isPrefixOf (c :: rest) then
      new ++ replaceFrom pattern new (pattern.length - 1) rest
    else c :: replaceFrom pattern new 0 rest

/-- The list with `new` for each occurrence of a nonempty pattern. -/
def replaceAll (pattern new s : List α) : List α := replaceFrom pattern new 0 s

theorem pieces_ne_nil (sep : α) (s : List α) : pieces sep s ≠ [] := by
  cases s with
  | nil => simp [pieces]
  | cons c rest =>
    simp only [pieces]
    split
    · simp
    · split <;> simp

theorem joined_pieces (sep : α) (s : List α) : joined [sep] (pieces sep s) = s := by
  induction s with
  | nil => rfl
  | cons c rest ih =>
    unfold joined at ih ⊢
    simp only [pieces]
    split
    · next h =>
      obtain ⟨p, ps, hp⟩ := List.exists_cons_of_ne_nil (pieces_ne_nil sep rest)
      rw [hp] at ih ⊢
      rw [h, List.intercalate_cons_cons, ih]
      rfl
    · split
      · next p ps hp =>
        rw [hp] at ih
        cases ps with
        | nil => simp_all [List.intercalate]
        | cons q qs =>
          rw [List.intercalate_cons_cons] at ih ⊢
          simp [ih]
      · next hp => exact absurd hp (pieces_ne_nil sep rest)

end RouteScribe
