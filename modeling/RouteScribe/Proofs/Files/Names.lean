import RouteScribe.Proofs.Files.Tree
import RouteScribe.Proofs.Text.Split

/-! # Paths and their texts

The names of a path are kept when its text is read: none of them is empty, a single point or holds a
slash (`Path.proper_of_mem_namesOf`).  So the text of a path is read as this path
(`Path.ofChars_shown`), and an ending behind the text of an absolute path goes to its last name
(`Path.withEnding_eq`). -/

namespace RouteScribe

/-- A name that is kept when the text of a path is read. -/
structure FileName.Proper (n : FileName) : Prop where
  ne_nil : n ≠ []
  ne_point : n ≠ ['.']
  no_slash : '/' ∉ n

theorem FileName.Legal.proper {n : FileName} (h : n.Legal) : n.Proper :=
  ⟨h.ne_nil, h.ne_point, h.no_slash⟩

namespace Path

variable {n : FileName} {ns : List FileName} {p : Path}

theorem proper_of_mem_namesOf {s : List Char} (h : n ∈ namesOf s) : n.Proper := by
  obtain ⟨hp, hn⟩ := List.mem_filter.mp h
  rw [Bool.and_eq_true, Bool.not_eq_true', List.isEmpty_eq_false_iff, bne_iff_ne] at hn
  exact ⟨hn.1, hn.2, not_mem_of_mem_pieces hp⟩

theorem namesOf_of_proper (h : n.Proper) : namesOf n = [n] := by
  rw [namesOf, pieces_of_not_mem h.no_slash,
    List.filter_cons_of_pos (by simp [h.ne_nil, h.ne_point])]
  rfl

theorem namesOf_append (h : n.Proper) (t : List Char) :
    namesOf (n ++ '/' :: t) = n :: namesOf t := by
  rw [namesOf, pieces_append h.no_slash,
    List.filter_cons_of_pos (by simp [h.ne_nil, h.ne_point])]
  rfl

theorem namesOf_slash (t : List Char) : namesOf ('/' :: t) = namesOf t := by
  simp [namesOf, pieces]

theorem namesOf_point (t : List Char) : namesOf ('.' :: '/' :: t) = namesOf t := by
  simp [namesOf, pieces]

/-- Names that are joined are read again. -/
theorem namesOf_joined (h : ∀ n ∈ ns, n.Proper) : namesOf (joined ['/'] ns) = ns := by
  induction ns with
  | nil => rfl
  | cons n ns ih =>
      obtain ⟨hn, hns⟩ := List.forall_mem_cons.mp h
      cases ns with
      | nil => simpa [joined, List.intercalate] using namesOf_of_proper hn
      | cons m ns => rw [joined_cons_cons, List.singleton_append, namesOf_append hn, ih hns]

/-- Names that are joined begin with no slash. -/
theorem takeWhile_slash_joined (h : ∀ n ∈ ns, n.Proper) :
    (joined ['/'] ns).takeWhile (· == '/') = [] := by
  cases ns with
  | nil => rfl
  | cons n rest =>
      obtain ⟨hn, -⟩ := List.forall_mem_cons.mp h
      obtain ⟨c, cs, rfl⟩ := List.exists_cons_of_ne_nil hn.ne_nil
      have hc : c ≠ '/' := fun hc => hn.no_slash (hc ▸ List.mem_cons_self)
      cases rest with
      | nil => simp [joined, List.intercalate, hc]
      | cons m rest => simp [joined_cons_cons, hc]

theorem anchorOf_append (a : Anchor) {s : List Char} (h : s.takeWhile (· == '/') = []) :
    anchorOf (a.shown ++ s) = a := by
  cases a <;> simp [anchorOf, Anchor.shown, h]

theorem namesOf_anchor (a : Anchor) (s : List Char) : namesOf (a.shown ++ s) = namesOf s := by
  cases a <;> simp [Anchor.shown, namesOf_slash]

/-- The text of a path is read as the path. -/
theorem ofChars_shown (h : ∀ n ∈ p.names, n.Proper) : ofChars p.shown = p := by
  obtain ⟨a, ns⟩ := p
  unfold shown
  split
  · next hp =>
      obtain ⟨rfl, hns⟩ : a = .relative ∧ ns.isEmpty = true := by simpa using hp
      rw [List.isEmpty_iff.mp hns]
      rfl
  · rw [ofChars, namesOf_anchor, namesOf_joined h, anchorOf_append a (takeWhile_slash_joined h)]

theorem shown_of_absolute (ha : p.anchor ≠ .relative) :
    p.shown = p.anchor.shown ++ joined ['/'] p.names := by
  rw [shown, if_neg (by simp [ha])]

/-- The names with an ending at the last one. -/
def endedNames (ns : List FileName) (ending : List Char) : List FileName :=
  ns.dropLast ++ [ns.getLast?.getD [] ++ '.' :: ending]

theorem joined_endedNames (ns : List FileName) (ending : List Char) :
    joined ['/'] (endedNames ns ending) = joined ['/'] ns ++ '.' :: ending := by
  rcases List.eq_nil_or_concat ns with rfl | ⟨ms, n, rfl⟩
  · simp [endedNames, joined, List.intercalate]
  · rw [List.concat_eq_append, endedNames, List.dropLast_concat, List.getLast?_concat,
      Option.getD_some]
    cases ms with
    | nil => simp [joined, List.intercalate]
    | cons m ms =>
        rw [joined_append _ (List.cons_ne_nil m ms) (List.cons_ne_nil _ []),
          joined_append _ (List.cons_ne_nil m ms) (List.cons_ne_nil n [])]
        simp [joined, List.intercalate]

theorem proper_endedNames (h : ∀ n ∈ ns, n.Proper) {ending : List Char} (hne : ending ≠ [])
    (hs : '/' ∉ ending) : ∀ n ∈ endedNames ns ending, n.Proper := by
  have hlast : '/' ∉ ns.getLast?.getD [] := by
    cases hl : ns.getLast? with
    | none => exact List.not_mem_nil
    | some n => exact (h n (List.mem_of_getLast? hl)).no_slash
  intro n hn
  rcases List.mem_append.mp hn with hn | hn
  · exact h n (List.dropLast_subset ns hn)
  · rw [List.mem_singleton.mp hn]
    refine ⟨by simp, fun heq => hne ?_, by simp [hlast, hs]⟩
    have hlength := congrArg List.length heq
    simp only [List.length_append, List.length_cons, List.length_nil] at hlength
    exact List.length_eq_zero_iff.mp (by omega)

/-- An ending behind the text of an absolute path goes to the last name. -/
theorem withEnding_eq (hp : ∀ n ∈ p.names, n.Proper) (ha : p.anchor ≠ .relative)
    {ending : List Char} (hne : ending ≠ []) (hs : '/' ∉ ending) :
    p.withEnding ending = { p with names := endedNames p.names ending } := by
  let q : Path := { p with names := endedNames p.names ending }
  have hq : q.anchor ≠ .relative := ha
  have hshown : p.shown ++ '.' :: ending = q.shown := by
    rw [shown_of_absolute ha, shown_of_absolute hq, List.append_assoc, ← joined_endedNames]
  rw [withEnding, hshown, ofChars_shown (proper_endedNames hp hne hs)]

end Path
end RouteScribe
