import RouteScribe.Proofs.Routes.Selection
import RouteScribe.Proofs.Text.Trim

/-! # An API path as a pattern for itself

The API path of any text whatever is in normal form (`apiPath_normal`): it begins with a slash, and
has no backslash, no two slashes next to each other, no segment that is a point and no slash at its
end.  Two texts in normal form are compared as they are, because there is nothing at their ends that
could be taken away, so an API path selects the files with this very path and no others, unless it
ends in a star that covers what is below it (`select_apiPath`). -/

namespace RouteScribe
namespace Route

variable {path pattern : List Char} {ms : List FileName}

/-! ### The normal form -/

/-- What is known of the text of an API path. -/
structure Normal (path : List Char) : Prop where
  rooted : path.head? = some '/'
  no_backslash : '\\' ∉ path
  no_double_slash : ¬ ['/', '/'] <:+: path
  no_point : ['.'] ∉ pieces '/' path
  no_slash_at_end : path.getLast? = some '/' → path = ['/']

/-! ### Backslashes -/

/-- What is no bracket and no brace stays where brackets become braces, and nothing else comes. -/
theorem mem_braced_iff {d : Char} (hd : d ∉ ['[', ']', '\x7b', '\x7d']) (s : List Char) :
    d ∈ braced s ↔ d ∈ s := by
  have hmap (t : List Char) : d ∈ t.map asBracket ↔ d ∈ t := by
    simp only [List.mem_map, asBracket_eq_iff hd, exists_eq_right]
  rw [← hmap, braced, map_bracedFrom, hmap]

theorem no_backslash_withSlashes (s : List Char) : '\\' ∉ withSlashes s := by
  intro h
  obtain ⟨c, -, hc⟩ := List.mem_map.mp h
  split at hc
  · exact absurd hc (by decide)
  · next hne => exact hne hc

theorem no_backslash_directory (file : List Char) : '\\' ∉ directory file := by
  intro h
  rw [directory, Path.shown] at h
  split at h
  · exact absurd h (by decide)
  · rcases List.mem_append.mp h with h | h
    · revert h
      cases (Path.ofChars (withSlashes file)).parent.anchor <;> decide
    · rcases mem_joined h with h | ⟨n, hn, hc⟩
      · exact absurd h (by decide)
      · have hpiece := List.mem_of_mem_filter (List.dropLast_subset _ hn)
        exact no_backslash_withSlashes file (mem_of_mem_pieces hpiece hc)

theorem no_backslash_apiPath (file : List Char) : '\\' ∉ apiPath file := by
  obtain ⟨a, b, -, -, htrim⟩ := exists_trimBy (· == '/') (braced (directory file))
  have hkept : '\\' ∉ trimBy (· == '/') (braced (directory file)) := by
    intro h
    apply no_backslash_directory file
    rw [← mem_braced_iff (by decide), htrim]
    exact List.mem_append_right a (List.mem_append_left b h)
  rw [apiPath]
  split
  · decide
  · rw [List.mem_cons, not_or]
    exact ⟨by decide, hkept⟩

/-! ### Slashes and points -/

/-- What stands between the slashes of a path: nothing before the first one, and then its names. -/
theorem mem_pieces_joined (h : ∀ m ∈ ms, FileName.Proper m) {n : List Char}
    (hn : n ∈ pieces '/' ('/' :: joined ['/'] ms)) : n = [] ∨ n ∈ ms := by
  rw [pieces, if_pos rfl, List.mem_cons] at hn
  rcases eq_or_ne ms [] with rfl | hne
  · exact .inl (hn.elim id List.mem_singleton.mp)
  · rwa [pieces_joined hne fun m hm => (h m hm).no_slash] at hn

theorem not_double_slash_joined (h : ∀ m ∈ ms, FileName.Proper m) :
    ¬ ['/', '/'] <:+: '/' :: joined ['/'] ms := by
  rintro ⟨u, v, huv⟩
  rw [List.append_assoc] at huv
  -- Two slashes next to each other have an empty piece between them, and it is not the first one.
  have hpieces : pieces '/' u ++ [] :: pieces '/' v = [] :: pieces '/' (joined ['/'] ms) := by
    have hcut : pieces '/' ('/' :: joined ['/'] ms) = [] :: pieces '/' (joined ['/'] ms) := by
      rw [pieces, if_pos rfl]
    rw [← hcut, ← huv, List.cons_append, pieces_append_cons, List.cons_append, pieces, if_pos rfl,
      List.nil_append]
  obtain ⟨p, ps, hu⟩ := List.exists_cons_of_ne_nil (pieces_ne_nil '/' u)
  rw [hu, List.cons_append] at hpieces
  have hrest := (List.cons.inj hpieces).2
  rcases eq_or_ne ms [] with rfl | hne
  · have hlength := congrArg List.length huv
    simp [joined, List.intercalate] at hlength
    omega
  · rw [pieces_joined hne fun m hm => (h m hm).no_slash] at hrest
    exact (h [] (hrest ▸ List.mem_append_right ps List.mem_cons_self)).ne_nil rfl

/-- The names of a path, with a slash before each of them, are in normal form. -/
theorem normal_joined (h : ∀ m ∈ ms, FileName.Proper m)
    (hbackslash : '\\' ∉ '/' :: joined ['/'] ms) : Normal ('/' :: joined ['/'] ms) where
  rooted := rfl
  no_backslash := hbackslash
  no_double_slash := not_double_slash_joined h
  no_point hpoint := by
    rcases mem_pieces_joined h hpoint with hnil | hm
    · cases hnil
    · exact (h _ hm).ne_point rfl
  no_slash_at_end hlast := by
    rw [List.getLast?_cons] at hlast
    cases hl : (joined ['/'] ms).getLast? with
    | none => rw [List.getLast?_eq_none_iff.mp hl]
    | some c =>
        rw [hl] at hlast
        exact absurd (Option.some.inj hlast) (ends_joined h c (.inr hl))

/-- **Every API path is in normal form.** -/
theorem apiPath_normal (file : List Char) : Normal (apiPath file) := by
  have hbackslash := no_backslash_apiPath file
  obtain ⟨ms, hms, heq⟩ := exists_apiPath_eq file
  rw [heq] at hbackslash ⊢
  exact normal_joined hms hbackslash

/-! ### Selecting -/

/-- Without a star at the end, a pattern in normal form selects itself and nothing else in normal
form. -/
theorem Normal.selects_iff (hpattern : Normal pattern) (hpath : Normal path)
    (hstar : ¬ ['/', '*'] <:+ pattern) : selects pattern path = true ↔ path = pattern := by
  have hcovers : coversBelow pattern = false :=
    Bool.eq_false_iff.mpr (mt List.isSuffixOf_iff_suffix.mp hstar)
  rw [selects, hcovers, if_neg Bool.false_ne_true, withoutSlash_eq_self hpath.no_slash_at_end,
    withoutSlash_eq_self hpattern.no_slash_at_end, beq_iff_eq]

/-- **An API path is a pattern for itself.**  Every API path is in normal form; and as a pattern it
keeps exactly the files that have this API path, in their order, unless it ends in a slash and a
star. -/
theorem select_apiPath :
    (∀ file, Normal (apiPath file)) ∧
    ∀ t, ¬ ['/', '*'] <:+ apiPath t → ∀ files,
      select [apiPath t] files = files.filter fun file => decide (apiPath file = apiPath t) := by
  refine ⟨apiPath_normal, fun t hstar files => ?_⟩
  rw [select, List.isEmpty_cons, if_neg Bool.false_ne_true]
  apply List.filter_congr
  intro file _
  rw [Bool.eq_iff_iff, List.any_cons, List.any_nil, Bool.or_false, decide_eq_true_eq]
  exact (apiPath_normal t).selects_iff (apiPath_normal file) hstar

/-- A text with backslashes, points and doubled slashes keeps the files on the same path, however
they are spelled, and neither those below nor those beside it. -/
theorem select_spelledUser :
    ¬ ['/', '*'] <:+ apiPath "/.//users\\[id]\\route.ts".toList ∧
      select [apiPath "/.//users\\[id]\\route.ts".toList]
          (["users/[id]/route.ts", "users/[id]/posts/route.ts", "users/[name]/route.ts",
            "users//[id]/./route.js"].map String.toList) =
        ["users/[id]/route.ts", "users//[id]/./route.js"].map String.toList := by
  have hstar : ¬ ['/', '*'] <:+ apiPath "/.//users\\[id]\\route.ts".toList := by decide +kernel
  refine ⟨hstar, ?_⟩
  rw [select_apiPath.2 _ hstar]
  decide +kernel

end Route
end RouteScribe
