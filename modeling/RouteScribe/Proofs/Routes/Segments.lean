import RouteScribe.Proofs.Routes.NormalForm

/-! # API paths, segment by segment

A route file is led to by segments: fixed names, and parameters in brackets.  Slashes and backslashes
may stand between them, once or more often, and points before these do not count (`LeadsTo`).  The
API path of the file is made of the same segments, each parameter in braces, however its text is
spelled (`LeadsTo.apiPath_eq`), and the segments can be told from it as long as no fixed name has
braces itself (`apiPath_segments`). -/

namespace RouteScribe
namespace Route

/-! ### Segments -/

/-- A character that stands between segments. -/
def IsSlash (c : Char) : Prop := c = '/' ∨ c = '\\'

/-- A text without brackets and slashes that is not empty. -/
structure Plain (s : List Char) : Prop where
  ne_nil : s ≠ []
  noBracket : '[' ∉ s ∧ ']' ∉ s
  noSlash : '/' ∉ s ∧ '\\' ∉ s

/-- A directory on the way to a route file. -/
inductive Segment where
  | fixed (name : List Char) (plain : Plain name) (noPoint : name ≠ ['.'])
  | parameter (name : List Char) (plain : Plain name)

namespace Segment

/-- The name of the directory. -/
def written : Segment → List Char
  | fixed name _ _ => name
  | parameter name _ => '[' :: (name ++ [']'])

/-- The segment in an API path. -/
def shown : Segment → List Char
  | fixed name _ _ => name
  | parameter name _ => '\x7b' :: (name ++ ['\x7d'])

/-- A fixed name has no braces. -/
def Braceless : Segment → Prop
  | fixed name _ _ => '\x7b' ∉ name ∧ '\x7d' ∉ name
  | parameter _ _ => True

end Segment

/-- The API path of segments. -/
def template (gs : List Segment) : List Char := '/' :: joined ['/'] (gs.map Segment.shown)

/-- The text leads to a route file over the segments. -/
inductive LeadsTo : List Segment → List Char → Prop
  | file {ext : List Char} : '/' ∉ ext ∧ '\\' ∉ ext → LeadsTo [] ("route.".toList ++ ext)
  | slash {c : Char} {gs : List Segment} {s : List Char} :
      IsSlash c → LeadsTo gs s → LeadsTo gs (c :: s)
  | point {c : Char} {gs : List Segment} {s : List Char} :
      IsSlash c → LeadsTo gs s → LeadsTo gs ('.' :: c :: s)
  | enter (g : Segment) {c : Char} {gs : List Segment} {s : List Char} :
      IsSlash c → LeadsTo gs s → LeadsTo (g :: gs) (g.written ++ c :: s)

variable {gs hs : List Segment} {s t name : List Char} {c : Char}

theorem Plain.proper (h : Plain name) (hpoint : name ≠ ['.']) : FileName.Proper name :=
  ⟨h.ne_nil, hpoint, h.noSlash.1⟩

theorem Plain.enclosed (h : Plain name) {o c : Char} (ho : o ≠ '/' ∧ o ≠ '.') (hc : c ≠ '/') :
    FileName.Proper (o :: (name ++ [c])) := by
  refine ⟨List.cons_ne_nil _ _, by simp [ho.2], ?_⟩
  simp [ho.1.symm, h.noSlash.1, hc.symm]

theorem Segment.proper_written (g : Segment) : FileName.Proper g.written := by
  cases g with
  | fixed name plain noPoint => exact plain.proper noPoint
  | parameter name plain => exact plain.enclosed (by decide) (by decide)

theorem Segment.proper_shown (g : Segment) : FileName.Proper g.shown := by
  cases g with
  | fixed name plain noPoint => exact plain.proper noPoint
  | parameter name plain => exact plain.enclosed (by decide) (by decide)

theorem Segment.noBackslash_written (g : Segment) : '\\' ∉ g.written := by
  cases g with
  | fixed name plain noPoint => exact plain.noSlash.2
  | parameter name plain => simp [written, plain.noSlash.2]

/-! ### Brackets and braces -/

theorem bracedFrom_true_append (h : ']' ∉ s) (t : List Char) :
    bracedFrom true (s ++ t) = s ++ bracedFrom true t := by
  induction s with
  | nil => rfl
  | cons c s ih =>
      rw [List.mem_cons, not_or] at h
      rw [List.cons_append, bracedFrom, if_neg (Ne.symm h.1), ih h.2]
      rfl

/-- The brackets of a parameter become braces, and what stands behind it plays no part. -/
theorem braced_written_append (g : Segment) (t : List Char) :
    braced (g.written ++ t) = g.shown ++ braced t := by
  cases g with
  | fixed name plain noPoint => exact bracedFrom_false_append plain.noBracket.1 t
  | parameter name plain =>
      have hopens : opensName (name ++ ']' :: t) = true := by
        obtain ⟨c, cs, rfl⟩ := List.exists_cons_of_ne_nil plain.ne_nil
        have hc : c ≠ ']' := fun hc => plain.noBracket.2 (hc ▸ List.mem_cons_self)
        simp [opensName, hc]
      have hin : (Segment.parameter name plain).written ++ t = '[' :: (name ++ ']' :: t) := by
        simp [Segment.written]
      have hout : (Segment.parameter name plain).shown ++ braced t =
          '\x7b' :: (name ++ '\x7d' :: bracedFrom false t) := by
        simp [Segment.shown, braced]
      rw [hin, hout, braced, bracedFrom, if_pos (by simp [hopens]),
        bracedFrom_true_append plain.noBracket.2, bracedFrom, if_pos rfl]

theorem braced_joined (gs : List Segment) :
    braced (joined ['/'] (gs.map Segment.written)) = joined ['/'] (gs.map Segment.shown) := by
  induction gs with
  | nil => rfl
  | cons g gs ih =>
      cases gs with
      | nil =>
          have hone := braced_written_append g []
          rw [List.append_nil] at hone
          simpa [joined, List.intercalate, braced, bracedFrom] using hone
      | cons h gs =>
          have hslash (t : List Char) : braced ('/' :: t) = '/' :: braced t :=
            bracedFrom_false_append (s := ['/']) (by decide) t
          rw [List.map_cons, List.map_cons] at ih ⊢
          rw [List.map_cons, joined_cons_cons, List.singleton_append, braced_written_append, hslash,
            ih, List.map_cons, joined_cons_cons, List.singleton_append]

/-! ### Directories -/

theorem withSlashes_append (s t : List Char) :
    withSlashes (s ++ t) = withSlashes s ++ withSlashes t := List.map_append

theorem withSlashes_cons (hc : IsSlash c) (s : List Char) :
    withSlashes (c :: s) = '/' :: withSlashes s := by
  rcases hc with rfl | rfl <;> rfl

theorem withSlashes_eq_self (h : '\\' ∉ s) : withSlashes s = s := by
  refine (List.map_congr_left fun c hc => ?_).trans (List.map_id s)
  have hne : c ≠ '\\' := fun heq => h (heq ▸ hc)
  exact if_neg hne

/-- The names in the text are those of the segments, and one more for the file. -/
theorem LeadsTo.exists_namesOf (h : LeadsTo gs s) :
    ∃ file, Path.namesOf (withSlashes s) = gs.map Segment.written ++ [file] := by
  induction h with
  | @file ext hext =>
      have hslash : '/' ∉ "route.".toList ++ ext := by
        rw [List.mem_append, not_or]
        exact ⟨by decide, hext.1⟩
      have hbackslash : '\\' ∉ "route.".toList ++ ext := by
        rw [List.mem_append, not_or]
        exact ⟨by decide, hext.2⟩
      have hproper : FileName.Proper ("route.".toList ++ ext) := ⟨nofun, nofun, hslash⟩
      refine ⟨"route.".toList ++ ext, ?_⟩
      rw [withSlashes_eq_self hbackslash, Path.namesOf_of_proper hproper]
      rfl
  | @slash c gs s hc _ ih =>
      obtain ⟨file, hfile⟩ := ih
      exact ⟨file, by rw [withSlashes_cons hc, Path.namesOf_slash, hfile]⟩
  | @point c gs s hc _ ih =>
      obtain ⟨file, hfile⟩ := ih
      have hpoint : withSlashes ('.' :: c :: s) = '.' :: withSlashes (c :: s) := rfl
      exact ⟨file, by rw [hpoint, withSlashes_cons hc, Path.namesOf_point, hfile]⟩
  | @enter g c gs s hc _ ih =>
      obtain ⟨file, hfile⟩ := ih
      refine ⟨file, ?_⟩
      rw [withSlashes_append, withSlashes_eq_self g.noBackslash_written, withSlashes_cons hc,
        Path.namesOf_append g.proper_written, hfile]
      rfl

/-- The directory of the file is a point, or the segments behind the slashes of a root. -/
theorem LeadsTo.directory_eq (h : LeadsTo gs s) : gs = [] ∧ directory s = ['.'] ∨
    ∃ a : Anchor, directory s = a.shown ++ joined ['/'] (gs.map Segment.written) := by
  obtain ⟨file, hnames⟩ := h.exists_namesOf
  have hparent : (Path.ofChars (withSlashes s)).parent =
      ⟨Path.anchorOf (withSlashes s), gs.map Segment.written⟩ := by
    rw [Path.parent, Path.ofChars, hnames, List.dropLast_concat]
  rw [directory, hparent, Path.shown]
  split
  · next hempty =>
      have hnil := List.isEmpty_iff.mp (Bool.and_eq_true_iff.mp hempty).2
      exact .inl ⟨List.map_eq_nil_iff.mp hnil, rfl⟩
  · exact .inr ⟨_, rfl⟩

/-! ### API paths -/

theorem namesOf_template (gs : List Segment) :
    Path.namesOf (joined ['/'] (gs.map Segment.shown)) = gs.map Segment.shown :=
  Path.namesOf_joined (List.forall_mem_map.mpr fun g _ => g.proper_shown)

/-- The API path of a route file has its segments, however they are spelled. -/
theorem LeadsTo.apiPath_eq (h : LeadsTo gs s) : apiPath s = template gs := by
  rcases h.directory_eq with ⟨rfl, hdir⟩ | ⟨a, hdir⟩
  · rw [apiPath, hdir]
    rfl
  · exact apiPath_of_directory hdir (braced_joined gs)
      (List.forall_mem_map.mpr fun g _ => g.proper_shown)

theorem Segment.eq_of_shown_eq {g h : Segment} (hg : g.Braceless) (hh : h.Braceless)
    (heq : g.shown = h.shown) : g = h := by
  cases g with
  | fixed name plain noPoint =>
      cases h with
      | fixed name' plain' noPoint' =>
          obtain rfl : name = name' := heq
          rfl
      | parameter name' plain' =>
          obtain rfl : name = '\x7b' :: (name' ++ ['\x7d']) := heq
          exact absurd List.mem_cons_self hg.1
  | parameter name plain =>
      cases h with
      | fixed name' plain' noPoint' =>
          obtain rfl : '\x7b' :: (name ++ ['\x7d']) = name' := heq
          exact absurd List.mem_cons_self hh.1
      | parameter name' plain' =>
          obtain rfl : name = name' := List.append_cancel_right (List.cons.inj heq).2
          rfl

/-- Segments can be told from an API path. -/
theorem eq_of_template_eq (hg : ∀ g ∈ gs, g.Braceless) (hh : ∀ h ∈ hs, h.Braceless)
    (heq : template gs = template hs) : gs = hs := by
  have hshown : gs.map Segment.shown = hs.map Segment.shown := by
    rw [← namesOf_template gs, ← namesOf_template hs, (List.cons.inj heq).2]
  clear heq
  induction gs generalizing hs with
  | nil => exact (List.map_eq_nil_iff.mp hshown.symm).symm
  | cons g gs ih =>
      cases hs with
      | nil => cases hshown
      | cons h hs =>
          rw [List.forall_mem_cons] at hg hh
          obtain ⟨hfirst, hrest⟩ := List.cons.inj hshown
          rw [Segment.eq_of_shown_eq hg.1 hh.1 hfirst, ih hg.2 hh.2 hrest]

/-- Segments with one slash between neighbours lead to a route file behind them. -/
theorem leadsTo_joined (gs : List Segment) {ext : List Char} (hext : '/' ∉ ext ∧ '\\' ∉ ext) :
    LeadsTo gs (joined ['/'] (gs.map Segment.written) ++ '/' :: ("route.".toList ++ ext)) := by
  induction gs with
  | nil => exact .slash (.inl rfl) (.file hext)
  | cons g gs ih =>
      cases gs with
      | nil =>
          have hone : joined ['/'] ([g].map Segment.written) = g.written := by
            simp [joined, List.intercalate]
          rw [hone]
          exact .enter g (.inl rfl) (.file hext)
      | cons h gs =>
          rw [List.map_cons, List.map_cons, joined_cons_cons, List.append_assoc, List.append_assoc]
          exact .enter g (.inl rfl) ih

/-- **API paths segment by segment.**  The API path of a route file is a slash and the segments that
lead to it, the parameters in braces, with slashes between them.  It is the same however often and in
which form the slashes are written, and with points and slashes in front.  Where fixed names have no
braces, different segments have different API paths. -/
theorem apiPath_segments (gs : List Segment) :
    (∀ ext : List Char, '/' ∉ ext ∧ '\\' ∉ ext →
      apiPath (joined ['/'] (gs.map Segment.written) ++ '/' :: ("route.".toList ++ ext)) =
        '/' :: joined ['/'] (gs.map Segment.shown)) ∧
    (∀ s, LeadsTo gs s → apiPath s = '/' :: joined ['/'] (gs.map Segment.shown)) ∧
    ∀ hs s t, LeadsTo gs s → LeadsTo hs t →
      (∀ g ∈ gs, g.Braceless) → (∀ h ∈ hs, h.Braceless) → apiPath s = apiPath t → gs = hs := by
  refine ⟨fun ext hext => (leadsTo_joined gs hext).apiPath_eq, fun s h => h.apiPath_eq, ?_⟩
  intro hs s t hplace hplace' hg hh heq
  rw [hplace.apiPath_eq, hplace'.apiPath_eq] at heq
  exact eq_of_template_eq hg hh heq

/-- The segments of a route for one user. -/
def userById : List Segment :=
  [.fixed "users".toList ⟨by decide, by decide, by decide⟩ (by decide),
    .parameter "id".toList ⟨by decide, by decide, by decide⟩]

theorem apiPath_userById :
    ('/' ∉ "ts".toList ∧ '\\' ∉ "ts".toList) ∧ (∀ g ∈ userById, g.Braceless) ∧
      LeadsTo userById "./users\\[id]//route.ts".toList ∧
      apiPath "users/[id]/route.ts".toList = "/users/\x7bid\x7d".toList ∧
      apiPath "./users\\[id]//route.ts".toList = "/users/\x7bid\x7d".toList ∧
      ∃ gs, LeadsTo gs "/users/[id]/route.ts".toList ∧ (∀ g ∈ gs, g.Braceless) ∧
        apiPath "/users/[id]/route.ts".toList = apiPath "./users\\[id]//route.ts".toList ∧
        gs = userById := by
  obtain ⟨hjoined, hspelled, hinjective⟩ := apiPath_segments userById
  have hext : '/' ∉ "ts".toList ∧ '\\' ∉ "ts".toList := by decide
  have hbraceless : ∀ g ∈ userById, g.Braceless := by
    simp [userById, Segment.Braceless]
  have hrooted : LeadsTo userById "/users/[id]/route.ts".toList :=
    .slash (.inl rfl) (.enter _ (.inl rfl) (.enter _ (.inl rfl) (.file hext)))
  have hmixed : LeadsTo userById "./users\\[id]//route.ts".toList :=
    .point (.inl rfl) (.enter _ (.inr rfl) (.enter _ (.inl rfl) (.slash (.inl rfl) (.file hext))))
  have hshown : '/' :: joined ['/'] (userById.map Segment.shown) = "/users/\x7bid\x7d".toList := by
    decide
  have hsame := (hspelled _ hrooted).trans (hspelled _ hmixed).symm
  refine ⟨hext, hbraceless, hmixed, (hjoined _ hext).trans hshown,
    (hspelled _ hmixed).trans hshown, userById, hrooted, hbraceless, hsame, ?_⟩
  exact hinjective _ _ _ hrooted hmixed hbraceless hbraceless hsame

end Route
end RouteScribe
