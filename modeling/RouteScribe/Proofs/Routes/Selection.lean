import RouteScribe.Proofs.Routes.NormalForm

/-! # Patterns select by segments

A pattern names the segments of one API path, or of a path with everything below it (`Pattern`).
Patterns are written as texts, with commas between them and blanks around them (`Entry`), and a list
of files is cut down to those whose API paths they select.

The tests for this compare texts, and `select_patterns` says that they come to the same as comparing
segments: an API path is determined by its segments (`apiPath_eq_segments`), and one of them goes on
behind another one with a slash exactly if its segments go on. -/

namespace RouteScribe
namespace Route

/-! ### Segments of a path -/

/-- What stands between the slashes of an API path; the root has no segments. -/
def segments (path : List Char) : List (List Char) :=
  if path = ['/'] then [] else (pieces '/' path).tail

variable {ns ms : List (List Char)} {file path : List Char}

theorem joined_ne_nil (hne : ns ≠ []) (h : ∀ n ∈ ns, n ≠ []) : joined ['/'] ns ≠ [] := by
  obtain ⟨n, rest, rfl⟩ := List.exists_cons_of_ne_nil hne
  have hn := h n List.mem_cons_self
  cases rest with
  | nil => simpa [joined, List.intercalate] using hn
  | cons m rest => simp [joined_cons_cons]

/-- Segments that are joined are read again. -/
theorem segments_joined (h : ∀ n ∈ ns, n ≠ [] ∧ '/' ∉ n) :
    segments ('/' :: joined ['/'] ns) = ns := by
  rcases eq_or_ne ns [] with rfl | hne
  · rfl
  · have hroot : '/' :: joined ['/'] ns ≠ ['/'] := by
      intro heq
      exact joined_ne_nil hne (fun n hn => (h n hn).1) (List.cons.inj heq).2
    rw [segments, if_neg hroot, pieces, if_pos rfl, List.tail_cons,
      pieces_joined hne fun n hn => (h n hn).2]

/-- An API path is determined by its segments. -/
theorem apiPath_eq_segments (file : List Char) :
    (∀ n ∈ segments (apiPath file), FileName.Proper n) ∧
      apiPath file = '/' :: joined ['/'] (segments (apiPath file)) := by
  obtain ⟨ms, hms, heq⟩ := exists_apiPath_eq file
  have hsegments : segments (apiPath file) = ms := by
    rw [heq, segments_joined fun m hm => ⟨(hms m hm).ne_nil, (hms m hm).no_slash⟩]
  rw [hsegments]
  exact ⟨hms, heq⟩

/-! ### Patterns -/

/-- A text that can be a segment of a pattern. -/
structure Nameable (n : List Char) : Prop where
  ne_nil : n ≠ []
  clean : ∀ c ∈ n, c ≠ '/' ∧ c ≠ ',' ∧ isBlank c = false

theorem Nameable.separate {n : List Char} (h : Nameable n) : n ≠ [] ∧ '/' ∉ n :=
  ⟨h.ne_nil, fun hc => (h.clean _ hc).1 rfl⟩

theorem Nameable.of_all {n : List Char} (hne : n ≠ [])
    (h : (n.all fun c => c != '/' && c != ',' && !isBlank c) = true) : Nameable n := by
  refine ⟨hne, fun c hc => ?_⟩
  simpa [and_assoc] using List.all_eq_true.mp h c hc

/-- What a pattern asks for. -/
inductive Pattern where
  /-- The path with these segments.  One more slash may stand at the end of the text. -/
  | exactly (names : List (List Char)) (nameable : ∀ n ∈ names, Nameable n)
      (noStar : names.getLast? ≠ some ['*']) (extraSlash : Bool)
  /-- The path with these segments and all paths below it. -/
  | below (names : List (List Char)) (nameable : ∀ n ∈ names, Nameable n)

namespace Pattern

/-- The pattern as it is written. -/
def text : Pattern → List Char
  | exactly names _ _ extraSlash => '/' :: (joined ['/'] names ++ if extraSlash then ['/'] else [])
  | below names _ => '/' :: joined ['/'] (names ++ [['*']])

/-- The pattern selects a path with these segments. -/
def Covers : Pattern → List (List Char) → Prop
  | exactly names _ _ _, found => found = names
  | below names _, found => names <+: found

instance (p : Pattern) (found : List (List Char)) : Decidable (p.Covers found) :=
  match p with
  | exactly names _ _ _ => inferInstanceAs (Decidable (found = names))
  | below names _ => inferInstanceAs (Decidable (names <+: found))

end Pattern

/-! ### One pattern and one path -/

theorem withoutSlash_concat (h : path ≠ []) : withoutSlash (path ++ ['/']) = path := by
  have hlength : (path ++ ['/']).length > 1 := by
    have hpos := List.length_pos_iff.mpr h
    rw [List.length_append, List.length_singleton]
    omega
  rw [withoutSlash, if_pos, List.dropLast_concat]
  rw [Bool.and_eq_true, decide_eq_true_eq, List.getLast?_concat]
  exact ⟨hlength, beq_self_eq_true _⟩

/-- A text that does not end in a slash stays, and so does the slash alone. -/
theorem withoutSlash_eq_self (h : path.getLast? = some '/' → path = ['/']) :
    withoutSlash path = path := by
  rw [withoutSlash]
  apply if_neg
  rw [Bool.and_eq_true, beq_iff_eq, decide_eq_true_eq]
  rintro ⟨hlength, hlast⟩
  rw [h hlast] at hlength
  exact absurd hlength (by decide)

/-- Joined segments have no slash at the end that could be taken away. -/
theorem withoutSlash_joined (h : ∀ n ∈ ns, n ≠ [] ∧ '/' ∉ n) :
    withoutSlash ('/' :: joined ['/'] ns) = '/' :: joined ['/'] ns := by
  apply withoutSlash_eq_self
  intro hlast
  rcases eq_or_ne (joined ['/'] ns) [] with hnil | hne
  · rw [hnil]
  · obtain ⟨c, cs, hcs⟩ := List.exists_cons_of_ne_nil hne
    rw [hcs, List.getLast?_cons_cons, ← hcs] at hlast
    obtain ⟨n, hn, hc⟩ := mem_of_mem_ends_joined (fun n hn => (h n hn).1) (.inr hlast)
    exact absurd hc (h n hn).2

/-- The text of a pattern that does not end in a star covers nothing but its path. -/
theorem coversBelow_joined (h : ∀ n ∈ ns, n ≠ [] ∧ '/' ∉ n) (hlast : ns.getLast? ≠ some ['*']) :
    coversBelow ('/' :: joined ['/'] ns) = false := by
  apply Bool.eq_false_iff.mpr
  intro hcovers
  obtain ⟨t, ht⟩ := List.isSuffixOf_iff_suffix.mp hcovers
  -- Read piece by piece, the text has the segments behind its first slash, and the star at its end.
  have hpieces : [] :: pieces '/' (joined ['/'] ns) = pieces '/' t ++ [['*']] :=
    (congrArg (pieces '/') ht).symm.trans (pieces_append_cons '/' t ['*'])
  have hstar := congrArg List.getLast? hpieces
  rw [List.getLast?_concat] at hstar
  rcases eq_or_ne ns [] with rfl | hne
  · exact absurd hstar (by decide)
  · obtain ⟨n, rest, rfl⟩ := List.exists_cons_of_ne_nil hne
    rw [pieces_joined hne fun n hn => (h n hn).2, List.getLast?_cons_cons] at hstar
    exact hlast hstar

theorem coversBelow_concat (path : List Char) : coversBelow (path ++ ['/']) = false := by
  apply Bool.eq_false_iff.mpr
  intro hcovers
  obtain ⟨t, ht⟩ := List.isSuffixOf_iff_suffix.mp hcovers
  have hlast : (t ++ ['/', '*']).getLast? = some '/' := by rw [ht, List.getLast?_concat]
  rw [List.getLast?_append_of_ne_nil _ (List.cons_ne_nil _ _)] at hlast
  exact absurd hlast (by decide)

/-- A path is another one or goes on behind it with a slash exactly if its segments begin with those
of the other one. -/
theorem below_iff (hn : ∀ n ∈ ns, n ≠ [] ∧ '/' ∉ n) (hm : ∀ m ∈ ms, m ≠ [] ∧ '/' ∉ m)
    (hne : ns ≠ []) :
    joined ['/'] ms = joined ['/'] ns ∨ joined ['/'] ns ++ ['/'] <+: joined ['/'] ms ↔
      ns <+: ms := by
  have hslash : ∀ n ∈ ns, '/' ∉ n := fun n h => (hn n h).2
  constructor
  · intro h
    have hms : ms ≠ [] := by
      rintro rfl
      rcases h with heq | hprefix
      · exact joined_ne_nil hne (fun n h => (hn n h).1) heq.symm
      · exact List.cons_ne_nil _ _ (List.append_eq_nil_iff.mp (List.prefix_nil.mp hprefix)).2
    rw [← pieces_joined hms fun m h => (hm m h).2]
    rcases h with heq | ⟨t, ht⟩
    · have hsame : pieces '/' (joined ['/'] ms) = ns := heq ▸ pieces_joined hne hslash
      exact hsame.symm ▸ List.prefix_refl ns
    · rw [← ht, List.append_assoc, List.singleton_append, pieces_append_cons,
        pieces_joined hne hslash]
      exact List.prefix_append ns _
  · rintro ⟨rest, rfl⟩
    rcases eq_or_ne rest [] with rfl | hrest
    · exact .inl (by rw [List.append_nil])
    · refine .inr ⟨joined ['/'] rest, ?_⟩
      rw [joined_append ['/'] hne hrest, List.append_assoc]

/-- A pattern for everything below a path selects the paths whose segments begin with its own. -/
theorem selects_below (hn : ∀ n ∈ ns, n ≠ [] ∧ '/' ∉ n) (hm : ∀ m ∈ ms, m ≠ [] ∧ '/' ∉ m) :
    selects ('/' :: joined ['/'] (ns ++ [['*']])) ('/' :: joined ['/'] ms) = true ↔ ns <+: ms := by
  rcases eq_or_ne ns [] with rfl | hne
  · have hall : selects ('/' :: joined ['/'] ([] ++ [['*']])) ('/' :: joined ['/'] ms) = true := by
      simp [joined, List.intercalate, selects, coversBelow]
    exact iff_of_true hall List.nil_prefix
  · have htext : '/' :: joined ['/'] (ns ++ [['*']]) = ('/' :: joined ['/'] ns) ++ ['/', '*'] := by
      rw [joined_append ['/'] hne (List.cons_ne_nil _ _)]
      simp [joined, List.intercalate]
    have hcovers : coversBelow ('/' :: joined ['/'] (ns ++ [['*']])) = true :=
      List.isSuffixOf_iff_suffix.mpr ⟨_, htext.symm⟩
    have habove : ('/' :: joined ['/'] (ns ++ [['*']])).dropLast = '/' :: joined ['/'] ns ++ ['/'] := by
      rw [htext, List.dropLast_append_of_ne_nil (List.cons_ne_nil _ _)]
      rfl
    rw [selects, if_pos hcovers, habove]
    dsimp only
    rw [List.dropLast_concat, Bool.or_eq_true, beq_iff_eq, List.isPrefixOf_iff_prefix,
      List.cons_append, List.prefix_cons_inj, List.cons_inj_right]
    exact below_iff hn hm hne

theorem selects_exactly (hn : ∀ n ∈ ns, n ≠ [] ∧ '/' ∉ n) (hm : ∀ m ∈ ms, m ≠ [] ∧ '/' ∉ m)
    (hlast : ns.getLast? ≠ some ['*']) (extraSlash : Bool) :
    selects ('/' :: (joined ['/'] ns ++ if extraSlash then ['/'] else []))
      ('/' :: joined ['/'] ms) = true ↔ ms = ns := by
  have htext : coversBelow ('/' :: (joined ['/'] ns ++ if extraSlash then ['/'] else [])) = false ∧
      withoutSlash ('/' :: (joined ['/'] ns ++ if extraSlash then ['/'] else [])) =
        '/' :: joined ['/'] ns := by
    cases extraSlash with
    | true =>
        exact ⟨coversBelow_concat ('/' :: joined ['/'] ns), withoutSlash_concat (List.cons_ne_nil _ _)⟩
    | false =>
        rw [if_neg Bool.false_ne_true, List.append_nil]
        exact ⟨coversBelow_joined hn hlast, withoutSlash_joined hn⟩
  rw [selects, if_neg (by rw [htext.1]; exact Bool.false_ne_true), htext.2, withoutSlash_joined hm,
    beq_iff_eq]
  constructor
  · intro heq
    rw [← segments_joined hm, heq, segments_joined hn]
  · rintro rfl
    rfl

/-- A pattern selects a path exactly if it covers its segments. -/
theorem selects_text (p : Pattern) (file : List Char) :
    selects p.text (apiPath file) = true ↔ p.Covers (segments (apiPath file)) := by
  obtain ⟨hproper, hpath⟩ := apiPath_eq_segments file
  have hm : ∀ m ∈ segments (apiPath file), m ≠ [] ∧ '/' ∉ m :=
    fun m h => ⟨(hproper m h).ne_nil, (hproper m h).no_slash⟩
  have hselects : selects p.text ('/' :: joined ['/'] (segments (apiPath file))) = true ↔
      p.Covers (segments (apiPath file)) := by
    cases p with
    | exactly names nameable noStar extraSlash =>
        exact selects_exactly (fun n h => (nameable n h).separate) hm noStar extraSlash
    | below names nameable => exact selects_below (fun n h => (nameable n h).separate) hm
  rwa [← hpath] at hselects

/-! ### Lists of patterns -/

/-- A pattern in a list, with the blanks around it. -/
structure Entry where
  before : List Char
  pattern : Pattern
  after : List Char
  blank : ∀ c ∈ before ++ after, isBlank c = true

/-- The entry as it is written. -/
def Entry.text (e : Entry) : List Char := e.before ++ (e.pattern.text ++ e.after)

theorem mem_text_joined {c : Char} (h : ∀ n ∈ ns, Nameable n) (hc : c ∈ joined ['/'] ns) :
    c ≠ ',' ∧ isBlank c = false := by
  rcases mem_joined hc with hc | ⟨n, hn, hc⟩
  · cases List.mem_singleton.mp hc
    decide
  · exact ((h n hn).clean c hc).2

/-- Patterns are written without commas and blanks. -/
theorem Pattern.clean_text (p : Pattern) : ∀ c ∈ p.text, c ≠ ',' ∧ isBlank c = false := by
  intro c hc
  cases p with
  | exactly names nameable noStar extraSlash =>
      rcases List.mem_cons.mp hc with rfl | hc
      · decide
      · rcases List.mem_append.mp hc with hc | hc
        · exact mem_text_joined nameable hc
        · split at hc
          · cases List.mem_singleton.mp hc
            decide
          · exact absurd hc List.not_mem_nil
  | below names nameable =>
      rcases List.mem_cons.mp hc with rfl | hc
      · decide
      · refine mem_text_joined ?_ hc
        intro n hn
        rcases List.mem_append.mp hn with hn | hn
        · exact nameable n hn
        · cases List.mem_singleton.mp hn
          exact ⟨List.cons_ne_nil _ _, List.forall_mem_singleton.mpr (by decide)⟩

theorem Pattern.text_ne_nil (p : Pattern) : p.text ≠ [] := by
  cases p <;> exact List.cons_ne_nil _ _

/-- An entry is its pattern when the blanks are taken away. -/
theorem Entry.trim_text (e : Entry) : trim e.text = e.pattern.text := by
  apply trimBy_append
  · exact fun c hc => e.blank c (List.mem_append_left _ hc)
  · exact fun c hc => e.blank c (List.mem_append_right _ hc)
  · intro c hc
    exact (e.pattern.clean_text c (hc.elim List.mem_of_mem_head? List.mem_of_mem_getLast?)).2

theorem Entry.no_comma (e : Entry) : ',' ∉ e.text := by
  have hblank : ∀ c ∈ e.before ++ e.after, c ≠ ',' := by
    rintro c hc rfl
    exact absurd (e.blank _ hc) (by decide)
  intro hc
  rcases List.mem_append.mp hc with hc | hc
  · exact hblank _ (List.mem_append_left _ hc) rfl
  · rcases List.mem_append.mp hc with hc | hc
    · exact (e.pattern.clean_text _ hc).1 rfl
    · exact hblank _ (List.mem_append_right _ hc) rfl

/-- A list of entries is read as the patterns in it. -/
theorem patterns_joined {es : List Entry} (hne : es ≠ []) :
    patterns (joined [','] (es.map Entry.text)) = es.map fun e => e.pattern.text := by
  have hpieces : pieces ',' (joined [','] (es.map Entry.text)) = es.map Entry.text :=
    pieces_joined (mt List.map_eq_nil_iff.mp hne) (List.forall_mem_map.mpr fun e _ => e.no_comma)
  have htrim : (es.map Entry.text).map trim = es.map fun e => e.pattern.text := by
    rw [List.map_map]
    exact List.map_congr_left fun e _ => e.trim_text
  rw [patterns, hpieces, htrim, List.filter_eq_self, List.forall_mem_map]
  intro e _
  rw [Bool.not_eq_true', List.isEmpty_eq_false_iff]
  exact e.pattern.text_ne_nil

/-- **Patterns select by segments.**  A list of patterns, read from its text, keeps exactly the files
whose API paths have segments that one of the patterns covers, in their order. -/
theorem select_patterns {es : List Entry} (hne : es ≠ []) (files : List (List Char)) :
    select (patterns (joined [','] (es.map Entry.text))) files =
      files.filter fun file => decide (∃ e ∈ es, e.pattern.Covers (segments (apiPath file))) := by
  have hsome : (es.map fun e => e.pattern.text).isEmpty = false := by
    rw [List.isEmpty_eq_false_iff]
    exact mt List.map_eq_nil_iff.mp hne
  rw [patterns_joined hne, select, if_neg (by rw [hsome]; exact Bool.false_ne_true)]
  apply List.filter_congr
  intro file _
  rw [Bool.eq_iff_iff, List.any_map, List.any_eq_true, decide_eq_true_eq]
  exact exists_congr fun e => and_congr_right fun _ => selects_text e.pattern file

/-- Two patterns, one of them for everything below a path. -/
def usersAndHealth : List Entry :=
  [⟨[' '], .below ["users".toList] (List.forall_mem_singleton.mpr (.of_all (by decide) (by decide))),
      [' '], List.all_eq_true.mp (by decide)⟩,
    ⟨['\t'], .exactly ["health".toList]
      (List.forall_mem_singleton.mpr (.of_all (by decide) (by decide))) (by decide) true, [],
      List.all_eq_true.mp (by decide)⟩]

/-- The path itself counts as below it, and a path that only begins with the same letters does not. -/
theorem select_usersAndHealth :
    usersAndHealth ≠ [] ∧
      joined [','] (usersAndHealth.map Entry.text) = " /users/* ,\t/health/".toList ∧
      select (patterns " /users/* ,\t/health/".toList)
          (["health/route.ts", "users2/route.ts", "users/route.ts", "users/[id]/route.ts"].map
            String.toList) =
        ["health/route.ts", "users/route.ts", "users/[id]/route.ts"].map String.toList := by
  have hne : usersAndHealth ≠ [] := List.cons_ne_nil _ _
  have htext : joined [','] (usersAndHealth.map Entry.text) = " /users/* ,\t/health/".toList := by
    decide
  refine ⟨hne, htext, ?_⟩
  rw [← htext, select_patterns hne]
  decide +kernel

end Route
end RouteScribe
