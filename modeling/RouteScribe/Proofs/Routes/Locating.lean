import Mathlib.Data.List.TakeWhile
import RouteScribe.Proofs.Routes.Discovery
import RouteScribe.Proofs.Text.Order

/-! # A search finds the route files and nothing else

A file of a tree is a route file if its name is `route`, a point and an ending without points
(`RouteFileIn`).  A search through a directory has to answer with exactly these, as texts in strictly
increasing order, and with an error of its own where there is no such directory (`Finds`).

`isRouteFileName_iff` gives the names from what cutting off an ending leaves, and `mem_files_iff`
that a tree lists exactly the files that names lead to.  The name of a directory plays no part in
either: a directory is never listed, and it is searched under whatever name.  A search does not answer
as it should where the system cannot tell whether there is a directory, because its path or a name in
it is too long, and where it does not get through the directory (`locate_finds_iff`). -/

namespace RouteScribe

/-! ### Names that are cut -/

namespace FileName

variable {n before ending : List Char}

theorem bne_point (h : '.' ∉ n) : ∀ c ∈ n.reverse, (c != '.') = true := by
  intro c hc
  rw [bne_iff_ne]
  rintro rfl
  exact h (List.mem_reverse.mp hc)

/-- A name is cut at its last point. -/
theorem cut_append (before : List Char) (h : '.' ∉ ending) :
    cut (before ++ '.' :: ending) =
      if before.isEmpty || ending.isEmpty then (before ++ '.' :: ending, [])
      else (before, '.' :: ending) := by
  have hreverse : (before ++ '.' :: ending).reverse = ending.reverse ++ '.' :: before.reverse := by
    rw [List.reverse_append, List.reverse_cons, List.append_assoc, List.singleton_append]
  have htake : (ending.reverse ++ '.' :: before.reverse).takeWhile (· != '.') = ending.reverse := by
    rw [List.takeWhile_append_of_pos (bne_point h)]
    simp
  have hdrop : (ending.reverse ++ '.' :: before.reverse).dropWhile (· != '.') =
      '.' :: before.reverse := by
    rw [List.dropWhile_append_of_pos (bne_point h)]
    simp
  rw [cut, hreverse, htake, hdrop, List.tail_cons, List.reverse_reverse, List.reverse_reverse]

theorem cut_of_not_mem (h : '.' ∉ n) : cut n = (n, []) := by
  have hdrop : n.reverse.dropWhile (· != '.') = [] := List.dropWhile_eq_nil_iff.mpr (bne_point h)
  rw [cut, hdrop]
  rfl

/-- Where a name has an ending, this is what stands behind its last point. -/
theorem exists_of_cut (h : (cut n).2 ≠ []) :
    ∃ ending, ending ≠ [] ∧ '.' ∉ ending ∧ n = (cut n).1 ++ '.' :: ending := by
  by_cases hpoint : '.' ∈ n.reverse
  · obtain ⟨as, bs, hn, has⟩ := List.eq_append_cons_of_mem hpoint
    have hname : n = bs.reverse ++ '.' :: as.reverse := by
      rw [← List.reverse_reverse n, hn, List.reverse_append, List.reverse_cons, List.append_assoc,
        List.singleton_append]
    have hcut := cut_append bs.reverse (mt List.mem_reverse.mp has)
    rw [← hname] at hcut
    rw [hcut] at h ⊢
    split at h
    · exact absurd rfl h
    · next hne =>
        rw [if_neg hne]
        rw [Bool.or_eq_true, List.isEmpty_iff, List.isEmpty_iff, not_or] at hne
        exact ⟨as.reverse, hne.2, mt List.mem_reverse.mp has, hname⟩
  · rw [cut_of_not_mem (mt List.mem_reverse.mpr hpoint)] at h
    exact absurd rfl h

end FileName

namespace Route

/-- The names of route files are `route`, a point and an ending without points. -/
theorem isRouteFileName_iff {n : FileName} :
    isRouteFileName n = true ↔ ∃ ending, ending ≠ [] ∧ '.' ∉ ending ∧ n = stem ++ '.' :: ending := by
  rw [isRouteFileName, Bool.and_eq_true, Bool.and_eq_true, beq_iff_eq, Bool.not_eq_true',
    List.isEmpty_eq_false_iff, List.isPrefixOf_iff_prefix]
  constructor
  · rintro ⟨⟨-, hstem⟩, hne⟩
    obtain ⟨ending, he, hpoint, hn⟩ := FileName.exists_of_cut hne
    exact ⟨ending, he, hpoint, hstem ▸ hn⟩
  · rintro ⟨ending, he, hpoint, rfl⟩
    rw [FileName.cut_append stem hpoint, List.isEmpty_eq_false_iff.mpr he]
    refine ⟨⟨⟨ending, ?_⟩, rfl⟩, List.cons_ne_nil _ _⟩
    rw [front, List.append_assoc, List.singleton_append]

end Route

/-! ### The files of a tree -/

namespace FileTree

variable {es : List (FileName × FileTree)} {n : FileName} {t : FileTree}

theorem mem_filesOfEntries (he : (n, t) ∈ es) {f : List FileName × List UInt8} (hf : f ∈ t.files) :
    (n :: f.1, f.2) ∈ filesOfEntries es := by
  induction es with
  | nil => exact absurd he List.not_mem_nil
  | cons e es ih =>
      obtain ⟨m, u⟩ := e
      rw [filesOfEntries, List.mem_append]
      rcases List.mem_cons.mp he with heq | he
      · cases heq
        exact .inl (List.mem_map_of_mem hf)
      · exact .inr (ih he)

theorem mem_files_of_get? {ns : List FileName} {bytes : List UInt8}
    (h : t.get? ns = some (file bytes)) : (ns, bytes) ∈ t.files := by
  induction ns generalizing t with
  | nil =>
      cases h
      exact List.mem_singleton_self _
  | cons n ns ih =>
      cases t with
      | file b => cases h
      | directory es =>
          rw [get?] at h
          split at h
          · next u hu =>
              rw [files]
              exact mem_filesOfEntries (Assoc.mem_of_get? hu) (ih h)
          · cases h

/-- A tree lists the files that names lead to. -/
theorem mem_files_iff (ht : t.WellFormed) {ns : List FileName} {bytes : List UInt8} :
    (ns, bytes) ∈ t.files ↔ t.get? ns = some (file bytes) :=
  ⟨get?_of_mem_files t ht (ns, bytes), mem_files_of_get?⟩

end FileTree

namespace Route

variable {t : FileTree} {d : Disk} {root : Path} {file : List Char} {room : Nat}

/-- The text is the relative path of a file of the tree whose name is `route`, a point and an ending
without points. -/
def RouteFileIn (t : FileTree) (file : List Char) : Prop :=
  ∃ (above : List FileName) (ending : List Char) (bytes : List UInt8),
    ending ≠ [] ∧ '.' ∉ ending ∧
      t.get? (above ++ [stem ++ '.' :: ending]) = some (.file bytes) ∧
      file = joined ['/'] (above ++ [stem ++ '.' :: ending])

theorem isRouteFile_iff {ns : List FileName} :
    isRouteFile ns = true ↔
      ∃ above ending, ending ≠ [] ∧ '.' ∉ ending ∧ ns = above ++ [stem ++ '.' :: ending] := by
  rw [isRouteFile, Option.any_eq_true]
  constructor
  · rintro ⟨n, hn, hname⟩
    obtain ⟨ending, he, hpoint, rfl⟩ := isRouteFileName_iff.mp hname
    obtain ⟨above, rfl⟩ := List.getLast?_eq_some_iff.mp hn
    exact ⟨above, ending, he, hpoint, rfl⟩
  · rintro ⟨above, ending, he, hpoint, rfl⟩
    exact ⟨_, List.getLast?_concat, isRouteFileName_iff.mpr ⟨ending, he, hpoint, rfl⟩⟩

theorem mem_filesOf_iff (ht : t.WellFormed) : file ∈ filesOf t ↔ RouteFileIn t file := by
  rw [filesOf, (List.mergeSort_perm _ _).mem_iff, List.mem_map]
  constructor
  · rintro ⟨⟨ns, bytes⟩, hf, rfl⟩
    obtain ⟨hmem, hroute⟩ := List.mem_filter.mp hf
    obtain ⟨above, ending, he, hpoint, rfl⟩ := isRouteFile_iff.mp hroute
    exact ⟨above, ending, bytes, he, hpoint, (FileTree.mem_files_iff ht).mp hmem, rfl⟩
  · rintro ⟨above, ending, bytes, he, hpoint, hget, rfl⟩
    refine ⟨(_, bytes), List.mem_filter.mpr ⟨(FileTree.mem_files_iff ht).mpr hget, ?_⟩, rfl⟩
    exact isRouteFile_iff.mpr ⟨above, ending, he, hpoint, rfl⟩

theorem pairwise_filesOf (ht : t.WellFormed) : (filesOf t).Pairwise (· < ·) :=
  pairwise_lt_mergeSort ((List.mergeSort_perm _ _).nodup_iff.mp (nodup_filesOf ht))

/-! ### Searches -/

/-- What a search below `root` has to answer. -/
structure Finds (d : Disk) (root : Path) (answer : Except DiscoveryError (List (List Char))) :
    Prop where
  /-- In a directory: its route files, in strictly increasing order. -/
  listed : ∀ es, d.find root = .ok (.directory es) →
    ∃ found, answer = .ok found ∧ found.Pairwise (· < ·) ∧
      ∀ file, file ∈ found ↔ RouteFileIn (.directory es) file
  /-- Where there is no directory: an error. -/
  missing : (∀ es, d.find root ≠ .ok (.directory es)) → answer = .error (.notDirectory root)

theorem finds_directory (hd : d.WellFormed) {es : List (FileName × FileTree)}
    (h : d.find root = .ok (.directory es)) (hs : Searchable room root (.directory es)) :
    Finds d root (locate room d root) := by
  constructor
  · intro es' hes'
    rw [h] at hes'
    cases hes'
    have ht := hd.find h
    exact ⟨_, (locate_eq_ok_iff hd).mpr ⟨es, h, hs, rfl⟩, pairwise_filesOf ht,
      fun _ => mem_filesOf_iff ht⟩
  · intro hno
    exact absurd h (hno es)

/-- Where there is no directory the search says so, unless the system cannot tell. -/
theorem locate_eq_notDirectory (hno : ∀ es, d.find root ≠ .ok (.directory es))
    (h : d.find root ≠ .error .nameTooLong) : locate room d root = .error (.notDirectory root) := by
  rw [locate, Disk.isDirectory]
  cases hfind : d.find root with
  | ok t =>
      cases t with
      | directory es => exact absurd hfind (hno es)
      | file bytes => rfl
  | error kind =>
      cases kind with
      | nameTooLong => exact absurd hfind h
      | notFound => rfl
      | present => rfl
      | notDirectory => rfl
      | isDirectory => rfl
      | nullCharacter => rfl

theorem locate_eq_unreachable (h : d.find root = .error .nameTooLong) :
    locate room d root = .error (.unreachable ⟨.nameTooLong, root⟩) := by
  rw [locate, Disk.isDirectory, h]

/-- **What a search answers.**  It finds exactly the route files of a directory and tells when there
is no directory, if the system can tell whether there is one and the search gets through it.
Otherwise it fails: in the way that looking for the directory fails; at a path that is too long, of
which it says that the directory cannot be read; or because directories lie too deep. -/
theorem locate_finds_iff (hd : d.WellFormed) (root : Path) (room : Nat) :
    (Finds d root (locate room d root) ↔ d.find root ≠ .error .nameTooLong ∧
      ∀ es, d.find root = .ok (.directory es) → Searchable room root (.directory es)) ∧
    (d.find root = .error .nameTooLong →
      locate room d root = .error (.unreachable ⟨.nameTooLong, root⟩)) ∧
    ∀ es, d.find root = .ok (.directory es) → ¬ Searchable room root (.directory es) →
      (locate room d root = .error .tooDeep ∧
        ∃ ns es', (FileTree.directory es).get? ns = some (.directory es') ∧ room ≤ ns.length) ∨
      ∃ path, ¬ path.Short ∧
        locate room d root = .error (.unreadable root ⟨.nameTooLong, path⟩) := by
  refine ⟨⟨?_, ?_⟩, locate_eq_unreachable, fun es hf hs => locate_of_not_searchable hd hf hs⟩
  · intro hfinds
    constructor
    · intro h
      have hanswer := hfinds.missing (by rw [h]; exact nofun)
      rw [locate_eq_unreachable h] at hanswer
      cases hanswer
    · intro es hfind
      obtain ⟨found, hok, -⟩ := hfinds.listed es hfind
      obtain ⟨es', hfind', hs, -⟩ := (locate_eq_ok_iff hd).mp hok
      cases hfind.symm.trans hfind'
      exact hs
  · rintro ⟨h, hs⟩
    by_cases hdir : ∃ es, d.find root = .ok (.directory es)
    · obtain ⟨es, hes⟩ := hdir
      exact finds_directory hd hes (hs es hes)
    · have hno : ∀ es, d.find root ≠ .ok (.directory es) := fun es hes => hdir ⟨es, hes⟩
      exact ⟨fun es hes => absurd hes (hno es), fun hno => locate_eq_notDirectory hno h⟩

/-- A directory with odd names: two files that only look like route files, one whose name begins
with a point, and a route file in a directory that is named like one. -/
def oddNames : Disk :=
  ⟨.directory [("app".toList, .directory [("route.".toList, .file []),
    ("route.a.b".toList, .file []), (".route.ts".toList, .file []),
    ("route.ts".toList, .directory [("route.js".toList, .file [])])])], []⟩

/-- Only the one in the directory is found, which takes two levels of directories. -/
theorem locate_oddNames :
    oddNames.WellFormed ∧ oddNames.find (.ofString "app") ≠ .error .nameTooLong ∧
      Finds oddNames (.ofString "app") (locate 2 oddNames (.ofString "app")) ∧
      locate 2 oddNames (.ofString "app") = .ok ["route.ts/route.js".toList] ∧
      locate 1 oddNames (.ofString "app") = .error .tooDeep := by
  have happ : FileName.Legal "app".toList := by constructor <;> decide +kernel
  have hempty : FileName.Legal "route.".toList := by constructor <;> decide +kernel
  have htwo : FileName.Legal "route.a.b".toList := by constructor <;> decide +kernel
  have hhidden : FileName.Legal ".route.ts".toList := by constructor <;> decide +kernel
  have hdirectory : FileName.Legal "route.ts".toList := by constructor <;> decide +kernel
  have hroute : FileName.Legal "route.js".toList := by constructor <;> decide +kernel
  have hwell : oddNames.WellFormed :=
    ⟨⟨by decide +kernel, happ, ⟨by decide +kernel, hempty, trivial, htwo, trivial, hhidden, trivial,
      hdirectory, ⟨by decide +kernel, hroute, trivial, trivial⟩, trivial⟩, trivial⟩, rfl⟩
  have hfind : oddNames.find (.ofString "app") ≠ .error .nameTooLong := nofun
  have hfound : ∃ es, oddNames.find (.ofString "app") = .ok (.directory es) ∧
      searchFault? 2 (.ofString "app") (.directory es) = none := ⟨_, rfl, by decide +kernel⟩
  obtain ⟨es, hes, hnone⟩ := hfound
  have hsearchable : ∀ es, oddNames.find (.ofString "app") = .ok (.directory es) →
      Searchable 2 (.ofString "app") (.directory es) := by
    intro es' hes'
    cases hes.symm.trans hes'
    exact searchable_of_find hwell hes hnone
  exact ⟨hwell, hfind, (locate_finds_iff hwell _ 2).1.mpr ⟨hfind, hsearchable⟩, by decide +kernel,
    by decide +kernel⟩

/-- A directory that cannot exist is not told from one that cannot be looked for. -/
theorem not_finds_long_name :
    let d : Disk := ⟨.directory [], []⟩
    let root : Path := ⟨.relative, [List.replicate 256 'a']⟩
    d.WellFormed ∧ (∀ es, d.find root ≠ .ok (.directory es)) ∧
      ¬ Finds d root (locate 950 d root) := by
  intro d root
  have hplace : d.place root = .error .nameTooLong := by decide +kernel
  have hlong : d.find root = .error .nameTooLong := by rw [Disk.find, hplace]
  have hmissing : ∀ es, d.find root ≠ .ok (.directory es) := by
    rw [hlong]
    exact nofun
  refine ⟨⟨⟨List.nodup_nil, trivial⟩, rfl⟩, hmissing, ?_⟩
  intro h
  have hanswer := h.missing hmissing
  rw [locate_eq_unreachable hlong] at hanswer
  cases hanswer

end Route
end RouteScribe
