import RouteScribe.Proofs.Files.Names
import RouteScribe.Proofs.Routes.Searching
import RouteScribe.Routes.ApiPath

/-! # The route files of a well-formed tree

In a well-formed tree different files have different names, also when the names on the way are
joined to one text (`nodup_filesOf`), and none of the texts holds a character that no file name has
(`nulFree_filesOf`).  A located file is a relative path (`relative_filesOf`), and so it stays below
the directory that was searched. -/

namespace RouteScribe

namespace Route

variable {t : FileTree} {d : Disk} {root : Path} {file : List Char}

/-- The names on the way to a route file end in one that a search looks at. -/
theorem exists_front {ns : List FileName} (h : isRouteFile ns = true) :
    ∃ n, ns.getLast? = some n ∧ front <+: n := by
  rw [isRouteFile, Option.any_eq_true] at h
  obtain ⟨n, hn, hname⟩ := h
  rw [isRouteFileName, Bool.and_eq_true, Bool.and_eq_true, List.isPrefixOf_iff_prefix] at hname
  exact ⟨n, hn, hname.1.1⟩

/-- What is known of a located file: the names on the way to it. -/
theorem exists_of_mem_filesOf (h : t.WellFormed) (hf : file ∈ filesOf t) :
    ∃ ns bytes, (∀ n ∈ ns, FileName.Legal n) ∧ t.get? ns = some (.file bytes) ∧
      isRouteFile ns = true ∧ file = joined ['/'] ns := by
  rw [filesOf, (List.mergeSort_perm _ _).mem_iff, List.mem_map] at hf
  obtain ⟨f, hf, rfl⟩ := hf
  obtain ⟨hm, hr⟩ := List.mem_filter.mp hf
  have hg := FileTree.get?_of_mem_files t h f hm
  exact ⟨f.1, f.2, (h.get? hg).2, hg, hr, rfl⟩

/-- No file is located twice. -/
theorem nodup_filesOf (h : t.WellFormed) : (filesOf t).Nodup := by
  rw [filesOf, (List.mergeSort_perm _ _).nodup_iff]
  have hn : ((t.files.filter fun f => isRouteFile f.1).map Prod.fst).Nodup :=
    (List.filter_sublist.map Prod.fst).nodup (FileTree.nodup_files t h)
  have hj : ((t.files.filter fun f => isRouteFile f.1).map fun f => joined ['/'] f.1) =
      ((t.files.filter fun f => isRouteFile f.1).map Prod.fst).map (joined ['/']) := by
    rw [List.map_map]
    rfl
  rw [hj]
  refine hn.map_on ?_
  intro ns hns ms hms he
  have hpieces : ∀ ns ∈ (t.files.filter fun f => isRouteFile f.1).map Prod.fst,
      pieces '/' (joined ['/'] ns) = ns := by
    intro ns hns
    obtain ⟨f, hf, rfl⟩ := List.mem_map.mp hns
    obtain ⟨hm, hr⟩ := List.mem_filter.mp hf
    refine pieces_joined ?_ fun n hn =>
      ((h.get? (FileTree.get?_of_mem_files t h f hm)).2 n hn).no_slash
    intro hnil
    simp [hnil, isRouteFile] at hr
  rw [← hpieces ns hns, he, hpieces ms hms]

theorem nulFree_filesOf (h : t.WellFormed) (hf : file ∈ filesOf t) : '\x00' ∉ file := by
  obtain ⟨ns, -, hl, -, -, rfl⟩ := exists_of_mem_filesOf h hf
  intro hc
  rcases mem_joined hc with hc | ⟨n, hn, hc⟩
  · exact absurd hc (by decide)
  · exact (hl n hn).no_null hc

/-- A located file is the relative path of the names on the way to it. -/
theorem ofChars_joined {ns : List FileName} (hr : isRouteFile ns = true)
    (hl : ∀ n ∈ ns, FileName.Legal n) : Path.ofChars (joined ['/'] ns) = ⟨.relative, ns⟩ := by
  have hne : ns ≠ [] := by
    rintro rfl
    cases hr
  have hshown : Path.shown ⟨.relative, ns⟩ = joined ['/'] ns := by
    rw [Path.shown, if_neg (by simp [hne])]
    rfl
  rw [← hshown]
  exact Path.ofChars_shown fun n hn => (hl n hn).proper

theorem relative_filesOf (h : t.WellFormed) (hf : file ∈ filesOf t) :
    (Path.ofChars file).anchor = .relative := by
  obtain ⟨ns, -, hl, -, hr, rfl⟩ := exists_of_mem_filesOf h hf
  rw [ofChars_joined hr hl]

/-- Below a directory that a search gets through, the paths of the located files can be looked up. -/
theorem fault?_join_of_searchable {room : Nat} (h : t.WellFormed) (hp : root.NulFree)
    (hs : Searchable room root t) (hf : file ∈ filesOf t) :
    (root.join (Path.ofChars file)).fault? = none := by
  have hnull := hp.join (Path.nulFree_ofChars (nulFree_filesOf h hf))
  obtain ⟨ns, bytes, hl, hget, hr, rfl⟩ := exists_of_mem_filesOf h hf
  rw [ofChars_joined hr hl] at hnull ⊢
  exact Path.fault?_eq_none_iff.mpr
    ⟨hnull, hs.short ns ⟨_, hget, .inr (exists_front hr)⟩⟩

/-! ### Locating and selecting -/

/-- In a directory the search decides. -/
theorem locate_directory {room : Nat} {es : List (FileName × FileTree)}
    (h : d.find root = .ok (.directory es)) : locate room d root =
      match searchFault? room root (.directory es) with
      | some fault => .error (.ofFault root fault)
      | none => .ok (filesOf (.directory es)) := by
  unfold locate Disk.isDirectory
  rw [h]
  rfl

/-- Files are located below a directory that a search gets through, and nowhere else. -/
theorem locate_eq_ok_iff {room : Nat} (hd : d.WellFormed) {found : List (List Char)} :
    locate room d root = .ok found ↔ ∃ es, d.find root = .ok (.directory es) ∧
      Searchable room root (.directory es) ∧ filesOf (.directory es) = found := by
  cases hf : d.find root with
  | error k =>
      unfold locate Disk.isDirectory
      rw [hf]
      cases k <;> simp
  | ok t =>
      cases t with
      | file bytes =>
          unfold locate Disk.isDirectory
          rw [hf]
          simp [FileTree.isDirectory]
      | directory es =>
          simp only [Except.ok.injEq, FileTree.directory.injEq, exists_eq_left']
          rw [locate_directory hf,
            ← searchFault?_eq_none_iff (hd.find hf) (Disk.nulFree_of_find hf)]
          cases searchFault? room root (.directory es) <;> simp

/-- A search that meets nothing gets through what stands at a path of a disk. -/
theorem searchable_of_find {room : Nat} (hd : d.WellFormed) (hf : d.find root = .ok t)
    (h : searchFault? room root t = none) : Searchable room root t :=
  (searchFault?_eq_none_iff (hd.find hf) (Disk.nulFree_of_find hf)).mp h

/-- A search that does not get through a directory says so. -/
theorem locate_of_not_searchable {room : Nat} (hd : d.WellFormed)
    {es : List (FileName × FileTree)} (hf : d.find root = .ok (.directory es))
    (hs : ¬ Searchable room root (.directory es)) :
    (locate room d root = .error .tooDeep ∧
      ∃ ns es', (FileTree.directory es).get? ns = some (.directory es') ∧ room ≤ ns.length) ∨
    ∃ path, ¬ path.Short ∧ locate room d root = .error (.unreadable root ⟨.nameTooLong, path⟩) := by
  have hends := ends_searchFault? room root (.directory es) (hd.find hf) (Disk.nulFree_of_find hf)
  rw [locate_directory hf]
  cases hfault : searchFault? room root (.directory es) with
  | none =>
      rw [hfault] at hends
      exact absurd hends hs
  | some fault =>
      rw [hfault] at hends
      cases fault with
      | tooDeep => exact .inl ⟨rfl, hends⟩
      | refused fault =>
          obtain ⟨ns, -, hlong, rfl⟩ := hends
          exact .inr ⟨root.below ns, hlong, rfl⟩

theorem select_sublist (patterns : List (List Char)) (files : List (List Char)) :
    (select patterns files).Sublist files := by
  unfold select
  split
  · exact .refl _
  · exact List.filter_sublist

end Route
end RouteScribe
