import Mathlib.Data.List.Nodup
import RouteScribe.Files.Disk
import RouteScribe.Proofs.Assoc

/-! # What stands where in a tree

`at?` tells what a list of names leads to, and forgets what is inside of a directory.  Following
names depends on nothing else (`follow_cons`), so it leads to the same place in a tree that has
grown (`Grows.follow`).  Putting a file or an empty directory into a directory that is there changes
what stands at one place and nowhere else (`at?_put`).

In a well-formed tree every entry has a name that a file can have, and no directory has two entries
of one name.  Its files then all have different places (`nodup_files`), and each place that there is
follows from its own names (`follow_self`). -/

namespace RouteScribe

/-- A file or a directory, without what is in it. -/
inductive Standing where
  | file (bytes : List UInt8)
  | directory
deriving DecidableEq, Repr

/-- A name that a file can have. -/
structure FileName.Legal (n : FileName) : Prop where
  ne_nil : n ≠ []
  ne_point : n ≠ ['.']
  ne_up : n ≠ Path.up
  no_slash : '/' ∉ n
  no_null : '\x00' ∉ n
  short : (Utf8.encode n).length ≤ FileTree.maxNameBytes

namespace FileTree

variable {t t' : FileTree} {es : List (FileName × FileTree)} {n : FileName}
  {ns above ms : List FileName}

/-- What a tree is at its top. -/
def top : FileTree → Standing
  | file bytes => .file bytes
  | directory _ => .directory

/-- What a list of names leads to. -/
def at? (t : FileTree) (ns : List FileName) : Option Standing := (t.get? ns).map top

/-- The tree at the end of names has the place that they and its own names give. -/
theorem get?_append (t : FileTree) (ns ms : List FileName) :
    t.get? (ns ++ ms) = (t.get? ns).bind fun u => u.get? ms := by
  induction ns generalizing t with
  | nil => rfl
  | cons n ns ih =>
      cases t with
      | file bytes => rfl
      | directory es =>
          simp only [List.cons_append, get?]
          cases Assoc.get? es n with
          | none => rfl
          | some u => exact ih u

theorem get?_concat (t : FileTree) (ns : List FileName) (n : FileName) :
    t.get? (ns ++ [n]) =
      match t.get? ns with
      | some (directory es) => Assoc.get? es n
      | _ => none := by
  rw [get?_append]
  cases t.get? ns with
  | none => rfl
  | some u =>
      cases u with
      | file bytes => rfl
      | directory es => cases h : Assoc.get? es n <;> simp [get?, h]

theorem at?_eq_directory_iff :
    t.at? ns = some .directory ↔ ∃ es, t.get? ns = some (directory es) := by
  unfold at?
  cases t.get? ns with
  | none => simp
  | some u => cases u <;> simp [top]

/-- Whatever leads somewhere leads through directories. -/
theorem at?_of_append (h : (t.at? (ns ++ ms)).isSome) (hm : ms ≠ []) :
    t.at? ns = some .directory := by
  obtain ⟨m, rest, rfl⟩ := List.exists_cons_of_ne_nil hm
  rw [at?, get?_append] at h
  unfold at?
  cases hg : t.get? ns with
  | none => simp [hg] at h
  | some u =>
      cases u with
      | file bytes => simp [hg, get?] at h
      | directory es => rfl

/-! ### Following names -/

/-- Following names depends only on what stands where. -/
theorem follow_cons (t : FileTree) (ns : List FileName) (n : FileName) (rest : List FileName) :
    t.follow ns (n :: rest) =
      match t.at? ns with
      | some .directory =>
        if n = Path.up then t.follow ns.dropLast rest
        else if (Utf8.encode n).length > maxNameBytes then .error .nameTooLong
        else if (t.at? (ns ++ [n])).isSome then t.follow (ns ++ [n]) rest
        else .error .notFound
      | some (.file _) => .error .notDirectory
      | none => .error .notFound := by
  have hc := get?_concat t ns n
  unfold at?
  rw [follow]
  cases hg : t.get? ns with
  | none => rfl
  | some u =>
      cases u with
      | file bytes => rfl
      | directory es =>
          rw [hg] at hc
          simp only [Option.map_some, top, hc, Option.isSome_map]

theorem follow_append (t : FileTree) (ns ms rest : List FileName) :
    t.follow ns (ms ++ rest) =
      match t.follow ns ms with
      | .ok ns => t.follow ns rest
      | .error k => .error k := by
  induction ms generalizing ns with
  | nil => rfl
  | cons n ms ih =>
      rw [List.cons_append, follow_cons, follow_cons]
      cases t.at? ns with
      | none => rfl
      | some s =>
          cases s with
          | file bytes => rfl
          | directory =>
              dsimp only
              split
              · exact ih _
              · split
                · rfl
                · split
                  · exact ih _
                  · rfl

theorem at?_dropLast (h : (t.at? ns).isSome) : (t.at? ns.dropLast).isSome := by
  rcases List.eq_nil_or_concat ns with rfl | ⟨ms, n, rfl⟩
  · exact h
  · rw [List.concat_eq_append] at h ⊢
    rw [List.dropLast_concat, at?_of_append h (List.cons_ne_nil n [])]
    rfl

/-- A place that names lead to is there. -/
theorem at?_of_follow {place : List FileName} (h : t.follow ns ms = .ok place)
    (hn : (t.at? ns).isSome) : (t.at? place).isSome := by
  induction ms generalizing ns with
  | nil =>
      cases h
      exact hn
  | cons n ms ih =>
      rw [follow_cons] at h
      split at h
      · split at h
        · exact ih h (at?_dropLast hn)
        · split at h
          · cases h
          · split at h
            · next hs => exact ih h hs
            · cases h
      · cases h
      · cases h

/-! ### Trees that grow -/

/-- Directories stay directories, and what is there stays there. -/
structure Grows (t t' : FileTree) : Prop where
  directory : ∀ ns, t.at? ns = some .directory → t'.at? ns = some .directory
  present : ∀ ns, (t.at? ns).isSome → (t'.at? ns).isSome

theorem Grows.refl (t : FileTree) : Grows t t := ⟨fun _ h => h, fun _ h => h⟩

theorem Grows.trans {u : FileTree} (h : Grows t t') (h' : Grows t' u) : Grows t u :=
  ⟨fun ns hd => h'.directory ns (h.directory ns hd), fun ns hs => h'.present ns (h.present ns hs)⟩

/-- Names lead to the same place when the tree has grown. -/
theorem Grows.follow (h : Grows t t') {place : List FileName} (hf : t.follow ns ms = .ok place) :
    t'.follow ns ms = .ok place := by
  induction ms generalizing ns with
  | nil => exact hf
  | cons n ms ih =>
      rw [follow_cons] at hf ⊢
      cases hd : t.at? ns with
      | none => simp [hd] at hf
      | some s =>
          cases s with
          | file bytes => simp [hd] at hf
          | directory =>
              rw [hd] at hf
              rw [h.directory ns hd]
              dsimp only at hf ⊢
              by_cases hu : n = Path.up
              · rw [if_pos hu] at hf ⊢
                exact ih hf
              · rw [if_neg hu] at hf ⊢
                by_cases hl : (Utf8.encode n).length > maxNameBytes
                · rw [if_pos hl] at hf
                  cases hf
                · rw [if_neg hl] at hf ⊢
                  by_cases hs : (t.at? (ns ++ [n])).isSome
                  · rw [if_pos hs] at hf
                    rw [if_pos (h.present _ hs)]
                    exact ih hf
                  · rw [if_neg hs] at hf
                    cases hf

/-- What stands where when a tree has been put into a directory. -/
theorem at?_put {new : FileTree} (h : t.at? above = some .directory) (n : FileName)
    (ms : List FileName) :
    (t.put (above ++ [n]) new).at? ms =
      if above ++ [n] <+: ms then new.at? (ms.drop (above.length + 1)) else t.at? ms := by
  induction above generalizing t ms with
  | nil =>
      obtain ⟨es, hes⟩ := at?_eq_directory_iff.mp h
      cases hes
      cases ms with
      | nil => rfl
      | cons m rest =>
          by_cases hm : m = n
          · subst hm
            simp [at?, put, get?, Assoc.get?_set_self]
          · simp [at?, put, get?, Assoc.get?_set_ne _ _ hm, Ne.symm hm]
  | cons a above ih =>
      obtain ⟨es', hes⟩ := at?_eq_directory_iff.mp h
      cases t with
      | file bytes => simp [get?] at hes
      | directory es =>
          rw [get?] at hes
          cases hu : Assoc.get? es a with
          | none => simp [hu] at hes
          | some u =>
              simp only [hu] at hes
              have hd := at?_eq_directory_iff.mpr ⟨es', hes⟩
              cases ms with
              | nil => rfl
              | cons m rest =>
                  by_cases hm : m = a
                  · subst hm
                    have := ih hd rest
                    simp only [at?] at this
                    simpa [at?, put, get?, Assoc.get?_set_self, hu] using this
                  · simp [at?, put, get?, Assoc.get?_set_ne _ _ hm, Ne.symm hm]

/-! ### Well-formed trees -/

mutual

/-- Every entry has a legal name, and no directory has a name twice. -/
def WellFormed : FileTree → Prop
  | file _ => True
  | directory es => (es.map Prod.fst).Nodup ∧ EntriesWellFormed es

/-- Every entry has a legal name and is well-formed itself. -/
def EntriesWellFormed : List (FileName × FileTree) → Prop
  | [] => True
  | (n, t) :: rest => FileName.Legal n ∧ t.WellFormed ∧ EntriesWellFormed rest

end

theorem EntriesWellFormed.of_mem (h : EntriesWellFormed es) {e : FileName × FileTree} (he : e ∈ es) :
    FileName.Legal e.1 ∧ e.2.WellFormed := by
  induction es with
  | nil => exact absurd he List.not_mem_nil
  | cons d rest ih =>
      obtain ⟨n, t⟩ := d
      obtain ⟨hn, ht, hr⟩ := h
      rcases List.mem_cons.mp he with rfl | he
      · exact ⟨hn, ht⟩
      · exact ih hr he

/-- What stands in a well-formed tree is well-formed, and the names to it are legal. -/
theorem WellFormed.get? (h : t.WellFormed) {u : FileTree} (hg : t.get? ns = some u) :
    u.WellFormed ∧ ∀ n ∈ ns, FileName.Legal n := by
  induction ns generalizing t with
  | nil =>
      cases hg
      exact ⟨h, by simp⟩
  | cons n ns ih =>
      cases t with
      | file bytes => simp [FileTree.get?] at hg
      | directory es =>
          rw [FileTree.get?] at hg
          split at hg
          · next v hv =>
              obtain ⟨hn, hw⟩ := h.2.of_mem (Assoc.mem_of_get? hv)
              obtain ⟨hu, hns⟩ := ih hw hg
              refine ⟨hu, ?_⟩
              intro m hm
              rcases List.mem_cons.mp hm with rfl | hm
              · exact hn
              · exact hns m hm
          · cases hg

theorem WellFormed.legal (h : t.WellFormed) (hs : (t.at? ns).isSome) :
    ∀ n ∈ ns, FileName.Legal n := by
  obtain ⟨u, hu⟩ := Option.isSome_iff_exists.mp (Option.isSome_map ▸ hs)
  exact (h.get? hu).2

/-- What stands at a place is found by the names of the place. -/
theorem WellFormed.follow_self (h : t.WellFormed) (hs : (t.at? (ns ++ ms)).isSome) :
    t.follow ns ms = .ok (ns ++ ms) := by
  induction ms generalizing ns with
  | nil => simp [FileTree.follow]
  | cons n ms ih =>
      have hd := at?_of_append hs (List.cons_ne_nil n ms)
      have hn := h.legal hs n (by simp)
      rw [List.append_cons] at hs ⊢
      have hp : (t.at? (ns ++ [n])).isSome := by
        cases ms with
        | nil => simpa using hs
        | cons m ms =>
            rw [at?_of_append hs (List.cons_ne_nil m ms)]
            rfl
      rw [follow_cons, hd]
      dsimp only
      rw [if_neg hn.ne_up, if_neg (Nat.not_lt.mpr hn.short), if_pos hp]
      exact ih hs

/-! ### The files of a tree -/

mutual

theorem get?_of_mem_files :
    ∀ t : FileTree, t.WellFormed → ∀ f ∈ t.files, t.get? f.1 = some (file f.2)
  | file bytes, _, f, hf => by
      rw [files, List.mem_singleton] at hf
      subst hf
      rfl
  | directory es, h, f, hf => by
      obtain ⟨e, he, rest, hr, hg⟩ := exists_of_mem_filesOfEntries es h.2 f hf
      rw [hr, FileTree.get?, Assoc.get?_of_mem h.1 he]
      exact hg

theorem exists_of_mem_filesOfEntries :
    ∀ es : List (FileName × FileTree), EntriesWellFormed es → ∀ f ∈ filesOfEntries es,
      ∃ e ∈ es, ∃ rest, f.1 = e.1 :: rest ∧ e.2.get? rest = some (file f.2)
  | [], _, f, hf => by simp [filesOfEntries] at hf
  | (n, t) :: es, h, f, hf => by
      rw [filesOfEntries, List.mem_append] at hf
      rcases hf with hf | hf
      · obtain ⟨g, hg, rfl⟩ := List.mem_map.mp hf
        exact ⟨(n, t), List.mem_cons_self, g.1, rfl, get?_of_mem_files t h.2.1 g hg⟩
      · obtain ⟨e, he, rest, hr, hg⟩ := exists_of_mem_filesOfEntries es h.2.2 f hf
        exact ⟨e, List.mem_cons_of_mem _ he, rest, hr, hg⟩

end

mutual

theorem nodup_files : ∀ t : FileTree, t.WellFormed → (t.files.map Prod.fst).Nodup
  | file bytes, _ => by simp [files]
  | directory es, h => nodup_filesOfEntries es h.1 h.2

theorem nodup_filesOfEntries :
    ∀ es : List (FileName × FileTree), (es.map Prod.fst).Nodup → EntriesWellFormed es →
      ((filesOfEntries es).map Prod.fst).Nodup
  | [], _, _ => by simp [filesOfEntries]
  | (n, t) :: es, hn, h => by
      rw [List.map_cons, List.nodup_cons] at hn
      rw [filesOfEntries, List.map_append, List.nodup_append]
      refine ⟨?_, nodup_filesOfEntries es hn.2 h.2.2, ?_⟩
      · have ht := (nodup_files t h.2.1).map (List.cons_injective (a := n))
        simpa [Function.comp_def] using ht
      · rintro ns hns ms hms rfl
        obtain ⟨f, hf, rfl⟩ := List.mem_map.mp hns
        obtain ⟨g, -, rfl⟩ := List.mem_map.mp hf
        obtain ⟨f', hf', he⟩ := List.mem_map.mp hms
        obtain ⟨e, hm, rest, hr, -⟩ := exists_of_mem_filesOfEntries es h.2.2 f' hf'
        rw [he] at hr
        cases hr
        have hmem : e.1 ∈ es.map Prod.fst := List.mem_map_of_mem hm
        exact hn.1 hmem

end

end FileTree

/-! ### Disks -/

namespace Disk

variable {d : Disk} {p : Path} {t : FileTree}

/-- The working directory is there. -/
def HasHere (d : Disk) : Prop := d.tree.at? d.here = some .directory

theorem HasHere.root (h : d.HasHere) : d.tree.at? [] = some .directory := by
  unfold HasHere at h
  cases hh : d.here with
  | nil => rwa [hh] at h
  | cons n rest =>
      rw [hh] at h
      have hs : (d.tree.at? ([] ++ n :: rest)).isSome := by simp [h]
      exact FileTree.at?_of_append hs (List.cons_ne_nil n rest)

theorem HasHere.start (h : d.HasHere) (p : Path) : d.tree.at? (d.start p) = some .directory := by
  unfold Disk.start
  split
  · exact h
  · exact h.root

/-- A disk as there can be one: the tree is well-formed, and the working directory is there. -/
structure WellFormed (d : Disk) : Prop where
  tree : d.tree.WellFormed
  here : d.HasHere

theorem WellFormed.find (h : d.WellFormed) (hf : d.find p = .ok t) : t.WellFormed := by
  unfold Disk.find at hf
  split at hf
  · cases hf
  · split at hf
    · next hg =>
        cases hf
        exact (h.tree.get? hg).1
    · cases hf

end Disk
end RouteScribe
