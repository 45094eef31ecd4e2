import RouteScribe.OpenApi.Write
import RouteScribe.Proofs.Files.Tree

/-! # What a write changes

Making directories changes no file (`ensureDirectories_extends`), and writing a file changes that
file and no other (`writeBytes_spec`).  A document that has been written is what the file of the
answered path holds, and every other file is as it was (`Document.write_spec`). -/

namespace RouteScribe

/-- The bytes of the file that a list of names leads to. -/
def FileTree.file? (t : FileTree) (ns : List FileName) : Option (List UInt8) :=
  match t.at? ns with
  | some (.file bytes) => some bytes
  | _ => none

namespace Disk

open FileTree (Grows maxNameBytes)

variable {d d' : Disk} {p : Path} {above names : List FileName} {n : FileName} {bytes : List UInt8}

/-! ### The place of a new file -/

/-- The path leads to the entry of a name in a directory that is there. -/
structure Leads (d : Disk) (p : Path) (above : List FileName) (n : FileName) : Prop where
  usable : p.fault? = none
  last : p.names.getLast? = some n
  follow : d.tree.follow (d.start p) p.names.dropLast = .ok above
  directory : d.tree.at? above = some .directory
  ne_up : n ≠ Path.up
  short : (Utf8.encode n).length ≤ maxNameBytes

/-- The place for a new entry is in a directory that is there, unless a directory stands at it. -/
theorem newPlace_cases (hh : d.HasHere) (h : d.newPlace p = .ok names) :
    (∃ above n, d.Leads p above n ∧ names = above ++ [n]) ∨
      d.tree.at? names = some .directory := by
  unfold newPlace at h
  split at h
  · cases h
  · next hu =>
      split at h
      · cases h
        exact .inr (hh.start p)
      · next n hl =>
          split at h
          · cases h
          · next above hf =>
              split at h
              · next es hg =>
                  have hd := FileTree.at?_eq_directory_iff.mpr ⟨es, hg⟩
                  split at h
                  · cases h
                    refine .inr ?_
                    rcases List.eq_nil_or_concat above with rfl | ⟨ms, m, rfl⟩
                    · exact hd
                    · rw [List.concat_eq_append] at hd ⊢
                      rw [List.dropLast_concat]
                      exact FileTree.at?_of_append (by simp [hd]) (List.cons_ne_nil m [])
                  · next hn =>
                      split at h
                      · cases h
                      · next hs =>
                          cases h
                          exact .inl ⟨above, n, ⟨hu, hl, hf, hd, hn, Nat.not_lt.mp hs⟩, rfl⟩
              · cases h
              · cases h

theorem Leads.newPlace (h : d.Leads p above n) : d.newPlace p = .ok (above ++ [n]) := by
  obtain ⟨es, hes⟩ := FileTree.at?_eq_directory_iff.mp h.directory
  rw [Disk.newPlace, h.usable, h.last]
  simp only [h.follow, hes, if_neg h.ne_up, if_neg (Nat.not_lt.mpr h.short)]

/-- Once something is there, the path leads to it. -/
theorem Leads.place (h : d.Leads p above n) (hs : (d.tree.at? (above ++ [n])).isSome) :
    d.place p = .ok (above ++ [n]) := by
  have hp : p.names = p.names.dropLast ++ [n] := (List.dropLast_append_getLast? n h.last).symm
  rw [Disk.place, h.usable, hp, FileTree.follow_append, h.follow]
  simp only [FileTree.follow_cons, h.directory, if_neg h.ne_up, if_neg (Nat.not_lt.mpr h.short),
    if_pos hs]
  rfl

/-- The path leads to the same entry when the tree has grown. -/
theorem Leads.grows (h : d.Leads p above n) (hg : Grows d.tree d'.tree) (hh : d'.here = d.here) :
    d'.Leads p above n := by
  have hs : d'.start p = d.start p := by rw [Disk.start, Disk.start, hh]
  exact ⟨h.usable, h.last, hs ▸ hg.follow h.follow, hg.directory _ h.directory, h.ne_up, h.short⟩

/-! ### Making directories -/

/-- The second disk is the first one with directories added. -/
structure Extends (d d' : Disk) : Prop where
  here : d'.here = d.here
  grows : Grows d.tree d'.tree
  files : ∀ ns, d'.tree.file? ns = d.tree.file? ns

theorem Extends.refl (d : Disk) : d.Extends d := ⟨rfl, .refl _, fun _ => rfl⟩

theorem Extends.trans {d'' : Disk} (h : d.Extends d') (h' : d'.Extends d'') : d.Extends d'' :=
  ⟨h'.here.trans h.here, h.grows.trans h'.grows, fun ns => (h'.files ns).trans (h.files ns)⟩

theorem HasHere.extends (hh : d.HasHere) (h : d.Extends d') : d'.HasHere := by
  unfold HasHere
  rw [h.here]
  exact h.grows.directory _ hh

/-- What stands at a place where nothing was: nothing stood behind it either. -/
theorem at?_put_self (new : FileTree) (hd : d.tree.at? above = some .directory)
    (hn : d.tree.at? (above ++ [n]) ≠ some .directory) (hb : ∀ m rest, new.at? (m :: rest) = none)
    (ns : List FileName) :
    (d.tree.put (above ++ [n]) new).at? ns =
      if ns = above ++ [n] then some new.top else d.tree.at? ns := by
  rw [FileTree.at?_put hd]
  by_cases hs : ns = above ++ [n]
  · subst hs
    rw [if_pos (List.prefix_refl _), if_pos rfl, List.drop_of_length_le (by simp)]
    rfl
  · rw [if_neg hs]
    split
    · next hp =>
        obtain ⟨rest, rfl⟩ := hp
        cases rest with
        | nil => simp at hs
        | cons m rest =>
            have hl : above.length + 1 = (above ++ [n]).length := by simp
            rw [hl, List.drop_left, hb]
            cases ha : d.tree.at? (above ++ [n] ++ m :: rest) with
            | none => rfl
            | some s =>
                have hs : (d.tree.at? (above ++ [n] ++ m :: rest)).isSome := by
                  rw [ha]
                  rfl
                exact absurd (FileTree.at?_of_append hs (List.cons_ne_nil m rest)) hn
    · rfl

/-- A directory is made where nothing was, or the disk stays as it is. -/
theorem makeDirectory_cases (hh : d.HasHere) (p : Path) :
    (d.makeDirectory p).2 = d ∨
      ∃ above n, d.Leads p above n ∧ d.tree.at? (above ++ [n]) = none ∧
        (d.makeDirectory p).2.here = d.here ∧
        ∀ ns, (d.makeDirectory p).2.tree.at? ns =
          if ns = above ++ [n] then some .directory else d.tree.at? ns := by
  unfold makeDirectory
  split
  · exact .inl rfl
  · next names hp =>
      split
      · exact .inl rfl
      · next hn =>
          have hn : d.tree.at? names = none := by simp [FileTree.at?, hn]
          rcases newPlace_cases hh hp with ⟨above, n, hl, rfl⟩ | hd
          · have hne : d.tree.at? (above ++ [n]) ≠ some .directory := by simp [hn]
            exact .inr ⟨above, n, hl, hn, rfl,
              at?_put_self (.directory []) hl.directory hne fun m rest => rfl⟩
          · rw [hn] at hd
            cases hd

theorem makeDirectory_extends (hh : d.HasHere) (p : Path) : d.Extends (d.makeDirectory p).2 := by
  rcases makeDirectory_cases hh p with hd | ⟨above, n, -, hn, hhere, ha⟩
  · rw [hd]
    exact .refl d
  · refine ⟨hhere, ⟨?_, ?_⟩, ?_⟩
    all_goals intro ns
    · rw [ha]
      split
      · exact fun _ => rfl
      · exact id
    · rw [ha]
      split
      · exact fun _ => rfl
      · exact id
    · rw [FileTree.file?, FileTree.file?, ha]
      by_cases hs : ns = above ++ [n]
      · rw [if_pos hs, hs, hn]
      · rw [if_neg hs]

/-- Directories are made one after the other, at the path or above it. -/
inductive MakesAlong (p : Path) : Disk → Disk → Prop
  | refl (d : Disk) : MakesAlong p d d
  | make {d d' : Disk} {names : List FileName} (hn : names <+: p.names)
      (h : MakesAlong p (d.makeDirectory ⟨p.anchor, names⟩).2 d') : MakesAlong p d d'

theorem MakesAlong.trans {d'' : Disk} (h : MakesAlong p d d') (h' : MakesAlong p d' d'') :
    MakesAlong p d d'' := by
  induction h with
  | refl d => exact h'
  | make hn _ ih => exact .make hn (ih h')

theorem snd_ensureDirectory (d : Disk) (p : Path) :
    (d.ensureDirectory p).2 = (d.makeDirectory p).2 := by
  unfold ensureDirectory
  split
  · next he => rw [he]
  · next he =>
      rw [he]
      split
      · rfl
      · split <;> rfl

theorem ensureDirectory_makesAlong (d : Disk) (hn : names <+: p.names) :
    MakesAlong p d (d.ensureDirectory ⟨p.anchor, names⟩).2 := by
  rw [snd_ensureDirectory]
  exact .make hn (.refl _)

theorem ensureDirectoriesWithin_makesAlong (room : Nat) (d : Disk) (hn : names <+: p.names) :
    MakesAlong p d (d.ensureDirectoriesWithin room ⟨p.anchor, names⟩).2 := by
  induction room generalizing d names with
  | zero => exact ensureDirectory_makesAlong d hn
  | succ room ih =>
      have he := ensureDirectory_makesAlong d hn
      rw [ensureDirectoriesWithin]
      split
      · next h => rwa [h] at he
      · next f d' h =>
          rw [h] at he
          split
          · have hp := ih d' ((List.dropLast_prefix names).trans hn)
            rw [Path.parent]
            split
            · next d'' h' =>
                rw [h'] at hp
                exact (he.trans hp).trans (ensureDirectory_makesAlong d'' hn)
            · next h' =>
                rw [h'] at hp
                exact he.trans hp
          · exact he

/-- Making the directories of a path makes them along the path. -/
theorem ensureDirectories_makesAlong (d : Disk) (p : Path) :
    MakesAlong p d (d.ensureDirectories p).2 :=
  ensureDirectoriesWithin_makesAlong _ d (List.prefix_refl p.names)

theorem MakesAlong.extends (h : MakesAlong p d d') (hh : d.HasHere) : d.Extends d' := by
  induction h with
  | refl d => exact .refl d
  | @make d d' names _ _ ih =>
      have he := makeDirectory_extends hh ⟨p.anchor, names⟩
      exact he.trans (ih (hh.extends he))

/-- Making directories changes no file. -/
theorem ensureDirectories_extends (hh : d.HasHere) (p : Path) :
    d.Extends (d.ensureDirectories p).2 := (ensureDirectories_makesAlong d p).extends hh

/-! ### Writing a file -/

/-- The path leads to a file with these bytes, and all other files are as they were. -/
structure Wrote (d : Disk) (p : Path) (target : List FileName) (bytes : List UInt8) (d' : Disk) :
    Prop where
  here : d'.here = d.here
  place : d'.place p = .ok target
  file : d'.tree.file? target = some bytes
  others : ∀ ns, ns ≠ target → d'.tree.file? ns = d.tree.file? ns

/-- A file is written where no directory stands, and nothing else changes. -/
theorem writeBytes_at? (hh : d.HasHere) (h : d.writeBytes p bytes = (.ok (), d')) :
    ∃ above n, d.Leads p above n ∧ d.tree.at? (above ++ [n]) ≠ some .directory ∧
      d'.here = d.here ∧ ∀ ns, d'.tree.at? ns =
        if ns = above ++ [n] then some (.file bytes) else d.tree.at? ns := by
  unfold writeBytes at h
  split at h
  · cases h
  · next names hp =>
      rcases newPlace_cases hh hp with ⟨above, n, hl, rfl⟩ | hd
      · have hn : d.tree.at? (above ++ [n]) ≠ some .directory := by
          rintro hn
          obtain ⟨es, hes⟩ := FileTree.at?_eq_directory_iff.mp hn
          simp [hes] at h
        have hw : d' = { d with tree := d.tree.put (above ++ [n]) (.file bytes) } := by
          split at h
          · cases h
          · cases h
            rfl
        subst hw
        exact ⟨above, n, hl, hn, rfl, at?_put_self (.file bytes) hl.directory hn fun m rest => rfl⟩
      · obtain ⟨es, hes⟩ := FileTree.at?_eq_directory_iff.mp hd
        simp [hes] at h

theorem writeBytes_spec (hh : d.HasHere) (h : d.writeBytes p bytes = (.ok (), d')) :
    ∃ above n, d.Leads p above n ∧ d'.Leads p above n ∧ d'.HasHere ∧
      d.Wrote p (above ++ [n]) bytes d' := by
  obtain ⟨above, n, hl, hn, hhere, ha⟩ := writeBytes_at? hh h
  have hg : Grows d.tree d'.tree := by
    refine ⟨?_, ?_⟩
    all_goals intro ns hns
    all_goals rw [ha]
    · rw [if_neg, hns]
      rintro rfl
      exact hn hns
    · split
      · rfl
      · exact hns
  have hl' : d'.Leads p above n := hl.grows hg hhere
  have hh' : d'.HasHere := by
    unfold HasHere
    rw [hhere]
    exact hg.directory _ hh
  refine ⟨above, n, hl, hl', hh', hhere, hl'.place ?_, ?_, ?_⟩
  · rw [ha, if_pos rfl]
    rfl
  · rw [FileTree.file?, ha, if_pos rfl]
  · intro ns hns
    rw [FileTree.file?, FileTree.file?, ha, if_neg hns]

/-- A file that is there is read by the path that leads to it. -/
theorem Wrote.readBytes {target : List FileName} (h : d.Wrote p target bytes d') :
    d'.readBytes p = .ok bytes := by
  have hf := h.file
  unfold FileTree.file? FileTree.at? at hf
  unfold Disk.readBytes Disk.find
  rw [h.place]
  dsimp only
  cases hg : d'.tree.get? target with
  | none => simp [hg] at hf
  | some t =>
      cases t with
      | directory es => simp [hg, FileTree.top] at hf
      | file bytes' =>
          simp only [hg, Option.map_some, FileTree.top, Option.some.injEq] at hf
          simp [hf]

/-- A text that has been written is what the file holds. -/
theorem writeText_spec (hh : d.HasHere) {t : Text} (h : d.writeText p t = (.ok (), d')) :
    ∃ bytes target, t.encode = .ok bytes ∧ d.Wrote p target bytes d' := by
  unfold writeText at h
  split at h
  · cases h
  · next opened ho =>
      obtain ⟨above, n, -, hl, hh', hw⟩ := writeBytes_spec hh ho
      split at h
      · cases h
      · next bytes hb =>
          split at h
          · cases h
          · next d'' hd =>
              cases h
              obtain ⟨above', n', hl', -, -, hw'⟩ := writeBytes_spec hh' hd
              -- Both writes go to the same place, because the path still leads there.
              have hsame : above' ++ [n'] = above ++ [n] :=
                Except.ok.inj (hl'.newPlace.symm.trans hl.newPlace)
              rw [hsame] at hw'
              refine ⟨bytes, above ++ [n], hb, hw'.here.trans hw.here, hw'.place, hw'.file, ?_⟩
              intro ns hns
              exact (hw'.others ns hns).trans (hw.others ns hns)

end Disk

/-- The document has been written: its text in the format is what the file of the path holds, and all
other files are as they were. -/
def Document.Written (doc : Document) (dumper : Dumper) (format : List Char) (d : Disk)
    (path : Path) (d' : Disk) : Prop :=
  ∃ text bytes target, doc.render dumper (Text.ofChars format) = .ok text ∧
    text.encode = .ok bytes ∧ d'.readBytes path = .ok bytes ∧ d'.place path = .ok target ∧
    ∀ ns, ns ≠ target → d'.tree.file? ns = d.tree.file? ns

theorem Document.write_spec {doc : Document} {dumper : Dumper} {d d' : Disk} {base path : Path}
    {format : List Char} (hh : d.HasHere)
    (h : doc.write dumper d base format = (.ok path, d')) :
    path = outputPath base format ∧ doc.Written dumper format d path d' := by
  unfold write at h
  dsimp only at h
  split at h
  · cases h
  · next text ht =>
      have he := Disk.ensureDirectories_extends hh (outputPath base format).parent
      split at h
      · cases h
      · next d₁ hd =>
          rw [hd] at he
          split at h
          · cases h
          · next d₂ hw =>
              cases h
              obtain ⟨bytes, target, hb, hwrote⟩ := Disk.writeText_spec (hh.extends he) hw
              refine ⟨rfl, text, bytes, target, ht, hb, hwrote.readBytes, hwrote.place, ?_⟩
              intro ns hns
              exact (hwrote.others ns hns).trans (he.files ns)

end RouteScribe
