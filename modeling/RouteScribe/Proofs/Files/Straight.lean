import RouteScribe.Proofs.Files.Names
import RouteScribe.Proofs.Files.Resolve
import RouteScribe.Proofs.Files.Writing

/-! # Writing to an absolute path

An absolute path without steps upwards leads to the place that its names say (`Leads.eq_names`).
Making directories for it adds directories above it where nothing was and does nothing else
(`MakesAlong.paves`), and writing its file changes what stands at its names (`writeBytes_straight`).
A text that has no encoding leaves the file behind empty (`sameFiles_writeText_iff`). -/

namespace RouteScribe

/-- An absolute path without steps upwards, as it is when its text has been read. -/
structure Path.Straight (p : Path) : Prop where
  absolute : p.anchor ≠ .relative
  no_up : Path.up ∉ p.names
  proper : ∀ n ∈ p.names, FileName.Proper n

namespace Path

variable {p : Path}

theorem straight_ofChars {s : List Char} (ha : (ofChars s).anchor ≠ .relative)
    (hu : up ∉ (ofChars s).names) : (ofChars s).Straight :=
  ⟨ha, hu, fun _ => proper_of_mem_namesOf⟩

theorem climbed_of_not_mem {ns : List FileName} (h : up ∉ ns) (done : List FileName) :
    climbed done ns = done ++ ns := by
  induction ns generalizing done with
  | nil => simp [climbed]
  | cons n ns ih =>
      rw [List.mem_cons, not_or] at h
      rw [climbed, if_neg (Ne.symm h.1), ih h.2, ← List.append_cons]

theorem Straight.of_prefix {ns : List FileName} (h : p.Straight) (hn : ns <+: p.names) :
    Straight ⟨p.anchor, ns⟩ :=
  ⟨h.absolute, fun hm => h.no_up (hn.subset hm), fun n hm => h.proper n (hn.subset hm)⟩

/-- An ending other than a point makes no step upwards. -/
theorem Straight.withEnding (h : p.Straight) {ending : List Char} (hne : ending ≠ [])
    (hs : '/' ∉ ending) (hpoint : ending ≠ ['.']) : (p.withEnding ending).Straight := by
  rw [withEnding_eq h.proper h.absolute hne hs]
  refine ⟨h.absolute, fun hm => ?_, proper_endedNames h.proper hne hs⟩
  rcases List.mem_append.mp hm with hm | hm
  · exact h.no_up (List.dropLast_subset p.names hm)
  · have heq : up = p.names.getLast?.getD [] ++ '.' :: ending := List.mem_singleton.mp hm
    cases hl : p.names.getLast?.getD [] with
    | nil =>
        rw [hl] at heq
        exact hpoint (List.cons.inj heq).2.symm
    | cons c cs =>
        rw [hl] at heq
        have hlength := congrArg List.length heq
        have hpos := List.length_pos_iff.mpr hne
        simp only [up, List.length_append, List.length_cons, List.length_nil] at hlength
        omega

end Path

namespace Disk

variable {d d' : Disk} {p : Path} {above names : List FileName} {n : FileName} {bytes : List UInt8}

theorem Leads.eq_names (h : d.Leads p above n) (hp : p.Straight) : above ++ [n] = p.names := by
  have hup : Path.up ∉ p.names.dropLast := fun hm => hp.no_up (List.dropLast_subset p.names hm)
  have hclimbed := FileTree.climbed_of_follow h.follow
  rw [Disk.start, if_neg hp.absolute, Path.climbed_of_not_mem hup, List.nil_append] at hclimbed
  rw [← hclimbed]
  exact List.dropLast_append_getLast? n h.last

/-- Whatever a straight path leads to stands where its names lead. -/
theorem place_eq_names {place : List FileName} (hp : p.Straight) (h : d.place p = .ok place) :
    place = p.names := by
  have hclimbed := FileTree.climbed_of_follow (place_eq_ok_iff.mp h).2
  rwa [Disk.start, if_neg hp.absolute, Path.climbed_of_not_mem hp.no_up, List.nil_append,
    eq_comm] at hclimbed

/-! ### Making directories -/

/-- Directories have been added on the way to the names, where nothing was. -/
def Paves (d : Disk) (names : List FileName) (d' : Disk) : Prop :=
  ∀ ns, d'.tree.at? ns = d.tree.at? ns ∨
    d.tree.at? ns = none ∧ d'.tree.at? ns = some .directory ∧ ns <+: names

theorem Paves.refl (d : Disk) (names : List FileName) : d.Paves names d := fun _ => .inl rfl

theorem Paves.trans {d'' : Disk} (h : d.Paves names d') (h' : d'.Paves names d'') :
    d.Paves names d'' := by
  intro ns
  rcases h' ns with hs' | ⟨hn', hd', hp'⟩
  · rw [hs']
    exact h ns
  · rcases h ns with hs | ⟨-, hd, -⟩
    · exact .inr ⟨hs ▸ hn', hd', hp'⟩
    · rw [hd] at hn'
      cases hn'

/-- What is made for a straight path stands on the way to its names. -/
theorem MakesAlong.paves (h : MakesAlong p d d') (hp : p.Straight) (hh : d.HasHere) :
    d.Paves p.names d' := by
  induction h with
  | refl d => exact .refl d p.names
  | @make d d' names hn _ ih =>
      have hone : d.Paves p.names (d.makeDirectory ⟨p.anchor, names⟩).2 := by
        rcases makeDirectory_cases hh ⟨p.anchor, names⟩ with hd | ⟨above, n, hl, hnone, -, ha⟩
        · rw [hd]
          exact .refl d p.names
        · have hnames : above ++ [n] = names := hl.eq_names (hp.of_prefix hn)
          rw [hnames] at hnone ha
          intro ns
          by_cases hns : ns = names
          · exact .inr ⟨hns ▸ hnone, by rw [ha, if_pos hns], hns ▸ hn⟩
          · exact .inl (by rw [ha, if_neg hns])
      exact hone.trans (ih (hh.extends (makeDirectory_extends hh _)))

/-! ### Writing the file -/

/-- The file of a straight path is written where its names lead. -/
theorem writeBytes_straight (hp : p.Straight) (hh : d.HasHere)
    (h : d.writeBytes p bytes = (.ok (), d')) :
    d.tree.at? p.names ≠ some .directory ∧
      ∀ ns, d'.tree.at? ns = if ns = p.names then some (.file bytes) else d.tree.at? ns := by
  obtain ⟨above, n, hl, hn, -, ha⟩ := writeBytes_at? hh h
  rw [hl.eq_names hp] at hn ha
  exact ⟨hn, ha⟩

theorem exists_writeBytes (h : d.Leads p above n) (hn : d.tree.at? (above ++ [n]) ≠ some .directory)
    (bytes : List UInt8) : ∃ d', d.writeBytes p bytes = (.ok (), d') := by
  rw [writeBytes, h.newPlace]
  cases hg : d.tree.get? (above ++ [n]) with
  | none => simp [hg]
  | some t =>
      cases t with
      | file _ => simp [hg]
      | directory es => exact absurd (FileTree.at?_eq_directory_iff.mpr ⟨es, hg⟩) hn

/-- A file that has been opened can be written. -/
theorem exists_writeBytes_of_opened (hh : d.HasHere) (h : d.writeBytes p [] = (.ok (), d'))
    (bytes : List UInt8) : ∃ d'', d'.writeBytes p bytes = (.ok (), d'') := by
  obtain ⟨above, n, -, hl, -, hw⟩ := writeBytes_spec hh h
  refine exists_writeBytes hl (fun hd => ?_) bytes
  have hfile := hw.file
  rw [FileTree.file?, hd] at hfile
  cases hfile

theorem eq_of_writeBytes_error {fault : FileFault} (h : d.writeBytes p bytes = (.error fault, d')) :
    d' = d := by
  unfold writeBytes at h
  split at h
  · cases h
    rfl
  · split at h <;> cases h
    rfl

/-- All files are as they were. -/
def SameFiles (d d' : Disk) : Prop := ∀ ns, d'.tree.file? ns = d.tree.file? ns

/-- Opening a file changes nothing exactly if it is there and empty. -/
theorem sameFiles_opened_iff {opened : Disk} (hp : p.Straight) (hh : d.HasHere)
    (h : d.writeBytes p [] = (.ok (), opened)) :
    d.SameFiles opened ↔ d.tree.file? p.names = some [] := by
  obtain ⟨-, ha⟩ := writeBytes_straight hp hh h
  have hempty : opened.tree.file? p.names = some [] := by rw [FileTree.file?, ha, if_pos rfl]
  refine ⟨fun hs => hs p.names ▸ hempty, fun hf ns => ?_⟩
  by_cases hns : ns = p.names
  · rw [hns, hf, hempty]
  · rw [FileTree.file?, FileTree.file?, ha, if_neg hns]

/-- A text that cannot be written leaves the files as they were exactly if it has an encoding, the
file cannot be opened, or the file is there and empty. -/
theorem sameFiles_writeText_iff (hp : p.Straight) (hh : d.HasHere) (t : Text) :
    (∀ e d', d.writeText p t = (.error e, d') → d.SameFiles d') ↔
      ((∃ opened, d.writeBytes p [] = (.ok (), opened)) →
        (∃ bytes, t.encode = .ok bytes) ∨ d.tree.file? p.names = some []) := by
  rw [writeText]
  cases hw : d.writeBytes p [] with
  | mk outcome opened =>
      cases outcome with
      | error fault =>
          refine iff_of_true ?_ (by simp)
          rintro e d' he
          cases he
          rw [eq_of_writeBytes_error hw]
          exact fun ns => rfl
      | ok u =>
          cases ht : t.encode with
          | error row =>
              rw [forall_prop_of_true ⟨opened, rfl⟩, ← sameFiles_opened_iff hp hh hw]
              constructor
              · exact fun h => .inr (h _ opened rfl)
              · rintro (⟨bytes, hb⟩ | hs) e d' he
                · cases hb
                · cases he
                  exact hs
          | ok bytes =>
              obtain ⟨written, hwritten⟩ := exists_writeBytes_of_opened hh hw bytes
              refine iff_of_true ?_ fun _ => .inl ⟨bytes, rfl⟩
              intro e d' he
              simp only [hwritten] at he
              cases he

/-- A text that has been written stands where the names of the path lead. -/
theorem writeText_straight (hp : p.Straight) (hh : d.HasHere) {t : Text}
    (h : d.writeText p t = (.ok (), d')) :
    d.tree.at? p.names ≠ some .directory ∧ ∃ bytes, t.encode = .ok bytes ∧
      ∀ ns, d'.tree.at? ns = if ns = p.names then some (.file bytes) else d.tree.at? ns := by
  unfold writeText at h
  split at h
  · cases h
  · next opened ho =>
      obtain ⟨-, -, -, -, hh', -⟩ := writeBytes_spec hh ho
      obtain ⟨hn, ha⟩ := writeBytes_straight hp hh ho
      split at h
      · cases h
      · next bytes hb =>
          split at h
          · cases h
          · next hw =>
              cases h
              obtain ⟨-, ha'⟩ := writeBytes_straight hp hh' hw
              refine ⟨hn, bytes, hb, fun ns => ?_⟩
              rw [ha']
              split
              · rfl
              · next hns => rw [ha, if_neg hns]

end Disk
end RouteScribe
