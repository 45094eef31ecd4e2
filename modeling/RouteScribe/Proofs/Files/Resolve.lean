import RouteScribe.Proofs.Files.Reading
import RouteScribe.Proofs.Files.Tree

/-! # Paths with the steps upwards taken

A path that leads somewhere leads to the same place when it is made absolute and its steps upwards
are taken (`place_resolve`), and so do the paths below it (`readText_join_resolve`), unless the
absolute path is too long.  The converse fails: a step upwards out of a directory that is missing
leads nowhere, but it disappears when it is taken. -/

namespace RouteScribe

namespace FileTree

/-- Taking the steps upwards in names leads where following them does. -/
theorem climbed_of_follow {t : FileTree} {ns ms place : List FileName}
    (h : t.follow ns ms = .ok place) : Path.climbed ns ms = place := by
  induction ms generalizing ns with
  | nil =>
      cases h
      rfl
  | cons n ms ih =>
      rw [follow_cons] at h
      rw [Path.climbed]
      split at h
      · split at h
        · next hu =>
            rw [if_pos hu]
            exact ih h
        · next hu =>
            rw [if_neg hu]
            split at h
            · cases h
            · split at h
              · exact ih h
              · cases h
      · cases h
      · cases h

end FileTree

namespace Disk

variable {d : Disk} {p q : Path} {place : List FileName} {t : FileTree}

/-- A path that leads somewhere leads there when it has been resolved, if it is not too long then. -/
theorem place_resolve (hd : d.WellFormed) (h : d.place p = .ok place)
    (hshort : (p.resolve d.here).Short) : d.place (p.resolve d.here) = .ok place := by
  obtain ⟨-, hf⟩ := place_eq_ok_iff.mp h
  have hp : (d.tree.at? place).isSome :=
    FileTree.at?_of_follow hf (by rw [hd.here.start p]; rfl)
  have hc := FileTree.climbed_of_follow hf
  have hr : p.resolve d.here = ⟨(p.resolve d.here).anchor, place⟩ ∧
      (p.resolve d.here).anchor ≠ .relative := by
    unfold Disk.start at hc
    unfold Path.resolve
    cases ha : p.anchor with
    | relative =>
        rw [if_pos ha] at hc
        exact ⟨by rw [hc], by simp⟩
    | root =>
        rw [if_neg (by simp [ha])] at hc
        exact ⟨by rw [hc], by simp⟩
    | doubleRoot =>
        rw [if_neg (by simp [ha])] at hc
        exact ⟨by rw [hc], by simp⟩
  have hnames : (p.resolve d.here).names = place := by rw [hr.1]
  have hn : (p.resolve d.here).NulFree := by
    intro n hm
    exact (hd.tree.legal hp n (hnames ▸ hm)).no_null
  rw [place_eq_ok_iff, hnames, Disk.start, if_neg hr.2]
  exact ⟨Path.fault?_eq_none_iff.mpr ⟨hn, hshort⟩, hd.tree.follow_self hp⟩

/-- A path below another one is followed from the place of that one. -/
theorem place_join (h : d.place p = .ok place) (hq : q.anchor = .relative)
    (hf : (p.join q).fault? = none) : d.place (p.join q) = d.tree.follow place q.names := by
  obtain ⟨-, hp⟩ := place_eq_ok_iff.mp h
  have hj : p.join q = { p with names := p.names ++ q.names } := by rw [Path.join, if_pos hq]
  rw [Disk.place, hf, hj]
  dsimp only [Disk.start]
  rw [FileTree.follow_append]
  unfold Disk.start at hp
  rw [hp]

theorem find_resolve (hd : d.WellFormed) (h : d.find p = .ok t)
    (hshort : (p.resolve d.here).Short) : d.find (p.resolve d.here) = .ok t := by
  unfold Disk.find at h ⊢
  split at h
  · cases h
  · next place hp =>
      rw [place_resolve hd hp hshort]
      exact h

/-- Paths to one place give one text, or none. -/
theorem toOption_readText_congr {p' : Path} (h : d.place p = d.place p') :
    (d.readText p).toOption = (d.readText p').toOption := by
  unfold Disk.readText Disk.readBytes Disk.find
  rw [← h]
  cases d.place p with
  | error k => rfl
  | ok place =>
      dsimp only
      cases d.tree.get? place with
      | none => rfl
      | some t =>
          cases t with
          | directory es => rfl
          | file bytes => rfl

/-- A file below a path that leads somewhere is the same file when the path has been resolved, where
no path is too long. -/
theorem readText_join_resolve (hd : d.WellFormed) (h : d.find p = .ok t)
    (hq : q.anchor = .relative) (hshort : (p.resolve d.here).Short)
    (hf : (p.join q).fault? = none) (hf' : ((p.resolve d.here).join q).fault? = none) :
    (d.readText ((p.resolve d.here).join q)).toOption = (d.readText (p.join q)).toOption := by
  unfold Disk.find at h
  split at h
  · cases h
  · next place hp =>
      apply toOption_readText_congr
      rw [place_join hp hq hf, place_join (place_resolve hd hp hshort) hq hf']

end Disk
end RouteScribe
