import RouteScribe.Files.Disk
import RouteScribe.Proofs.Text.Split

/-! # Why a file is not read

No file has a name with the character NUL in it, and looking for one is a mistake of the caller
rather than a fault of the disk.  A path whose names have no such character never meets this fault
(`Disk.readText_ne_null`).  Besides NUL only the length of its text can keep a path from being looked
up at all (`Path.fault?_eq_none_iff`). -/

namespace RouteScribe

/-- No name of the path holds the character NUL. -/
def Path.NulFree (p : Path) : Prop := ∀ n ∈ p.names, '\x00' ∉ n

/-- The text of the path is not too long for the system. -/
def Path.Short (p : Path) : Prop := (Utf8.encode p.shown).length ≤ maxBytes

namespace Path

variable {p : Path}

theorem nulFree_ofChars {s : List Char} (h : '\x00' ∉ s) : (ofChars s).NulFree :=
  fun _ hn hc => h (mem_of_mem_pieces (List.mem_filter.mp hn).1 hc)

theorem NulFree.join {p q : Path} (hp : p.NulFree) (hq : q.NulFree) : (p.join q).NulFree := by
  unfold Path.join
  split
  · intro n hn
    rcases List.mem_append.mp hn with hn | hn
    · exact hp n hn
    · exact hq n hn
  · exact hq

theorem any_eq_false_iff : p.names.any (·.contains '\x00') = false ↔ p.NulFree := by
  simp [NulFree]

/-- A path is looked up if it holds no NUL and is not too long. -/
theorem fault?_eq_none_iff : p.fault? = none ↔ p.NulFree ∧ p.Short := by
  rw [← any_eq_false_iff, fault?, Short, ← Nat.not_lt]
  cases p.names.any (·.contains '\x00') with
  | true => simp
  | false => simp

/-- A path without NUL can only be too long. -/
theorem NulFree.fault?_cases (h : p.NulFree) :
    p.fault? = none ∧ p.Short ∨ p.fault? = some .nameTooLong ∧ ¬ p.Short := by
  rw [fault?, any_eq_false_iff.mpr h, Short, Nat.not_le, if_neg Bool.false_ne_true]
  by_cases hl : (Utf8.encode p.shown).length > maxBytes
  · rw [if_pos hl]
    exact .inr ⟨rfl, hl⟩
  · rw [if_neg hl]
    exact .inl ⟨rfl, Nat.not_lt.mp hl⟩

theorem NulFree.fault?_ne_null (h : p.NulFree) : p.fault? ≠ some .nullCharacter := by
  rcases h.fault?_cases with ⟨hf, -⟩ | ⟨hf, -⟩ <;> simp [hf]

end Path

theorem FileTree.follow_ne_null (t : FileTree) (at' names : List FileName) :
    t.follow at' names ≠ .error .nullCharacter := by
  induction names generalizing at' with
  | nil => simp [follow]
  | cons n rest ih =>
      simp only [follow]
      split
      · split
        · exact ih _
        · split
          · simp
          · split
            · exact ih _
            · simp
      · simp
      · simp

namespace Disk

variable {d : Disk} {p : Path}

theorem place_eq_ok_iff {place : List FileName} :
    d.place p = .ok place ↔ p.fault? = none ∧ d.tree.follow (d.start p) p.names = .ok place := by
  unfold Disk.place
  cases p.fault? <;> simp

theorem place_ne_null (h : p.NulFree) : d.place p ≠ .error .nullCharacter := by
  unfold Disk.place
  split
  · next k hk =>
      rintro he
      cases he
      exact h.fault?_ne_null hk
  · exact FileTree.follow_ne_null _ _ _

theorem find_ne_null (h : p.NulFree) : d.find p ≠ .error .nullCharacter := by
  have hp := place_ne_null (d := d) h
  unfold find
  split
  · next k hk =>
      rintro he
      cases he
      exact hp hk
  · split <;> simp

/-- A path that leads somewhere can be looked up. -/
theorem fault?_of_find {t : FileTree} (h : d.find p = .ok t) : p.fault? = none := by
  unfold Disk.find at h
  split at h
  · cases h
  · next hp => exact (place_eq_ok_iff.mp hp).1

/-- Only a path without NUL leads anywhere. -/
theorem nulFree_of_find {t : FileTree} (h : d.find p = .ok t) : p.NulFree :=
  (Path.fault?_eq_none_iff.mp (fault?_of_find h)).1

theorem readText_ne_null (h : p.NulFree) (q : Path) :
    d.readText p ≠ .error (.unreachable ⟨.nullCharacter, q⟩) := by
  have hf := find_ne_null (d := d) h
  have hb : d.readBytes p ≠ .error ⟨.nullCharacter, q⟩ := by
    unfold readBytes
    split
    · simp
    · simp
    · next k hk =>
        rintro he
        cases he
        exact hf hk
  unfold readText
  split
  · next f hk =>
      rintro he
      cases he
      exact hb hk
  · split <;> simp

end Disk
end RouteScribe
