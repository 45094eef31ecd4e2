import RouteScribe.OpenApi.Write
import RouteScribe.Proofs.Files.Reading

/-! # Why a file is not written

A path whose names have no character NUL meets only faults of the disk: the directory is missing, a
file stands in the way, a name is too long.  This holds of every operation that writes, since all of
them look for the place of a new entry first. -/

namespace RouteScribe
namespace Path

theorem NulFree.parent {p : Path} (h : p.NulFree) : p.parent.NulFree :=
  fun n hn => h n (List.dropLast_subset p.names hn)

theorem NulFree.not_mem_shown {p : Path} (h : p.NulFree) : '\x00' ∉ p.shown := by
  unfold Path.shown
  split
  · decide
  · intro hm
    rcases List.mem_append.mp hm with hm | hm
    · cases ha : p.anchor <;> simp [ha, Anchor.shown] at hm
    · rcases mem_joined hm with hm | ⟨n, hn, hm⟩
      · simp at hm
      · exact h n hn hm

theorem NulFree.withEnding {p : Path} (h : p.NulFree) {ending : List Char}
    (he : '\x00' ∉ ending) : (p.withEnding ending).NulFree := by
  apply nulFree_ofChars
  intro hm
  rcases List.mem_append.mp hm with hm | hm
  · exact h.not_mem_shown hm
  · rcases List.mem_cons.mp hm with hm | hm
    · cases hm
    · exact he hm

theorem mem_of_mem_climbed {n : FileName} {done names : List FileName}
    (h : n ∈ climbed done names) : n ∈ done ∨ n ∈ names := by
  induction names generalizing done with
  | nil => exact .inl h
  | cons m names ih =>
      rw [climbed] at h
      split at h
      · rcases ih h with h | h
        · exact .inl (List.dropLast_subset done h)
        · exact .inr (List.mem_cons_of_mem m h)
      · rcases ih h with h | h
        · rcases List.mem_append.mp h with h | h
          · exact .inl h
          · exact .inr (List.mem_cons.mpr (.inl (List.mem_singleton.mp h)))
        · exact .inr (List.mem_cons_of_mem m h)

theorem NulFree.resolve {p : Path} (h : p.NulFree) {here : List FileName}
    (hh : ∀ n ∈ here, '\x00' ∉ n) : (p.resolve here).NulFree := by
  unfold Path.resolve
  split
  · intro n hn
    rcases mem_of_mem_climbed hn with hn | hn
    · exact hh n hn
    · exact h n hn
  · intro n hn
    rcases mem_of_mem_climbed hn with hn | hn
    · cases hn
    · exact h n hn

end Path

namespace Disk

variable {d : Disk} {p : Path}

/-- An operation whose failure, if it fails, is not due to the character NUL. -/
def MeetsNoNull {α : Type} (r : Except FileFault α × Disk) : Prop :=
  ∀ f, r.1 = .error f → f.kind ≠ .nullCharacter

theorem newPlace_ne_null (h : p.NulFree) : d.newPlace p ≠ .error .nullCharacter := by
  unfold newPlace
  split
  · next k hk =>
      rintro he
      cases he
      exact h.fault?_ne_null hk
  split
  · simp
  · split
    · next k hk =>
        rintro he
        cases he
        exact FileTree.follow_ne_null _ _ _ hk
    · split
      · split
        · simp
        · split <;> simp
      · simp
      · simp

theorem makeDirectory_meetsNoNull (h : p.NulFree) : MeetsNoNull (d.makeDirectory p) := by
  intro f hf
  unfold makeDirectory at hf
  split at hf
  · next k hk =>
      cases hf
      rintro rfl
      exact newPlace_ne_null h hk
  · split at hf
    · cases hf
      simp
    · cases hf

theorem ensureDirectory_meetsNoNull (h : p.NulFree) : MeetsNoNull (d.ensureDirectory p) := by
  intro f hf
  have hm := makeDirectory_meetsNoNull (d := d) h
  unfold ensureDirectory at hf
  split at hf
  · cases hf
  · next g d' hg =>
      rw [hg] at hm
      split at hf
      · cases hf
        exact hm f rfl
      · split at hf
        · cases hf
        · cases hf
          exact hm f rfl
        · next hd =>
            cases hf
            unfold isDirectory at hd
            split at hd <;> cases hd
            simp

theorem ensureDirectoriesWithin_meetsNoNull (room : Nat) (h : p.NulFree) :
    MeetsNoNull (d.ensureDirectoriesWithin room p) := by
  induction room generalizing d p with
  | zero => exact ensureDirectory_meetsNoNull h
  | succ room ih =>
      intro f hf
      have he := ensureDirectory_meetsNoNull (d := d) h
      rw [ensureDirectoriesWithin] at hf
      split at hf
      · cases hf
      · next g d' hg =>
          rw [hg] at he
          split at hf
          · split at hf
            · exact ensureDirectory_meetsNoNull h f hf
            · next hp =>
                cases hf
                exact ih h.parent f (by rw [hp])
          · cases hf
            exact he f rfl

/-- Making directories meets only faults of the disk. -/
theorem ensureDirectories_meetsNoNull (h : p.NulFree) : MeetsNoNull (d.ensureDirectories p) :=
  ensureDirectoriesWithin_meetsNoNull _ h

/-- So does writing bytes. -/
theorem writeBytes_meetsNoNull (h : p.NulFree) (bytes : List UInt8) :
    MeetsNoNull (d.writeBytes p bytes) := by
  intro f hf
  unfold writeBytes at hf
  split at hf
  · next k hk =>
      cases hf
      rintro rfl
      exact newPlace_ne_null h hk
  · split at hf
    · cases hf
      simp
    · cases hf

end Disk
end RouteScribe
