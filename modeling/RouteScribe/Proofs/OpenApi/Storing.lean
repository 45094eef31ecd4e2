import Mathlib.Data.List.TakeWhile
import RouteScribe.Proofs.Files.Faults
import RouteScribe.Proofs.OpenApi.Page

/-! # Which documents can be stored

A document is rendered before anything else is done, and the file is opened before the text is
encoded.  So the writing fails for a reason that lies in the document exactly if this cannot be
rendered, or if its text has no encoding and the disk lets the file be opened (`Document.Storable`).
In all other cases only the disk can be the reason (`Document.failsOfDisk_write_iff`). -/

namespace RouteScribe

/-! ### Texts with an encoding -/

theorem Text.encode_isOk_iff {t : Text} :
    (∃ bytes, t.encode = .ok bytes) ↔ ∀ c ∈ t, Text.isScalar c = true := by
  unfold Text.encode Text.firstUnencodable?
  cases h : t.dropWhile Text.isScalar with
  | nil => simpa using List.dropWhile_eq_nil_iff.mp h
  | cons c rest =>
      refine iff_of_false (by simp) ?_
      intro hall
      rw [List.dropWhile_eq_nil_iff.mpr hall] at h
      cases h

theorem OutputFormat.eq_of_ofName? {format : List Char} {f : OutputFormat}
    (h : OutputFormat.ofName? (Text.ofChars format) = some f) : format = f.name.toList := by
  have hname : Text.ofString f.name = Text.ofChars format := by
    simpa using List.find?_some h
  have hchars := congrArg Text.chars? hname
  rw [Text.ofString, Text.chars?_ofChars, Text.chars?_ofChars] at hchars
  exact (Option.some.inj hchars).symm

/-- The names of the formats do not hold the character NUL. -/
theorem OutputFormat.not_mem_of_ofName? {format : List Char} {f : OutputFormat}
    (h : OutputFormat.ofName? (Text.ofChars format) = some f) : '\x00' ∉ format := by
  rw [eq_of_ofName? h]
  cases f <;> decide

/-- The missing directories above the path can be made, and then the file can be opened. -/
def Disk.Opens (d : Disk) (p : Path) : Prop :=
  ∃ above opened, d.ensureDirectories p.parent = (.ok (), above) ∧
    above.writeBytes p [] = (.ok (), opened)

theorem Disk.opens_iff {d above : Disk} {p : Path}
    (h : d.ensureDirectories p.parent = (.ok (), above)) :
    d.Opens p ↔ ∃ opened, above.writeBytes p [] = (.ok (), opened) := by
  simp [Disk.Opens, h]

theorem Disk.not_opens {d above : Disk} {p : Path} {fault : FileFault}
    (h : d.ensureDirectories p.parent = (.error fault, above)) : ¬ d.Opens p := by
  simp [Disk.Opens, h]

/-- The disk is the reason for the failure. -/
def WriteError.IsOfDisk (e : WriteError) : Prop :=
  ∃ fault, e = .noFile fault ∧ fault.kind ≠ .nullCharacter

theorem WriteError.isOfDisk_noFile {fault : FileFault} :
    (WriteError.noFile fault).IsOfDisk ↔ fault.kind ≠ .nullCharacter := by
  simp [IsOfDisk]

/-- The outcome is a success, or only the disk is the reason for the failure. -/
def FailsOfDisk {α : Type} (r : Except WriteError α × Disk) : Prop :=
  ∀ e, r.1 = .error e → e.IsOfDisk

/-- A text fails for its own sake exactly if the file can be opened and there is no encoding. -/
theorem Disk.failsOfDisk_writeText_iff {d : Disk} {p : Path} (hp : p.NulFree) {t : Text} :
    FailsOfDisk (d.writeText p t) ↔
      ((∃ opened, d.writeBytes p [] = (.ok (), opened)) → ∀ c ∈ t, Text.isScalar c = true) := by
  have hopen := writeBytes_meetsNoNull (d := d) hp []
  rw [← Text.encode_isOk_iff, writeText]
  cases hw : d.writeBytes p [] with
  | mk outcome opened =>
      rw [hw] at hopen
      cases outcome with
      | error fault =>
          refine iff_of_true ?_ (by simp)
          rintro e he
          cases he
          exact WriteError.isOfDisk_noFile.mpr (hopen fault rfl)
      | ok u =>
          dsimp only
          cases ht : t.encode with
          | error row =>
              refine iff_of_false ?_ (by simp)
              intro h
              obtain ⟨fault, hfault, -⟩ := h _ rfl
              cases hfault
          | ok bytes =>
              refine iff_of_true ?_ (by simp)
              have hbytes := writeBytes_meetsNoNull (d := opened) hp bytes
              intro e he
              cases hb : opened.writeBytes p bytes with
              | mk outcome d =>
                  rw [hb] at hbytes
                  cases outcome with
                  | error fault =>
                      simp only [hb] at he
                      cases he
                      exact WriteError.isOfDisk_noFile.mpr (hbytes fault rfl)
                  | ok u =>
                      simp only [hb] at he
                      cases he

namespace Document

/-! ### Documents with a text -/

/-- Whether there is a text does not depend on the format. -/
theorem render_isOk_iff {name : Text} {f : OutputFormat} (h : OutputFormat.ofName? name = some f)
    (d : Document) (dumper : Dumper) : (∃ t, d.render dumper name = .ok t) ↔ d.Renders dumper := by
  rw [render, h, ← d.source_isOk_iff dumper]
  simp only [mapError_eq_ok_iff]
  cases f with
  | yaml => rw [renderAs, map_isOk_iff, members, map_isOk_iff]
  | json => rw [renderAs, map_isOk_iff]
  | html => rw [renderAs, Page.ofDocument_eq, map_isOk_iff]

/-! ### Writing a document -/

/-- The document has a text, and where the file can be opened this text has an encoding. -/
def Storable (doc : Document) (dumper : Dumper) (d : Disk) (base : Path) (format : List Char) :
    Prop :=
  doc.Renders dumper ∧ ∀ text, doc.render dumper (Text.ofChars format) = .ok text →
    d.Opens (outputPath base format) → ∀ c ∈ text, Text.isScalar c = true

/-- A document with a text without surrogates can be stored everywhere. -/
theorem Storable.of_text {doc : Document} {dumper : Dumper} {d : Disk} {base : Path}
    {format : List Char} {f : OutputFormat}
    (hf : OutputFormat.ofName? (Text.ofChars format) = some f) {text : Text}
    (h : doc.render dumper (Text.ofChars format) = .ok text)
    (ht : ∀ c ∈ text, Text.isScalar c = true) : doc.Storable dumper d base format := by
  refine ⟨(render_isOk_iff hf doc dumper).mp ⟨text, h⟩, ?_⟩
  intro text' h' _
  cases h.symm.trans h'
  exact ht

/-- Only the disk keeps the document from being written exactly if the document can be stored. -/
theorem failsOfDisk_write_iff (doc : Document) (dumper : Dumper) (d : Disk) {base : Path}
    (hb : base.NulFree) {format : List Char} {f : OutputFormat}
    (hf : OutputFormat.ofName? (Text.ofChars format) = some f) :
    FailsOfDisk (doc.write dumper d base format) ↔ doc.Storable dumper d base format := by
  have hp : (outputPath base format).NulFree :=
    hb.withEnding (OutputFormat.not_mem_of_ofName? hf)
  rw [Storable, ← render_isOk_iff hf, write]
  cases ht : doc.render dumper (Text.ofChars format) with
  | error e =>
      refine iff_of_false ?_ (by simp)
      intro h
      obtain ⟨fault, hfault, -⟩ := h _ rfl
      cases hfault
  | ok text =>
      have hmade := Disk.ensureDirectories_meetsNoNull (d := d) hp.parent
      simp only [Except.ok.injEq, exists_eq', forall_eq', true_and]
      cases hd : d.ensureDirectories (outputPath base format).parent with
      | mk made above =>
          rw [hd] at hmade
          cases made with
          | error fault =>
              refine iff_of_true ?_ fun ho => absurd ho (Disk.not_opens hd)
              rintro e he
              cases he
              exact WriteError.isOfDisk_noFile.mpr (hmade fault rfl)
          | ok u =>
              rw [Disk.opens_iff hd, ← Disk.failsOfDisk_writeText_iff hp]
              unfold FailsOfDisk
              cases hw : above.writeText (outputPath base format) text with
              | mk outcome d => cases outcome <;> simp [hw]

end Document
end RouteScribe
