import RouteScribe.Proofs.Files.Straight
import RouteScribe.Proofs.OpenApi.Render
import RouteScribe.Proofs.OpenApi.Storing

/-! # Writing a document as a whole or not at all

A document that is written next to an absolute base path is what the file holds, and nothing else
changes but that directories are made above the file where nothing was (`Document.stored_of_write`).
A document that cannot be written should change no file.  All failures but one are of this kind: the
text is made before anything is touched, and a file that cannot be opened stays as it is.  But the
file is opened, and so emptied, before the text is encoded, so a text without an encoding leaves an
empty file behind (`Document.allOrNothing_iff`). -/

namespace RouteScribe

open Disk

/-- The name of a format can stand at the end of a file name. -/
theorem OutputFormat.proper_name (f : OutputFormat) :
    f.name.toList ≠ [] ∧ '/' ∉ f.name.toList ∧ f.name.toList ≠ ['.'] := by
  cases f <;> decide

namespace Document

variable {doc : Document} {dumper : Dumper} {d d' : Disk} {base path : Path} {format : List Char}

/-- The document has been written to the path, and to nowhere else: the path stands next to the base
path, the file at its names holds the text of the document, and where anything else has changed
there is now a directory above the file, and was nothing before. -/
structure Stored (doc : Document) (dumper : Dumper) (d : Disk) (base : Path) (format : List Char)
    (path : Path) (d' : Disk) : Prop where
  beside : path.parent = base.parent
  name : path.names.getLast? = some (base.names.getLast?.getD [] ++ '.' :: format)
  place : d'.place path = .ok path.names
  content : ∃ text bytes, doc.render dumper (Text.ofChars format) = .ok text ∧
    text.encode = .ok bytes ∧ d'.readBytes path = .ok bytes ∧
    d'.tree.file? path.names = some bytes
  free : d.tree.at? path.names ≠ some .directory
  elsewhere : ∀ ns, ns ≠ path.names → d'.tree.at? ns = d.tree.at? ns ∨
    d.tree.at? ns = none ∧ d'.tree.at? ns = some .directory ∧ ns <+: path.parent.names

/-- The document is stored, or all files are as they were. -/
structure AllOrNothing (doc : Document) (dumper : Dumper) (d : Disk) (base : Path)
    (format : List Char) : Prop where
  stored : ∀ path d', doc.write dumper d base format = (.ok path, d') →
    doc.Stored dumper d base format path d'
  refused : ∀ e d', doc.write dumper d base format = (.error e, d') → d.SameFiles d'

/-! ### The path -/

theorem exists_format_of_render {name text : Text} (h : doc.render dumper name = .ok text) :
    ∃ f, OutputFormat.ofName? name = some f := by
  rw [render] at h
  cases hf : OutputFormat.ofName? name with
  | none => simp [hf] at h
  | some f => exact ⟨f, rfl⟩

theorem outputPath_eq (hb : base.Straight) {f : OutputFormat}
    (hf : OutputFormat.ofName? (Text.ofChars format) = some f) :
    outputPath base format = { base with names := Path.endedNames base.names format } := by
  obtain ⟨hne, hs, -⟩ := f.proper_name
  rw [← OutputFormat.eq_of_ofName? hf] at hne hs
  exact Path.withEnding_eq hb.proper hb.absolute hne hs

theorem straight_outputPath (hb : base.Straight) {f : OutputFormat}
    (hf : OutputFormat.ofName? (Text.ofChars format) = some f) :
    (outputPath base format).Straight := by
  obtain ⟨hne, hs, hpoint⟩ := f.proper_name
  rw [← OutputFormat.eq_of_ofName? hf] at hne hs hpoint
  exact hb.withEnding hne hs hpoint

/-! ### Documents that are written -/

theorem exists_of_write (h : doc.write dumper d base format = (.ok path, d')) :
    ∃ text above, doc.render dumper (Text.ofChars format) = .ok text ∧
      d.ensureDirectories path.parent = (.ok (), above) ∧
      above.writeText path text = (.ok (), d') := by
  unfold write at h
  dsimp only at h
  split at h
  · cases h
  · next text ht =>
      split at h
      · cases h
      · next above hd =>
          split at h
          · cases h
          · next hw =>
              cases h
              exact ⟨text, above, ht, hd, hw⟩

theorem stored_of_write (hh : d.HasHere) (hb : base.Straight)
    (h : doc.write dumper d base format = (.ok path, d')) :
    doc.Stored dumper d base format path d' := by
  obtain ⟨hpath, text, bytes, target, ht, hbytes, hread, hplace, -⟩ := write_spec hh h
  obtain ⟨text', above, ht', hmade, hw⟩ := exists_of_write h
  cases ht.symm.trans ht'
  obtain ⟨f, hf⟩ := exists_format_of_render ht
  have hp : path.Straight := hpath ▸ straight_outputPath hb hf
  have heq : path = { base with names := Path.endedNames base.names format } :=
    hpath.trans (outputPath_eq hb hf)
  have habove := ensureDirectories_extends hh path.parent
  have hpaves := (ensureDirectories_makesAlong d path.parent).paves
    (hp.of_prefix (List.dropLast_prefix path.names)) hh
  rw [hmade] at habove hpaves
  obtain ⟨hfree, bytes', hbytes', ha⟩ := writeText_straight hp (hh.extends habove) hw
  cases hbytes.symm.trans hbytes'
  refine ⟨?_, ?_, ?_, ⟨text, bytes, ht, hbytes, hread, ?_⟩, ?_, fun ns hns => ?_⟩
  · simp [heq, Path.parent, Path.endedNames]
  · simp [heq, Path.endedNames]
  · rwa [← place_eq_names hp hplace]
  · rw [FileTree.file?, ha, if_pos rfl]
  · exact fun hd => hfree (habove.grows.directory _ hd)
  · rw [ha, if_neg hns]
    exact hpaves ns

/-! ### Documents that are not written -/

/-- A document that is not written changes no file exactly if it has no text, the file cannot be
opened, the text has an encoding, or the file is there and empty. -/
theorem sameFiles_of_write_iff (doc : Document) (dumper : Dumper) (hh : d.HasHere)
    (hb : base.Straight) (format : List Char) :
    (∀ e d', doc.write dumper d base format = (.error e, d') → d.SameFiles d') ↔
      ∀ text, doc.render dumper (Text.ofChars format) = .ok text →
        d.Opens (outputPath base format) → (∀ c ∈ text, Text.isScalar c = true) ∨
          d.tree.file? (outputPath base format).names = some [] := by
  rw [write]
  cases ht : doc.render dumper (Text.ofChars format) with
  | error reason =>
      refine iff_of_true ?_ ?_
      · rintro e d' he
        cases he
        exact fun ns => rfl
      · rintro _ ⟨⟩
  | ok text =>
      simp only [Except.ok.injEq, forall_eq']
      have habove := ensureDirectories_extends hh (outputPath base format).parent
      cases hmade : d.ensureDirectories (outputPath base format).parent with
      | mk made above =>
          rw [hmade] at habove
          cases made with
          | error fault =>
              refine iff_of_true ?_ fun ho => absurd ho (not_opens hmade)
              rintro e d' he
              cases he
              exact habove.files
          | ok u =>
              obtain ⟨f, hf⟩ := exists_format_of_render ht
              have hp := straight_outputPath hb hf
              rw [opens_iff hmade, ← Text.encode_isOk_iff, ← habove.files,
                ← sameFiles_writeText_iff hp (hh.extends habove)]
              refine forall₂_congr fun e d' => ?_
              have hsame : d.SameFiles d' ↔ above.SameFiles d' :=
                forall_congr' fun ns => by rw [habove.files ns]
              rw [hsame]
              cases hw : above.writeText (outputPath base format) text with
              | mk outcome d'' => cases outcome <;> simp [hw]

/-- **All or nothing.**  A document is stored as a whole, or no file changes, exactly if its text
has an encoding wherever the file can be opened; a file that is there and empty stays empty without
one. -/
theorem allOrNothing_iff (doc : Document) (dumper : Dumper) (hh : d.HasHere)
    (hb : base.Straight) (format : List Char) :
    doc.AllOrNothing dumper d base format ↔
      ∀ text, doc.render dumper (Text.ofChars format) = .ok text →
        d.Opens (outputPath base format) → (∀ c ∈ text, Text.isScalar c = true) ∨
          d.tree.file? (outputPath base format).names = some [] := by
  rw [← sameFiles_of_write_iff doc dumper hh hb]
  exact ⟨AllOrNothing.refused, fun h => ⟨fun _ _ => stored_of_write hh hb, h⟩⟩

/-- A document without paths. -/
def titled (title : Text) : Document := ⟨"3.0.0", ⟨some title, none, none⟩, [], []⟩

/-- A disk with one file. -/
def oneFile (name : String) (bytes : List UInt8) : Disk :=
  ⟨.directory [(name.toList, .file bytes)], []⟩

theorem hasHere_oneFile (name : String) (bytes : List UInt8) : (oneFile name bytes).HasHere := rfl

theorem allOrNothing_titled :
    (titled "t").AllOrNothing (.ofLimit 259) (oneFile "openapi.json" [1])
      (.ofString "/docs/v1/openapi") "json".toList := by
  have hb : (Path.ofString "/docs/v1/openapi").Straight :=
    Path.straight_ofChars (by decide) (by decide)
  have htext : ∃ text, (titled "t").render (.ofLimit 259) (Text.ofChars "json".toList) = .ok text ∧
      ∀ c ∈ text, Text.isScalar c = true := ⟨_, rfl, by decide⟩
  obtain ⟨text, ht, hs⟩ := htext
  refine (allOrNothing_iff _ _ (hasHere_oneFile _ _) hb _).mpr fun text' ht' _ => .inl ?_
  cases ht.symm.trans ht'
  exact hs

/-- A surrogate in the title alone empties a file that is there. -/
theorem not_allOrNothing_surrogate :
    (Path.ofString "/openapi").Straight ∧ (oneFile "openapi.json" [1]).HasHere ∧
      ¬ (titled [.surrogate 0]).AllOrNothing (.ofLimit 259) (oneFile "openapi.json" [1])
        (.ofString "/openapi") "json".toList := by
  refine ⟨Path.straight_ofChars (by decide) (by decide), hasHere_oneFile _ _, fun h => ?_⟩
  have hwrite : ∃ e d', (titled [.surrogate 0]).write (.ofLimit 259) (oneFile "openapi.json" [1])
      (.ofString "/openapi") "json".toList = (.error e, d') ∧
      d'.tree.file? ["openapi.json".toList] = some [] := ⟨_, _, rfl, rfl⟩
  obtain ⟨e, d', hw, hempty⟩ := hwrite
  have hsame := h.refused e d' hw ["openapi.json".toList]
  rw [hempty] at hsame
  cases hsame

end Document
end RouteScribe
