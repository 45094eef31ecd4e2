import RouteScribe.Proofs.Generation.Failure
import RouteScribe.Proofs.Routes.ExportForm

/-! # The methods that a document names

The scan for exports ignores case in all of Unicode, and three letters beyond ASCII stand for letters
in the names of methods without having their lower case.  So a text exports known methods only exactly
if none of its exports is spelled with such a letter (`exportsKnown_iff`), and a document names known methods
only exactly if no such name was found in a file and described (`method_keys_known_iff`). -/

namespace RouteScribe

open AlongList Source

/-- The text exports methods only that are known. -/
def ExportsKnown (source : List Char) : Prop := ∀ m ∈ exportedMethods source, m ∈ Method.known

/-- No export of the text spells its name with a letter that keeps it from being known. -/
def PlainlyExports (source : List Char) : Prop :=
  ∀ u w v x, source = u ++ (w ++ v) → Export declarations methodNames w x →
    (∀ c ∈ v.head?, isWord c = false) → ∀ c ∈ x, c ∉ oddLetters

theorem plainlyExports_iff {source : List Char} :
    PlainlyExports source ↔ ∀ x ∈ exports source, ∀ c ∈ x, c ∉ oddLetters := by
  constructor
  · intro h x hx
    obtain ⟨u, w, v, hs, hw, hv⟩ := mem_exports_iff_export.mp hx
    exact h u w v x hs hw hv
  · intro h u w v x hs hw hv
    exact h x (mem_exports_iff_export.mpr ⟨u, w, v, hs, hw, hv⟩)

/-- What is exported is the name of a method in some spelling. -/
theorem spells_of_mem_exports {source x : List Char} (h : x ∈ exports source) :
    Spells methodNames x := by
  obtain ⟨u, w, v, -, ⟨e, b, y, d, g, -, -, -, -, -, hx, -⟩, -⟩ := mem_exports_iff_export.mp h
  exact hx

theorem exportsKnown_iff {source : List Char} : ExportsKnown source ↔ PlainlyExports source := by
  rw [plainlyExports_iff]
  constructor
  · intro h x hx
    exact (lower_mem_known_iff (spells_of_mem_exports hx)).mp (h _ (mem_exportedMethods.mpr ⟨x, hx, rfl⟩))
  · intro h m hm
    obtain ⟨x, hx, rfl⟩ := mem_exportedMethods.mp hm
    exact (lower_mem_known_iff (spells_of_mem_exports hx)).mpr (h x hx)

/-! ### Documents -/

namespace Survey

/-- No name that is spelled with such a letter is found in an owner and described. -/
def PlainlyAnswered (s : Setting) (files : List (List Char)) : Prop :=
  ∀ file ∈ owners files, ∀ text, source s file = .ok text → ∀ x ∈ exports text,
    (∃ op, answer s file (lower x) = .ok op) → ∀ c ∈ x, c ∉ oddLetters

theorem plainlyAnswered_iff {s : Setting} {files : List (List Char)} : PlainlyAnswered s files ↔
    ∀ file ∈ owners files, ∀ m ∈ methodsOf s file, ∀ op, answer s file m = .ok op →
      m ∈ Method.known := by
  constructor
  · intro h file ho m hm op hop
    obtain ⟨text, ht, hm⟩ := mem_methodsOf.mp hm
    obtain ⟨x, hx, rfl⟩ := mem_exportedMethods.mp hm
    exact (lower_mem_known_iff (spells_of_mem_exports hx)).mpr (h file ho text ht x hx ⟨op, hop⟩)
  · rintro h file ho text ht x hx ⟨op, hop⟩
    have hm := mem_methodsOf.mpr ⟨text, ht, mem_exportedMethods.mpr ⟨x, hx, rfl⟩⟩
    exact (lower_mem_known_iff (spells_of_mem_exports hx)).mp (h file ho _ hm op hop)

end Survey

/-- The methods that the document names are known. -/
def Document.NamesKnown (d : Document) : Prop :=
  ∀ item ∈ d.paths, ∀ e ∈ item.2, ∃ m ∈ Method.known, e.1 = Text.ofChars m

theorem Document.namesKnown_iff {d : Document} (h : SurveyResult.Tidy d.paths) : d.NamesKnown ↔
    ∀ path method op, Assoc.find? d.paths path method = some op →
      ∃ m ∈ Method.known, method = Text.ofChars m := by
  constructor
  · intro hknown path method op hfind
    obtain ⟨item, hitem, he⟩ := Assoc.exists_of_find? hfind
    exact hknown (path, item) hitem (method, op) he
  · rintro hknown ⟨path, item⟩ hitem ⟨method, op⟩ he
    refine hknown path method op ?_
    rw [Assoc.find?, Assoc.get?_of_mem h.paths hitem]
    exact Assoc.get?_of_mem (h.methods _ hitem) he

/-- **Which names methods have.**  A text exports known methods only exactly if no export in it is
spelled with one of the letters that have a lower case of their own beyond ASCII.  The document of a
generation names known methods only exactly if no such name was found in a route file and described. -/
theorem method_keys_known_iff (source : List Char) :
    (ExportsKnown source ↔ PlainlyExports source) ∧
    ∀ (w : Workplace) (o : GeneratorOptions), w.disk.WellFormed → 1 ≤ o.concurrency →
      ∀ doc, (generate w o).document = some doc → ∃ p f es d, Begins w o p f es ∧
        w.describerFor o = .ok d ∧
          (doc.NamesKnown ↔ Survey.PlainlyAnswered (w.setting o d) (o.selected (.directory es))) := by
  refine ⟨exportsKnown_iff, ?_⟩
  intro w o hw hc doc hdoc
  obtain ⟨p, f, es, d, hb, hd⟩ := begins_of_document hw hc hdoc
  refine ⟨p, f, es, d, hb, hd, ?_⟩
  obtain ⟨⟨-, htidy, hfind⟩, -⟩ := (surveyed_generate hw hc hb hd).collects doc hdoc
  have hq := queries_generate hw hc hb hd
  have hsucceeded := Survey.succeeded_iff_of_perm hq
  rw [Document.namesKnown_iff htidy, Survey.plainlyAnswered_iff]
  constructor
  · intro h file ho m hm op hop
    have hs := (hsucceeded _ m op).mpr ⟨file, ho, rfl, hm, hop⟩
    obtain ⟨k, hk, heq⟩ := h _ _ op ((hfind _ _ op).mpr ⟨_, m, rfl, rfl, hs⟩)
    rwa [SurveyResult.ofChars_injective heq]
  · intro h path method op hop
    obtain ⟨path, m, rfl, rfl, hs⟩ := (hfind _ _ op).mp hop
    obtain ⟨file, ho, -, hm, hop⟩ := (hsucceeded path m op).mp hs
    exact ⟨m, h file ho m hm op hop, rfl⟩

/-- A text and the document of a route, both with a name that is spelled plainly. -/
theorem method_keys_known_one_route :
    let w := answering default
    w.disk.WellFormed ∧ 1 ≤ appOptions.concurrency ∧ ExportsKnown "export const Get = 1".toList ∧
      ∃ doc, (generate w appOptions).document = some doc ∧ doc.NamesKnown := by
  intro w
  have hw : w.disk.WellFormed := CommandLine.wellFormed_oneRoute
  obtain ⟨htext, hgenerate⟩ := method_keys_known_iff "export const Get = 1".toList
  have hplain : PlainlyExports "export const Get = 1".toList :=
    plainlyExports_iff.mpr (by decide +kernel)
  refine ⟨hw, by decide, htext.mpr hplain, ?_⟩
  obtain ⟨doc, hdoc⟩ : ∃ doc, (generate w appOptions).document = some doc :=
    Option.isSome_iff_exists.mp (by decide +kernel)
  refine ⟨doc, hdoc, ?_⟩
  obtain ⟨p, f, es, d, hb, hd, hknown⟩ := hgenerate w appOptions hw (by decide) doc hdoc
  cases hd
  cases hb.found
  refine hknown.mpr (Survey.plainlyAnswered_iff.mpr fun file ho m hm op hop => ?_)
  clear hop
  revert file m
  decide +kernel

/-- The name in the export of this text is spelled with a long `s`. -/
theorem not_exportsKnown_longS : ¬ ExportsKnown "export const POſT = 1".toList := by
  have hexports : "POſT".toList ∈ exports "export const POſT = 1".toList := by decide +kernel
  have hlower : lower "POſT".toList = "poſt".toList := by decide +kernel
  intro h
  have hknown := h _ (mem_exportedMethods.mpr ⟨_, hexports, hlower⟩)
  exact absurd hknown (by decide)

end RouteScribe
