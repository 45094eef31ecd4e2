import RouteScribe.Proofs.CommandLine.DryRun
import RouteScribe.Proofs.OpenApi.Render
import RouteScribe.Proofs.OpenApi.Storing

/-! # How a generation fails

A generation answers for wrong options, for a directory that is none or cannot be read, and for the
faults of the disk.  What goes wrong in a route file or in a call is none of this: it is counted
there, and all other calls are made and collected.  `Contained` says both.

Three things escape (`generate_contained_iff`): directories that lie too deep to be searched, a
provider that cannot be set up, and a document that cannot be stored for its own sake, because an
answer that is accepted where it arrives can still be too deep to be dumped, or have no encoding.
There are no other ways to fail (`error_cases`). -/

namespace RouteScribe

/-- The failures that a generation answers for. -/
inductive GenerationError.Expected : GenerationError → Prop
  /-- The options are wrong. -/
  | options (error : ConfigurationError) : Expected (.configuration error)
  /-- The directory is none. -/
  | directory (path : Path) : Expected (.discovery (.notDirectory path))
  /-- The directory cannot be read. -/
  | reading (path : Path) (fault : FileFault) (h : fault.kind ≠ .nullCharacter) :
    Expected (.discovery (.unreadable path fault))
  /-- The disk cannot tell whether the directory is one. -/
  | search (fault : FileFault) (h : fault.kind ≠ .nullCharacter) :
    Expected (.discovery (.unreachable fault))
  /-- The disk does not take the document. -/
  | output (error : WriteError) (h : error.IsOfDisk) : Expected (.writing error)

open Survey (Succeeded)

variable {w : Workplace} {o : GeneratorOptions} {p : Provider} {f : OutputFormat}

/-- Nothing escapes from the route files and the calls of a generation. -/
structure Contained (w : Workplace) (o : GeneratorOptions) (g : Generated) : Prop where
  /-- Only expected failures end the generation, and these are reported by the program. -/
  raised : ∀ e, g.outcome = .error e → e.Expected ∧ CommandLine.isReported e = true
  /-- Every call that is due is made, whatever becomes of the other files and calls. -/
  asked : ∀ p f es d, Begins w o p f es → w.describerFor o = .ok d →
    g.queries.Perm (Survey.due (w.setting o d) (o.selected (.directory es)))
  /-- Every call that succeeds has its operation in the document, and no other operation is in it. -/
  collected : ∀ d, w.describerFor o = .ok d →
    (g.document.isSome ↔ ∃ path m op, Succeeded d g.queries path m op) ∧
      ∀ doc, g.document = some doc → doc.Collects o (Succeeded d g.queries)

/-- Nothing is asked of a generation that it cannot do. -/
structure Manageable (w : Workplace) (o : GeneratorOptions) : Prop where
  /-- The search for the route files meets no directory that lies too deep. -/
  shallow : ∀ p f, w.registry.check o.provider o.key o.format = .ok (p, f) →
    Route.locate w.limits.searching w.disk o.dir ≠ .error .tooDeep
  /-- There is something that describes the selected files, if there are any. -/
  described : ∀ p f es, Begins w o p f es → o.selected (.directory es) ≠ [] → w.CanDescribe p
  /-- The document that is collected, if any, can be stored. -/
  stored : ∀ doc, (generate w o).document = some doc →
    doc.Storable w.limits.dumper w.disk o.outputFile o.format

theorem isReported_writing_iff {error : WriteError} :
    CommandLine.isReported (.writing error) = true ↔ error.IsOfDisk := by
  cases error <;> simp [CommandLine.isReported, WriteError.IsOfDisk]

theorem GenerationError.expected_writing_iff {error : WriteError} :
    (GenerationError.writing error).Expected ↔ error.IsOfDisk :=
  ⟨fun h => by cases h; assumption, .output error⟩

/-- A search fails as expected unless directories lie too deep. -/
theorem expected_discovery_iff {room : Nat} {d : Disk} {root : Path} {e : Route.DiscoveryError}
    (hd : d.WellFormed) (h : Route.locate room d root = .error e) :
    (GenerationError.discovery e).Expected ↔ e ≠ .tooDeep := by
  by_cases hlong : d.find root = .error .nameTooLong
  · cases (Route.locate_eq_unreachable hlong).symm.trans h
    exact iff_of_true (.search _ nofun) nofun
  by_cases hdir : ∃ es, d.find root = .ok (.directory es)
  · obtain ⟨es, hes⟩ := hdir
    have hs : ¬ Route.Searchable room root (.directory es) := by
      intro hs
      cases h.symm.trans ((Route.locate_eq_ok_iff hd).mpr ⟨es, hes, hs, rfl⟩)
    rcases Route.locate_of_not_searchable hd hes hs with ⟨he, -⟩ | ⟨path, -, he⟩
    · cases he.symm.trans h
      exact iff_of_false nofun (fun h => h rfl)
    · cases he.symm.trans h
      exact iff_of_true (.reading _ _ nofun) nofun
  · have hno : ∀ es, d.find root ≠ .ok (.directory es) := fun es hes => hdir ⟨es, hes⟩
    cases (Route.locate_eq_notDirectory hno hlong).symm.trans h
    exact iff_of_true (.directory root) nofun

/-! ### Where a generation ends -/

/-- A generation fails because of its options, in the search, because nothing describes what has been
found, or when it writes. -/
theorem error_cases (hw : w.disk.WellFormed) (hc : 1 ≤ o.concurrency) {e : GenerationError}
    (h : (generate w o).outcome = .error e) :
    (∃ c, e = .configuration c) ∨
    (∃ s p f, e = .discovery s ∧ w.registry.check o.provider o.key o.format = .ok (p, f) ∧
      Route.locate w.limits.searching w.disk o.dir = .error s) ∨
    (∃ p f es part, e = .setup (.nameTaken part) ∧ Begins w o p f es ∧
      o.selected (.directory es) ≠ [] ∧ ¬ w.CanDescribe p) ∨
    ∃ doc error p f es, e = .writing error ∧ Begins w o p f es ∧
      (generate w o).document = some doc ∧
        (doc.write w.limits.dumper w.disk o.outputFile o.format).1 = .error error := by
  cases hp : w.registry.check o.provider o.key o.format with
  | error c =>
      rw [generate_rejected hp] at h
      cases h
      exact .inl ⟨c, rfl⟩
  | ok pf =>
      obtain ⟨p, f⟩ := pf
      cases hl : Route.locate w.limits.searching w.disk o.dir with
      | error s =>
          rw [generate_unlocated hp hl] at h
          cases h
          exact .inr (.inl ⟨s, p, f, rfl, rfl, rfl⟩)
      | ok found =>
          obtain ⟨es, hfound, hsearched, -⟩ := (Route.locate_eq_ok_iff hw).mp hl
          have hb : Begins w o p f es := ⟨hp, hfound, hsearched⟩
          rcases describerFor_cases hp with ⟨-, d, hd⟩ | ⟨hcannot, part, -, herror⟩
          · obtain ⟨doc, error, hdoc, he, hwrite⟩ :=
              (surveyed_generate hw hc hb hd).exists_writing h
            exact .inr (.inr (.inr ⟨doc, error, p, f, es, he, hb, hdoc, hwrite⟩))
          · obtain ⟨hout, -, -⟩ := generate_undescribed hw hc hb herror
            by_cases hs : o.selected (.directory es) = []
            · rw [if_pos hs] at hout
              cases hout.symm.trans h
            · rw [if_neg hs] at hout
              cases hout.symm.trans h
              exact .inr (.inr (.inl ⟨p, f, es, part, rfl, hb, hs, hcannot⟩))

/-- Only expected failures end a generation exactly if it is manageable. -/
theorem expected_generate_iff (hw : w.disk.WellFormed) (hc : 1 ≤ o.concurrency)
    (hf : o.outputFile.NulFree) :
    (∀ e, (generate w o).outcome = .error e → e.Expected) ↔ Manageable w o := by
  constructor
  · intro h
    refine ⟨?_, ?_, ?_⟩
    · intro p f hp hl
      have he := h (.discovery .tooDeep) (by rw [generate_unlocated hp hl])
      cases he
    · intro p f es hb hs
      rcases describerFor_cases hb.checked with ⟨hcan, -⟩ | ⟨-, part, -, herror⟩
      · exact hcan
      · have hout := (generate_undescribed hw hc hb herror).1
        rw [if_neg hs] at hout
        cases h _ hout
    · intro doc hdoc
      obtain ⟨p, f, es, d, hb, hd⟩ := begins_of_document hw hc hdoc
      have hformat := (Registry.check_eq_ok_iff.mp hb.checked).2.2
      rw [← doc.failsOfDisk_write_iff w.limits.dumper w.disk hf hformat]
      intro error herror
      refine GenerationError.expected_writing_iff.mp (h _ ?_)
      rw [((surveyed_generate hw hc hb hd).collects doc hdoc).2, herror]
      rfl
  · intro h e he
    rcases error_cases hw hc he with ⟨c, rfl⟩ | ⟨s, p, f, rfl, hp, hl⟩ |
      ⟨p, f, es, part, -, hb, hs, hcannot⟩ | ⟨doc, error, p, f, es, rfl, hb, hdoc, hwrite⟩
    · exact .options c
    · refine (expected_discovery_iff hw hl).mpr ?_
      rintro rfl
      exact h.shallow p f hp hl
    · exact absurd (h.described p f es hb hs) hcannot
    · have hformat := (Registry.check_eq_ok_iff.mp hb.checked).2.2
      exact .output error ((doc.failsOfDisk_write_iff w.limits.dumper w.disk hf hformat).mpr
        (h.stored doc hdoc) error hwrite)

/-- The failures that end a generation are reported exactly if they are expected. -/
theorem isReported_generate_iff (hw : w.disk.WellFormed) (hc : 1 ≤ o.concurrency)
    {e : GenerationError} (h : (generate w o).outcome = .error e) :
    CommandLine.isReported e = true ↔ e.Expected := by
  rcases error_cases hw hc h with ⟨c, rfl⟩ | ⟨s, p, f, rfl, -, hl⟩ | ⟨p, f, es, part, rfl, -⟩ |
    ⟨doc, error, p, f, es, rfl, -⟩
  · exact iff_of_true rfl (.options c)
  · rw [expected_discovery_iff hw hl, CommandLine.isReported, bne_iff_ne]
  · exact iff_of_false nofun nofun
  · rw [isReported_writing_iff, GenerationError.expected_writing_iff]

/-- **What escapes from a generation.**  Only expected failures are raised, and all routes are asked
about and collected, exactly if the search meets no directory that lies too deep, what is found can
be described, and the document that is collected, if any, can be stored. -/
theorem generate_contained_iff (w : Workplace) (o : GeneratorOptions) (hw : w.disk.WellFormed)
    (hc : 1 ≤ o.concurrency) (hf : o.outputFile.NulFree) :
    Contained w o (generate w o) ↔ Manageable w o := by
  rw [← expected_generate_iff hw hc hf]
  constructor
  · exact fun h e he => (h.raised e he).1
  · intro h
    refine ⟨fun e he => ⟨h e he, (isReported_generate_iff hw hc he).mpr (h e he)⟩, ?_, ?_⟩
    · intro p f es d hb hd
      exact queries_generate hw hc hb hd
    · intro d hd
      rcases generate_cases (o := o) hw with ⟨e, entries, hg⟩ | ⟨p, f, es, hb⟩
      · rw [hg]
        simp [Succeeded]
      · have hs := surveyed_generate hw hc hb hd
        exact ⟨hs.document, fun doc hdoc => (hs.collects doc hdoc).1⟩

/-- Options for a generation of `app` in JSON. -/
def appOptions : GeneratorOptions :=
  { dir := ⟨.relative, ["app".toList]⟩, key := some ['k'], format := "json".toList }

/-- A place with the route file `app/route.ts`, whose route is described by an operation. -/
def answering (op : Operation) : Workplace :=
  { CommandLine.describedOn CommandLine.oneRoute with
    describer := some ⟨[], fun _ => ⟨1, .ok op, none⟩⟩ }

theorem nulFree_appOptions : appOptions.outputFile.NulFree :=
  Path.nulFree_ofChars (by decide +kernel)

/-- A route with a plain description has a document that can be stored. -/
theorem contained_one_route :
    let w := answering default
    w.disk.WellFormed ∧ 1 ≤ appOptions.concurrency ∧ appOptions.outputFile.NulFree ∧
      Contained w appOptions (generate w appOptions) ∧
        (generate w appOptions).document.isSome := by
  intro w
  have hw : w.disk.WellFormed := CommandLine.wellFormed_oneRoute
  refine ⟨hw, by decide, nulFree_appOptions, ?_, by decide +kernel⟩
  refine (generate_contained_iff w appOptions hw (by decide) nulFree_appOptions).mpr
    ⟨?_, fun _ _ _ _ _ => nofun, ?_⟩
  · intro p f _ hl
    have hfound : Route.locate 950 w.disk appOptions.dir = .ok ["route.ts".toList] := by
      decide +kernel
    cases hfound.symm.trans hl
  · have hall : ∀ doc ∈ (generate w appOptions).document,
        (doc.render (.ofLimit 259) (Text.ofString "json")).toOption.any (·.all Text.isScalar) =
          true := by
      decide +kernel
    intro doc hdoc
    have htext := hall doc hdoc
    cases hr : doc.render (.ofLimit 259) (Text.ofString "json") with
    | error e =>
        rw [hr] at htext
        cases htext
    | ok text =>
        rw [hr] at htext
        exact .of_text rfl hr (List.all_eq_true.mp htext)

/-- An answer that is nested too deep is accepted, and ends the whole generation. -/
theorem not_contained_deep_answer :
    let w := answering { (default : Operation) with extra := [("x-deep", Document.nestedLists 299)] }
    w.disk.WellFormed ∧ 1 ≤ appOptions.concurrency ∧ appOptions.outputFile.NulFree ∧
      ¬ Contained w appOptions (generate w appOptions) := by
  intro w
  refine ⟨CommandLine.wellFormed_oneRoute, by decide, nulFree_appOptions, ?_⟩
  intro h
  have ho : (generate w appOptions).outcome = .error (.writing (.noText
      (.noDump (.tooDeep "Maximum serialization depth exceeded")))) := by
    decide +kernel
  exact Bool.noConfusion (h.raised _ ho).2

end RouteScribe
