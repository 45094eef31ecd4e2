import RouteScribe.Generation.Pipeline
import RouteScribe.Proofs.Files.Writing
import RouteScribe.Proofs.Providers.Setup
import RouteScribe.Proofs.Routes.Locating
import RouteScribe.Proofs.Survey.Faithful
import RouteScribe.Proofs.Survey.Requests

/-! # How a generation ends

`Obeys` is the table of the ways in which a generation may end: wrong options, a missing directory,
nothing to write, and a written document that holds exactly the operations of the calls that
succeeded.  A generation follows the table unless something is in its way: a name or a path that the
system refuses, directories that lie too deep, or a provider that cannot be set up.  Then it fails in
another way, but still before anything has been done (`generate_obeys_iff`).

Everything behind the search is said of a generation that has come so far (`Begins`): what it does
then (`generate_begins`), and what becomes of the selected files (`surveyed_generate`). -/

namespace RouteScribe

open Survey (Succeeded)

variable {w : Workplace} {o : GeneratorOptions} {p : Provider} {f : OutputFormat} {d : Describer}
  {es : List (FileName × FileTree)}

/-- What the survey of a generation works on. -/
def Workplace.setting (w : Workplace) (o : GeneratorOptions) (d : Describer) : Survey.Setting :=
  ⟨w.disk, o.dir, d⟩

/-- The route files of a tree that the patterns select. -/
def GeneratorOptions.selected (o : GeneratorOptions) (t : FileTree) : List (List Char) :=
  Route.select (o.routes.getD []) (Route.filesOf t)

/-- The document is assembled from the operations of the calls that succeeded: none is lost and none
is added. -/
def Document.Collects (doc : Document) (o : GeneratorOptions)
    (found : List Char → Method → Operation → Prop) : Prop :=
  doc = .assemble doc.paths o.info o.servers ∧ SurveyResult.Tidy doc.paths ∧
    ∀ path method op, Assoc.find? doc.paths path method = some op ↔
      ∃ p m, path = Text.ofChars p ∧ method = Text.ofChars m ∧ found p m op

/-- What a generation does with the selected files, which are described to it. -/
structure Surveyed (w : Workplace) (o : GeneratorOptions) (d : Describer) (files : List (List Char))
    (g : Generated) : Prop where
  /-- Only selected files are asked about. -/
  calls : ∀ q ∈ g.queries, ∃ file ∈ files, ∃ m, Survey.query (w.setting o d) file m = q
  /-- There is a document if any call succeeded. -/
  document : g.document.isSome ↔ ∃ path m op, Succeeded d g.queries path m op
  /-- Without a document nothing is written. -/
  nothing : g.document = none → g.outcome = .ok none ∧ g.disk = w.disk
  /-- The document has the operations that were found, and it is written. -/
  collects : ∀ doc, g.document = some doc →
    doc.Collects o (Succeeded d g.queries) ∧ g.outcome =
      ((doc.write w.limits.dumper w.disk o.outputFile o.format).1.map some).mapError .writing
  /-- The file of the answer holds the document, and no other file has changed. -/
  written : ∀ doc path, g.document = some doc → g.outcome = .ok (some path) →
    path = outputPath o.outputFile o.format ∧
      doc.Written w.limits.dumper o.format w.disk path g.disk

/-- The ways in which a generation may end. -/
structure Obeys (w : Workplace) (o : GeneratorOptions) (g : Generated) : Prop where
  /-- Wrong options are told before anything else is done. -/
  rejected : ∀ e, w.registry.check o.provider o.key o.format = .error e →
    g.outcome = .error (.configuration e) ∧ g.entries = [] ∧ g.reads = [] ∧ g.queries = [] ∧
      g.disk = w.disk
  /-- So is a directory that is none. -/
  missing : ∀ p, w.registry.check o.provider o.key o.format = .ok p →
    w.disk.isDirectory o.dir ≠ .ok true →
      g.outcome = .error (.discovery (.notDirectory o.dir)) ∧ g.queries = [] ∧ g.disk = w.disk
  /-- Where no route file is selected, there is nothing to write. -/
  unselected : ∀ p f es, w.registry.check o.provider o.key o.format = .ok (p, f) →
    w.disk.find o.dir = .ok (.directory es) → o.selected (.directory es) = [] →
      g.outcome = .ok none ∧ g.queries = [] ∧ g.document = none ∧ g.disk = w.disk
  /-- The selected route files of a directory are surveyed. -/
  surveyed : ∀ p f es, w.registry.check o.provider o.key o.format = .ok (p, f) →
    w.disk.find o.dir = .ok (.directory es) → o.selected (.directory es) ≠ [] →
      ∃ d, w.describerFor o = .ok d ∧ Surveyed w o d (o.selected (.directory es)) g

/-! ### What can be in the way -/

/-- A describer is at hand, or the provider can be set up as one. -/
def Workplace.CanDescribe (w : Workplace) (p : Provider) : Prop :=
  w.describer = none → p.Unreserved

/-- Nothing is in the way of a generation with this provider. -/
structure Unhindered (w : Workplace) (o : GeneratorOptions) (p : Provider) : Prop where
  /-- Looking for the directory meets no name and no path that is too long. -/
  reached : w.disk.find o.dir ≠ .error .nameTooLong
  /-- The search gets through the directory. -/
  searched : ∀ es, w.disk.find o.dir = .ok (.directory es) →
    Route.Searchable w.limits.searching o.dir (.directory es)
  /-- There is something that describes the selected files, if there are any. -/
  described : ∀ es, w.disk.find o.dir = .ok (.directory es) → o.selected (.directory es) ≠ [] →
    w.CanDescribe p

/-- Something is in the way of a generation with this provider, and the error tells what. -/
inductive Hindered (w : Workplace) (o : GeneratorOptions) (p : Provider) : GenerationError → Prop
  /-- Looking for the directory meets a name or a path that is too long. -/
  | unreached (h : w.disk.find o.dir = .error .nameTooLong) :
    Hindered w o p (.discovery (.unreachable ⟨.nameTooLong, o.dir⟩))
  /-- The search through the directory meets a fault. -/
  | unsearched (es : List (FileName × FileTree)) (fault : Route.SearchFault)
    (hd : w.disk.find o.dir = .ok (.directory es))
    (h : Route.Ends w.limits.searching o.dir (.directory es) (some fault)) :
    Hindered w o p (.discovery (.ofFault o.dir fault))
  /-- Files are selected, and the provider has a parameter with a name that is taken. -/
  | undescribed (es : List (FileName × FileTree)) (part : ClientPart)
    (hd : w.disk.find o.dir = .ok (.directory es)) (hs : o.selected (.directory es) ≠ [])
    (h : Text.ofString part.word ∈ p.params.map Prod.fst) :
    Hindered w o p (.setup (.nameTaken part))

/-- The provider of valid options is set up, unless a parameter has a name that is taken. -/
theorem describerFor_cases (h : w.registry.check o.provider o.key o.format = .ok (p, f)) :
    (w.CanDescribe p ∧ ∃ d, w.describerFor o = .ok d) ∨
      ¬ w.CanDescribe p ∧ ∃ part : ClientPart, Text.ofString part.word ∈ p.params.map Prod.fst ∧
        w.describerFor o = .error (.nameTaken part) := by
  unfold Workplace.CanDescribe Workplace.describerFor
  cases w.describer with
  | some d => exact .inl ⟨nofun, d, rfl⟩
  | none =>
      have hp := (Registry.check_eq_ok_iff.mp h).1
      dsimp only
      by_cases hfree : p.Unreserved
      · rw [Registry.create_of_unreserved hp hfree]
        exact .inl ⟨fun _ => hfree, _, rfl⟩
      · obtain ⟨part, hmem, he⟩ := Registry.create_of_reserved hp hfree o.key o.model
        rw [he]
        exact .inr ⟨fun h => hfree (h rfl), part, hmem, rfl⟩

/-! ### Before the survey -/

/-- What cannot be looked for is no directory. -/
theorem Disk.isDirectory_ne_of_long {d : Disk} {root : Path}
    (h : d.find root = .error .nameTooLong) : d.isDirectory root ≠ .ok true := by
  simp [Disk.isDirectory, h]

theorem generate_rejected {e : ConfigurationError}
    (h : w.registry.check o.provider o.key o.format = .error e) :
    generate w o = { outcome := .error (.configuration e), entries := [], disk := w.disk } := by
  rw [generate, h]

theorem generate_unlocated {e : Route.DiscoveryError}
    (h : w.registry.check o.provider o.key o.format = .ok (p, f))
    (hl : Route.locate w.limits.searching w.disk o.dir = .error e) :
    generate w o =
      { outcome := .error (.discovery e), entries := Generation.opening o p, disk := w.disk } := by
  rw [generate, h]
  dsimp only
  rw [hl]

/-! ### The survey -/

/-- A generation has valid options and has got through its directory. -/
structure Begins (w : Workplace) (o : GeneratorOptions) (p : Provider) (f : OutputFormat)
    (es : List (FileName × FileTree)) : Prop where
  checked : w.registry.check o.provider o.key o.format = .ok (p, f)
  found : w.disk.find o.dir = .ok (.directory es)
  searched : Route.Searchable w.limits.searching o.dir (.directory es)

/-- The survey that a generation makes in a pool. -/
def Workplace.surveyed (w : Workplace) (o : GeneratorOptions) (d : Describer) (pool : Pool)
    (files : List (List Char)) : Survey.Ended :=
  Survey.run (w.setting o d) pool files w.schedule

/-- The messages about the time that the survey took. -/
def Workplace.timing (w : Workplace) : List Log.Entry :=
  [.separator,
    Log.elapsedLine "Generation completed".toList ((w.reading 1).sub (w.reading 0))]

/-- What a generation leaves behind that is ended by an error after its first messages. -/
def Generated.stopped (w : Workplace) (o : GeneratorOptions) (p : Provider) (e : GenerationError) :
    Generated :=
  { outcome := .error e, entries := Generation.opening o p, disk := w.disk }

/-- The survey of the files below a directory of a well-formed disk is faithful. -/
theorem faithful_surveyed (hw : w.disk.WellFormed)
    (hd : w.disk.find o.dir = .ok (.directory es)) (d : Describer) {pool : Pool}
    (hp : pool.active < pool.limit) :
    Survey.Faithful (w.setting o d) (o.selected (.directory es))
      (w.surveyed o d pool (o.selected (.directory es))) := by
  have ht := hw.find hd
  have hsub := Route.select_sublist (o.routes.getD []) (Route.filesOf (.directory es))
  refine Survey.faithful_run hp (Disk.nulFree_of_find hd) (hsub.nodup (Route.nodup_filesOf ht)) ?_ _
  intro file hf
  exact Route.nulFree_filesOf ht (hsub.mem hf)

/-- A generation that has got through its directory has selected nothing, or has nothing that
describes the selected files, or it surveys them in a pool. -/
theorem generate_begins (hw : w.disk.WellFormed) (hc : 1 ≤ o.concurrency)
    (h : Begins w o p f es) :
    (o.selected (.directory es) = [] ∧
      ∃ entry ∈ [Generation.noFiles o, Generation.noneSelected (o.routes.getD [])], generate w o =
        { outcome := .ok none, entries := Generation.opening o p ++ [entry], disk := w.disk }) ∨
    (o.selected (.directory es) ≠ [] ∧ ∃ error, w.describerFor o = .error error ∧
      generate w o = .stopped w o p (.setup error)) ∨
    o.selected (.directory es) ≠ [] ∧ ∃ d pool, w.describerFor o = .ok d ∧
      Pool.make o.concurrency = .ok pool ∧ pool.active < pool.limit ∧
      let e := w.surveyed o d pool (o.selected (.directory es))
      generate w o = Generation.finish w o (Generation.opening o p ++ e.entries ++ w.timing) e := by
  have hl : Route.locate w.limits.searching w.disk o.dir = .ok (Route.filesOf (.directory es)) :=
    (Route.locate_eq_ok_iff hw).mpr ⟨es, h.found, h.searched, rfl⟩
  obtain ⟨pool, hmake, hp⟩ := Pool.exists_make hc
  have hout := fun d => (faithful_surveyed hw h.found d hp).outcome
  rw [generate, h.checked]
  dsimp only
  rw [hl]
  unfold GeneratorOptions.selected at hout ⊢
  cases hf : Route.filesOf (.directory es) with
  | nil => exact .inl ⟨by simp [Route.select], _, List.mem_cons_self, rfl⟩
  | cons g gs =>
      dsimp only
      rw [hf] at hout
      cases hs : Route.select (o.routes.getD []) (g :: gs) with
      | nil => exact .inl ⟨rfl, _, List.mem_cons_of_mem _ List.mem_cons_self, rfl⟩
      | cons k ks =>
          rw [hs] at hout
          dsimp only
          rw [Generation.survey]
          cases hd : w.describerFor o with
          | error error => exact .inr (.inl ⟨List.cons_ne_nil k ks, error, rfl, rfl⟩)
          | ok d =>
              refine .inr (.inr ⟨List.cons_ne_nil k ks, d, pool, rfl, hmake, hp, ?_⟩)
              have hout := hout d
              unfold Workplace.surveyed Workplace.setting at hout ⊢
              dsimp only
              rw [hmake]
              dsimp only
              rw [hout]
              rfl

theorem collects_document {files : List (List Char)} {e : Survey.Ended}
    (he : Survey.Faithful (w.setting o d) files e) :
    (Generation.document o e.result).Collects o (Succeeded d e.queries) := by
  refine ⟨rfl, SurveyResult.tidy_pathMap he.ordered.2, ?_⟩
  intro path method op
  have hf := SurveyResult.find?_pathMap e.result path method op
  simp only [← he.succeeded_iff] at hf
  exact hf

/-- What is found by a faithful survey is written as the table says. -/
theorem surveyed_finish {files : List (List Char)} {e : Survey.Ended} (hh : w.disk.HasHere)
    (he : Survey.Faithful (w.setting o d) files e) (entries : List Log.Entry) :
    Surveyed w o d files (Generation.finish w o entries e) := by
  have hcalls : ∀ q ∈ e.queries, ∃ file ∈ files, ∃ m, Survey.query (w.setting o d) file m = q := by
    intro q hq
    obtain ⟨file, ho, m, -, hm⟩ := Survey.mem_due.mp (he.queries.mem_iff.mp hq)
    exact ⟨file, Survey.mem_of_mem_owners ho, m, hm⟩
  have hfound := fun path m op => he.succeeded_iff path m op
  have hcollects := collects_document he
  unfold Generation.finish
  dsimp only
  by_cases hn : e.result.paths = []
  · rw [if_pos (List.isEmpty_iff.mpr hn)]
    refine ⟨hcalls, ?_, fun _ => ⟨rfl, rfl⟩, by simp, by simp⟩
    constructor
    · simp
    · rintro ⟨path, m, op, hs⟩
      have := (hfound path m op).mp hs
      simp [hn, Assoc.find?, Assoc.get?] at this
  · rw [if_neg (by simpa using hn)]
    have hsome : ∃ path m op, Succeeded d e.queries path m op := by
      obtain ⟨path, m, op, h⟩ := he.ordered.2.exists_find? hn
      exact ⟨path, m, op, (hfound path m op).mpr h⟩
    cases hw : (Generation.document o e.result).write w.limits.dumper w.disk o.outputFile
      o.format with
    | mk outcome disk =>
        cases outcome with
        | error error =>
            refine ⟨hcalls, by simpa using hsome, by simp, ?_, by simp⟩
            rintro doc hd
            cases hd
            exact ⟨hcollects, by rw [hw]; rfl⟩
        | ok path =>
            refine ⟨hcalls, by simpa using hsome, by simp, ?_, ?_⟩
            · rintro doc hd
              cases hd
              exact ⟨hcollects, by rw [hw]; rfl⟩
            · rintro doc path' hd hp
              cases hd
              cases hp
              exact Document.write_spec hh hw

theorem queries_finish (w : Workplace) (o : GeneratorOptions) (entries : List Log.Entry)
    (e : Survey.Ended) : (Generation.finish w o entries e).queries = e.queries := by
  unfold Generation.finish
  dsimp only
  split
  · rfl
  · split <;> rfl

theorem requests_finish (w : Workplace) (o : GeneratorOptions) (entries : List Log.Entry)
    (e : Survey.Ended) : (Generation.finish w o entries e).requests = e.requests := by
  unfold Generation.finish
  dsimp only
  split
  · rfl
  · split <;> rfl

/-- A generation makes no calls, or it asks a model what its describer gives for them. -/
theorem requests_generate (w : Workplace) (o : GeneratorOptions) :
    (generate w o).queries = [] ∧ (generate w o).requests = [] ∨
    ∃ d, w.describerFor o = .ok d ∧ (generate w o).requests =
      (generate w o).queries.filterMap fun q => (d.describe q).request := by
  unfold generate
  split
  · exact .inl ⟨rfl, rfl⟩
  · dsimp only
    split
    · exact .inl ⟨rfl, rfl⟩
    · exact .inl ⟨rfl, rfl⟩
    · split
      · exact .inl ⟨rfl, rfl⟩
      · unfold Generation.survey
        split
        · exact .inl ⟨rfl, rfl⟩
        · next d hd =>
            split
            · exact .inl ⟨rfl, rfl⟩
            · next pool hmake =>
                have hp : pool.active < pool.limit := by
                  rw [Pool.active_make hmake]
                  exact pool.limit_pos
                have hrequests := fun files =>
                  Survey.requests_run (s := ⟨w.disk, o.dir, d⟩) hp files w.schedule
                refine .inr ⟨d, hd, ?_⟩
                dsimp only
                split
                · exact hrequests _
                · rw [requests_finish, queries_finish]
                  exact hrequests _

/-- A generation that has got through its directory surveys the selected files. -/
theorem surveyed_generate (hw : w.disk.WellFormed) (hc : 1 ≤ o.concurrency)
    (h : Begins w o p f es) (hd : w.describerFor o = .ok d) :
    Surveyed w o d (o.selected (.directory es)) (generate w o) := by
  rcases generate_begins hw hc h with ⟨-, entry, -, hg⟩ | ⟨-, error, he, -⟩ |
    ⟨-, d', pool, hd', -, hp, hg⟩
  · rw [hg]
    refine ⟨by simp, ?_, fun _ => ⟨rfl, rfl⟩, by simp, by simp⟩
    simp [Succeeded]
  · cases hd.symm.trans he
  · cases hd.symm.trans hd'
    rw [hg]
    exact surveyed_finish hw.here (faithful_surveyed hw h.found d hp) _

/-- The calls of a generation are those that are due for the selected files. -/
theorem queries_generate (hw : w.disk.WellFormed) (hc : 1 ≤ o.concurrency)
    (h : Begins w o p f es) (hd : w.describerFor o = .ok d) :
    (generate w o).queries.Perm (Survey.due (w.setting o d) (o.selected (.directory es))) := by
  rcases generate_begins hw hc h with ⟨hn, entry, -, hg⟩ | ⟨-, error, he, -⟩ |
    ⟨-, d', pool, hd', -, hp, hg⟩
  · rw [hg, hn]
    exact .refl _
  · cases hd.symm.trans he
  · cases hd.symm.trans hd'
    rw [hg, queries_finish]
    exact (faithful_surveyed hw h.found d hp).queries

/-- A generation without a describer fails if it needs one, and does nothing. -/
theorem generate_undescribed (hw : w.disk.WellFormed) (hc : 1 ≤ o.concurrency)
    (hb : Begins w o p f es) {error : SetupError} (he : w.describerFor o = .error error) :
    (generate w o).outcome = (if o.selected (.directory es) = [] then .ok none
      else .error (.setup error)) ∧ (generate w o).disk = w.disk ∧ (generate w o).queries = [] := by
  rcases generate_begins hw hc hb with ⟨hn, entry, -, hg⟩ | ⟨hn, error', he', hg⟩ |
    ⟨-, d, pool, hd, -⟩
  · rw [hg, if_pos hn]
    exact ⟨rfl, rfl, rfl⟩
  · cases he.symm.trans he'
    rw [hg, if_neg hn]
    exact ⟨rfl, rfl, rfl⟩
  · cases hd.symm.trans he

/-- A generation gets through its directory, or it is ended before by an error. -/
theorem generate_cases (hw : w.disk.WellFormed) :
    (∃ e entries, generate w o = { outcome := .error e, entries, disk := w.disk }) ∨
      ∃ p f es, Begins w o p f es := by
  cases hp : w.registry.check o.provider o.key o.format with
  | error e => exact .inl ⟨_, _, generate_rejected hp⟩
  | ok pf =>
      cases hl : Route.locate w.limits.searching w.disk o.dir with
      | error e => exact .inl ⟨_, _, generate_unlocated hp hl⟩
      | ok found =>
          obtain ⟨es, hfound, hsearched, -⟩ := (Route.locate_eq_ok_iff hw).mp hl
          exact .inr ⟨pf.1, pf.2, es, hp, hfound, hsearched⟩

/-- Only a generation that has surveyed its directory has a document. -/
theorem begins_of_document (hw : w.disk.WellFormed) (hc : 1 ≤ o.concurrency) {doc : Document}
    (h : (generate w o).document = some doc) :
    ∃ p f es d, Begins w o p f es ∧ w.describerFor o = .ok d := by
  rcases generate_cases (o := o) hw with ⟨e, entries, hg⟩ | ⟨p, f, es, hb⟩
  · rw [hg] at h
    cases h
  · rcases generate_begins hw hc hb with ⟨-, entry, -, hg⟩ | ⟨-, error, -, hg⟩ |
      ⟨-, d, pool, hd, -⟩
    · rw [hg] at h
      cases h
    · rw [hg] at h
      cases h
    · exact ⟨p, f, es, d, hb, hd⟩

/-- A generation that surveys a directory can only fail when it writes its document. -/
theorem Surveyed.exists_writing {files : List (List Char)} {g : Generated}
    (hs : Surveyed w o d files g) {e : GenerationError} (h : g.outcome = .error e) :
    ∃ doc error, g.document = some doc ∧ e = .writing error ∧
      (doc.write w.limits.dumper w.disk o.outputFile o.format).1 = .error error := by
  cases hd : g.document with
  | none =>
      rw [(hs.nothing hd).1] at h
      cases h
  | some doc =>
      rw [(hs.collects doc hd).2] at h
      cases hw : (doc.write w.limits.dumper w.disk o.outputFile o.format).1 with
      | ok path =>
          rw [hw] at h
          cases h
      | error error =>
          rw [hw] at h
          cases h
          exact ⟨doc, error, rfl, rfl, hw⟩

/-! ### The table -/

/-- What is in the way of a generation stops it. -/
theorem generate_of_not_unhindered (hw : w.disk.WellFormed) (hc : 1 ≤ o.concurrency)
    (h : w.registry.check o.provider o.key o.format = .ok (p, f)) (hu : ¬ Unhindered w o p) :
    ∃ e, Hindered w o p e ∧ generate w o = .stopped w o p e := by
  by_cases hreached : w.disk.find o.dir = .error .nameTooLong
  · exact ⟨_, .unreached hreached, generate_unlocated h (Route.locate_eq_unreachable hreached)⟩
  by_cases hdir : ∃ es, w.disk.find o.dir = .ok (.directory es)
  swap
  · refine absurd ⟨hreached, ?_, ?_⟩ hu
    · exact fun es hes => absurd ⟨es, hes⟩ hdir
    · exact fun es hes => absurd ⟨es, hes⟩ hdir
  obtain ⟨es, hes⟩ := hdir
  have hends := Route.ends_searchFault? w.limits.searching o.dir (.directory es) (hw.find hes)
    (Disk.nulFree_of_find hes)
  cases hfault : Route.searchFault? w.limits.searching o.dir (.directory es) with
  | some fault =>
      rw [hfault] at hends
      refine ⟨_, .unsearched es fault hes hends, generate_unlocated h ?_⟩
      rw [Route.locate_directory hes, hfault]
  | none =>
      rw [hfault] at hends
      have hsame : ∀ es', w.disk.find o.dir = .ok (.directory es') → es' = es := by
        intro es' hes'
        cases hes.symm.trans hes'
        rfl
      have hsearched : ∀ es', w.disk.find o.dir = .ok (.directory es') →
          Route.Searchable w.limits.searching o.dir (.directory es') :=
        fun es' hes' => hsame es' hes' ▸ hends
      rcases describerFor_cases h with ⟨hcan, -⟩ | ⟨-, part, hpart, herror⟩
      · exact absurd ⟨hreached, hsearched, fun _ _ _ => hcan⟩ hu
      rcases generate_begins hw hc ⟨h, hes, hends⟩ with ⟨hs, -⟩ | ⟨hs, error, he, hg⟩ |
        ⟨-, d, pool, hd, -⟩
      · exact absurd ⟨hreached, hsearched, fun es' hes' hne => absurd (hsame es' hes' ▸ hs) hne⟩ hu
      · cases he.symm.trans herror
        exact ⟨_, .undescribed es part hes hs hpart, hg⟩
      · cases hd.symm.trans herror

/-- A table that is obeyed leaves no room for what is in the way. -/
theorem Obeys.outcome_ne (h : Obeys w o (generate w o))
    (hcheck : w.registry.check o.provider o.key o.format = .ok (p, f)) {e : GenerationError}
    (he : Hindered w o p e) : (generate w o).outcome ≠ .error e := by
  intro hout
  have hdir : ∀ es, w.disk.find o.dir = .ok (.directory es) → ∃ error, e = .writing error := by
    intro es hes
    by_cases hs : o.selected (.directory es) = []
    · cases hout.symm.trans (h.unselected p f es hcheck hes hs).1
    · obtain ⟨d, -, hsurveyed⟩ := h.surveyed p f es hcheck hes hs
      obtain ⟨doc, error, -, rfl, -⟩ := hsurveyed.exists_writing hout
      exact ⟨error, rfl⟩
  cases he with
  | unreached hlong =>
      have hm := (h.missing _ hcheck (Disk.isDirectory_ne_of_long hlong)).1
      cases hout.symm.trans hm
  | unsearched es fault hes =>
      obtain ⟨error, herror⟩ := hdir es hes
      cases herror
  | undescribed es part hes =>
      obtain ⟨error, herror⟩ := hdir es hes
      cases herror

/-- A generation with nothing in its way obeys the table. -/
theorem obeys_of_unhindered (hw : w.disk.WellFormed) (hc : 1 ≤ o.concurrency)
    (hu : ∀ p f, w.registry.check o.provider o.key o.format = .ok (p, f) → Unhindered w o p) :
    Obeys w o (generate w o) := by
  refine ⟨?_, ?_, ?_, ?_⟩
  · intro e he
    rw [generate_rejected he]
    exact ⟨rfl, rfl, rfl, rfl, rfl⟩
  · rintro ⟨p, f⟩ hcheck hd
    have hno : ∀ es, w.disk.find o.dir ≠ .ok (.directory es) := by
      intro es hes
      refine hd ?_
      rw [Disk.isDirectory, hes]
      rfl
    rw [generate_unlocated hcheck (Route.locate_eq_notDirectory hno (hu p f hcheck).reached)]
    exact ⟨rfl, rfl, rfl⟩
  · intro p f es hcheck hes hs
    have hb : Begins w o p f es := ⟨hcheck, hes, (hu p f hcheck).searched es hes⟩
    rcases generate_begins hw hc hb with ⟨-, entry, -, hg⟩ | ⟨hne, -⟩ | ⟨hne, -⟩
    · rw [hg]
      exact ⟨rfl, rfl, rfl, rfl⟩
    · exact absurd hs hne
    · exact absurd hs hne
  · intro p f es hcheck hes hs
    have hb : Begins w o p f es := ⟨hcheck, hes, (hu p f hcheck).searched es hes⟩
    rcases describerFor_cases hcheck with ⟨-, d, hd⟩ | ⟨hcannot, -⟩
    · exact ⟨d, hd, surveyed_generate hw hc hb hd⟩
    · exact absurd ((hu p f hcheck).described es hes hs) hcannot

/-- **How a generation ends.**  If its options are valid, it obeys the table exactly if nothing is in
its way; wrong options are always told as the table says.  Where something is in the way, the
generation fails with an error that tells what, and nothing has been done. -/
theorem generate_obeys_iff (w : Workplace) (o : GeneratorOptions) (hw : w.disk.WellFormed)
    (hc : 1 ≤ o.concurrency) :
    (Obeys w o (generate w o) ↔
      ∀ p f, w.registry.check o.provider o.key o.format = .ok (p, f) → Unhindered w o p) ∧
    ∀ p f, w.registry.check o.provider o.key o.format = .ok (p, f) → ¬ Unhindered w o p →
      ∃ e, Hindered w o p e ∧ (generate w o).outcome = .error e ∧ (generate w o).reads = [] ∧
        (generate w o).queries = [] ∧ (generate w o).disk = w.disk := by
  refine ⟨⟨?_, obeys_of_unhindered hw hc⟩, ?_⟩
  · intro h p f hcheck
    by_contra hu
    obtain ⟨e, he, hg⟩ := generate_of_not_unhindered hw hc hcheck hu
    refine h.outcome_ne hcheck he ?_
    rw [hg]
    rfl
  · intro p f hcheck hu
    obtain ⟨e, he, hg⟩ := generate_of_not_unhindered hw hc hcheck hu
    rw [hg]
    exact ⟨e, he, rfl, rfl, rfl, rfl⟩

/-! ### A directory with files of all kinds -/

/-- The bytes of a text in ASCII. -/
def asciiBytes (s : String) : List UInt8 := s.toList.map fun c => c.toNat.toUInt8

/-- Five route files: one has two methods, one is no text, one has no methods, and two have the same
path. -/
def mixedEntries : List (FileName × FileTree) :=
  [("accounts".toList, .directory
      [("route.ts".toList, .file (asciiBytes "export const GET\nexport const POST"))]),
    ("broken".toList, .directory [("route.ts".toList, .file [0xff])]),
    ("empty".toList, .directory [("route.ts".toList, .file [])]),
    ("users".toList, .directory
      [("route.js".toList, .file (asciiBytes "export const PUT")),
        ("route.ts".toList, .file (asciiBytes "export const DELETE"))])]

/-- A disk with these files below `app`. -/
def mixedRoutes : Disk := ⟨.directory [("app".toList, .directory mixedEntries)], []⟩

/-- The directory of the files. -/
def mixedRoot : Path := ⟨.root, ["app".toList]⟩

/-- The files in order. -/
def mixedFiles : List (List Char) :=
  ["accounts/route.ts", "broken/route.ts", "empty/route.ts", "users/route.js",
    "users/route.ts"].map String.toList

/-- Options for a generation below `app` in JSON. -/
def mixedOptions : GeneratorOptions :=
  { dir := mixedRoot, key := some ['k'], format := "json".toList }

/-- A place where these files are described. -/
def mixedWorkplace (d : Describer) : Workplace :=
  { registry := .builtin, clock := [], disk := mixedRoutes, answer := fun _ => .failure []
    describer := some d }

theorem wellFormed_mixedRoutes : mixedRoutes.WellFormed := by
  have happ : FileName.Legal "app".toList := by constructor <;> decide +kernel
  have haccounts : FileName.Legal "accounts".toList := by constructor <;> decide +kernel
  have hbroken : FileName.Legal "broken".toList := by constructor <;> decide +kernel
  have hempty : FileName.Legal "empty".toList := by constructor <;> decide +kernel
  have husers : FileName.Legal "users".toList := by constructor <;> decide +kernel
  have hts : FileName.Legal "route.ts".toList := by constructor <;> decide +kernel
  have hjs : FileName.Legal "route.js".toList := by constructor <;> decide +kernel
  have hone : ∀ bytes, (FileTree.directory [("route.ts".toList, .file bytes)]).WellFormed :=
    fun _ => ⟨List.nodup_singleton _, hts, trivial, trivial⟩
  exact ⟨⟨List.nodup_singleton _, happ, ⟨by decide +kernel, haccounts, hone _, hbroken, hone _,
    hempty, hone _, husers, ⟨by decide +kernel, hjs, trivial, hts, trivial, trivial⟩, trivial⟩,
    trivial⟩, rfl⟩

theorem selected_mixed (h : o.routes.getD [] = []) :
    o.selected (.directory mixedEntries) = mixedFiles := by
  have hpaths : ((FileTree.directory mixedEntries).files.filter fun f =>
      Route.isRouteFile f.1).map (fun f => joined ['/'] f.1) = mixedFiles := by decide +kernel
  have hsorted : mixedFiles.Pairwise fun a b => textLe a b = true := by decide +kernel
  rw [GeneratorOptions.selected, h, Route.filesOf, hpaths, List.mergeSort_of_pairwise hsorted]
  rfl

theorem searchable_mixed : Route.Searchable 950 mixedRoot (.directory mixedEntries) :=
  Route.searchable_of_find wellFormed_mixedRoutes rfl (by decide +kernel)

/-- Three calls are due: two for the first file, and one for the first file of the shared path. -/
theorem due_mixed (d : Describer) :
    Survey.due ⟨mixedRoutes, mixedRoot, d⟩ mixedFiles =
      [("accounts/route.ts", "get"), ("accounts/route.ts", "post"), ("users/route.js", "put")].map
        fun c => Survey.query ⟨mixedRoutes, mixedRoot, d⟩ c.1.toList c.2.toList := by
  have howners : Survey.owners mixedFiles =
      ["accounts/route.ts".toList, "broken/route.ts".toList, "empty/route.ts".toList,
        "users/route.js".toList] := by decide +kernel
  have hread : ∀ file answer, mixedRoutes.readText (mixedRoot.join (Path.ofChars file)) = answer →
      Survey.source ⟨mixedRoutes, mixedRoot, d⟩ file = answer := fun _ _ h => h
  have haccounts := hread "accounts/route.ts".toList
    (.ok "export const GET\nexport const POST".toList) (by decide +kernel)
  have hbroken := hread "broken/route.ts".toList (.error (.notText ⟨.startByte, 0xff, 0, 1⟩))
    (by decide +kernel)
  have hempty := hread "empty/route.ts".toList (.ok []) (by decide +kernel)
  have husers := hread "users/route.js".toList (.ok "export const PUT".toList) (by decide +kernel)
  have htwo : exportedMethods "export const GET\nexport const POST".toList =
      ["get".toList, "post".toList] := by
    refine exportedMethods_eq_of_perm (.of_eq (by decide +kernel)) ?_
    exact List.pairwise_pair.mpr (by decide +kernel)
  have hnone : exportedMethods [] = [] := by decide +kernel
  have hone : exportedMethods "export const PUT".toList = ["put".toList] := by decide +kernel
  simp only [Survey.due, howners, List.flatMap_cons, List.flatMap_nil, Survey.methodsOf, haccounts,
    hbroken, hempty, husers, htwo, hnone, hone, List.map_cons, List.map_nil, List.nil_append,
    List.cons_append]

/-- The table is obeyed by a generation over these files where one of the calls fails.  The others
have their operations in the document. -/
theorem obeys_mixed_routes :
    let d : Describer := ⟨[], fun q =>
      ⟨1, if q.method = "post".toList then .error [] else .ok default, none⟩⟩
    let w := mixedWorkplace d
    w.disk.WellFormed ∧ 1 ≤ mixedOptions.concurrency ∧
      Obeys w mixedOptions (generate w mixedOptions) ∧
      ((generate w mixedOptions).queries.map RouteQuery.route).Perm
        ["GET /accounts".toList, "POST /accounts".toList, "PUT /users".toList] ∧
      (generate w mixedOptions).document.isSome := by
  intro d w
  have hw : w.disk.WellFormed := wellFormed_mixedRoutes
  have hc : 1 ≤ mixedOptions.concurrency := by decide
  have hb : Begins w mixedOptions _ .json mixedEntries := ⟨rfl, rfl, searchable_mixed⟩
  have hobeys : Obeys w mixedOptions (generate w mixedOptions) := by
    refine (generate_obeys_iff w mixedOptions hw hc).1.mpr ?_
    intro p f _
    refine ⟨?_, ?_, fun _ _ _ => nofun⟩
    · rw [hb.found]
      exact nofun
    · intro es hes
      cases hb.found.symm.trans hes
      exact hb.searched
  have hqueries := queries_generate hw hc hb rfl
  rw [selected_mixed rfl] at hqueries
  replace hqueries := hqueries.trans (.of_eq (due_mixed d))
  refine ⟨hw, hc, hobeys, ?_, ?_⟩
  · exact (hqueries.map RouteQuery.route).trans (.of_eq (by decide +kernel))
  · have hfirst := hqueries.mem_iff.mpr List.mem_cons_self
    exact (surveyed_generate hw hc hb rfl).document.mpr
      ⟨"/accounts".toList, "get".toList, default, _, hfirst, rfl, rfl, rfl⟩

/-- A name of 256 characters is too long to be looked for, so the table is not obeyed. -/
theorem not_obeys_long_name :
    let w : Workplace :=
      { registry := .builtin, clock := [], disk := ⟨.directory [], []⟩
        answer := fun _ => .failure [] }
    let o : GeneratorOptions :=
      { dir := ⟨.relative, [List.replicate 256 'a']⟩, key := some ['k'] }
    w.disk.WellFormed ∧ 1 ≤ o.concurrency ∧ ¬ Obeys w o (generate w o) := by
  intro w o
  refine ⟨⟨⟨List.nodup_nil, trivial⟩, rfl⟩, by decide, ?_⟩
  intro h
  have hplace : w.disk.place o.dir = .error .nameTooLong := by decide +kernel
  have hlong : w.disk.find o.dir = .error .nameTooLong := by rw [Disk.find, hplace]
  have hm := (h.missing _ rfl (Disk.isDirectory_ne_of_long hlong)).1
  rw [generate_unlocated rfl (Route.locate_eq_unreachable hlong)] at hm
  cases hm

end RouteScribe
