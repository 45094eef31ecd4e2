import RouteScribe.Proofs.Except
import RouteScribe.Proofs.Generation.Outcome

/-! # Two runs of one generation

What a generation leaves behind does not depend on how long the describer takes for its answers, on
the order of the turns, on the limit of the pool, on the clock or on the console.  Two runs that
differ in nothing else are `Twins`, and twins end in the same way, leave the same disk and make the
same calls (`Twins.agree`).

The runs go different ways only inside the survey.  The survey of either run is faithful to its
files and answers, and this fixes the operations together with their order (`Faithful.paths_eq`);
nothing else of a survey reaches the document. -/

namespace RouteScribe

/-! ### Two surveys -/

namespace Survey

variable {s s' : Setting} {files : List (List Char)} {e e' : Ended}

/-- Surveys of the same files with the same answers find the same operations in the same order. -/
theorem Faithful.paths_eq (he : Faithful s files e) (he' : Faithful s' files e')
    (hd : s'.disk = s.disk) (hr : s'.root = s.root)
    (ha : ∀ q, (s'.describer.describe q).outcome = (s.describer.describe q).outcome) :
    e'.result.paths = e.result.paths := by
  have hsource : ∀ file, source s' file = source s file := by
    intro file
    rw [source, source, hd, hr]
  have hanswer : ∀ file m, answer s' file m = answer s file m := by
    intro file m
    rw [answer, ha, query, hr]
    rfl
  refine SurveyResult.Ordered.eq_of_find? he'.ordered.1 he.ordered.1 he'.ordered.2 he.ordered.2 ?_
  intro path m
  apply Option.ext
  intro op
  rw [he'.operations, he.operations]
  simp only [hsource, hanswer]

/-- Surveys of the same files make the same calls. -/
theorem Faithful.queries_perm (he : Faithful s files e) (he' : Faithful s' files e')
    (hd : s'.disk = s.disk) (hr : s'.root = s.root) : e'.queries.Perm e.queries := by
  have hdue : due s' files = due s files := by
    unfold due methodsOf source query
    rw [hd, hr]
  exact he'.queries.trans (hdue ▸ he.queries.symm)

theorem Faithful.paths_of_nil (he : Faithful s [] e) : e.result.paths = [] := by
  by_contra hn
  obtain ⟨path, m, op, hf⟩ := he.ordered.2.exists_find? hn
  obtain ⟨file, text, ho, -⟩ := (he.operations path m op).mp hf
  simp [owner?] at ho

end Survey

/-! ### From the survey to the disk -/

variable {w w' : Workplace} {o o' : GeneratorOptions} {p : Provider} {f : OutputFormat}
  {d : Describer} {es : List (FileName × FileTree)}

theorem finish_of_nil (entries : List Log.Entry) {e : Survey.Ended} (h : e.result.paths = []) :
    (Generation.finish w o entries e).outcome = .ok none ∧
      (Generation.finish w o entries e).disk = w.disk := by
  unfold Generation.finish
  dsimp only
  rw [if_pos (List.isEmpty_iff.mpr h)]
  exact ⟨rfl, rfl⟩

/-- Of a survey only the operations count for what is written. -/
theorem finish_congr (entries entries' : List Log.Entry) {e e' : Survey.Ended}
    (hd : w'.disk = w.disk) (hl : w'.limits = w.limits)
    (ho : o' = { o with concurrency := o'.concurrency })
    (h : e'.result.paths = e.result.paths) :
    (Generation.finish w' o' entries' e').outcome = (Generation.finish w o entries e).outcome ∧
      (Generation.finish w' o' entries' e').disk = (Generation.finish w o entries e).disk := by
  have hdoc : Generation.document o' e'.result = Generation.document o e.result := by
    unfold Generation.document SurveyResult.pathMap
    rw [h, ho]
  have hfile : o'.outputFile = o.outputFile := by rw [ho]
  have hformat : o'.format = o.format := by rw [ho]
  unfold Generation.finish
  dsimp only
  rw [h, hdoc, hd, hl, hfile, hformat]
  split
  · exact ⟨rfl, rfl⟩
  · split <;> exact ⟨rfl, rfl⟩

/-- A generation that gets through its directory leaves behind what is written of a faithful survey
of the selected files. -/
theorem exists_faithful (hw : w.disk.WellFormed) (hc : 1 ≤ o.concurrency) (hb : Begins w o p f es)
    (hd : w.describerFor o = .ok d) :
    ∃ e, Survey.Faithful (w.setting o d) (o.selected (.directory es)) e ∧
      (generate w o).outcome = (Generation.finish w o [] e).outcome ∧
      (generate w o).disk = (Generation.finish w o [] e).disk ∧
      (generate w o).queries.Perm e.queries := by
  have hq := queries_generate hw hc hb hd
  rcases generate_begins hw hc hb with ⟨hn, entry, -, hg⟩ | ⟨-, error, he, -⟩ |
    ⟨-, d', pool, hd', -, hp, hg⟩
  · obtain ⟨pool, -, hp⟩ := Pool.exists_make hc
    have he := faithful_surveyed hw hb.found d hp
    have hpaths : (w.surveyed o d pool (o.selected (.directory es))).result.paths = [] := by
      rw [hn] at he ⊢
      exact he.paths_of_nil
    have hf := finish_of_nil (w := w) (o := o) [] hpaths
    refine ⟨_, he, ?_, ?_, hq.trans he.queries.symm⟩
    · rw [hg, hf.1]
    · rw [hg, hf.2]
  · cases hd.symm.trans he
  · cases hd.symm.trans hd'
    have he := faithful_surveyed hw hb.found d hp
    refine ⟨_, he, ?_, ?_, hq.trans he.queries.symm⟩
    · rw [hg]
      exact (finish_congr _ _ rfl rfl rfl rfl).1
    · rw [hg]
      exact (finish_congr _ _ rfl rfl rfl rfl).2

/-! ### Two generations -/

/-- What the queries of a generation are answered with, if there is something that describes them. -/
def Workplace.answers (w : Workplace) (o : GeneratorOptions) :
    Except SetupError (RouteQuery → Except (List Char) Operation) :=
  (w.describerFor o).map fun d q => (d.describe q).outcome

/-- A generation that is made: what it works with, its options, and the console for its messages. -/
structure GenerationRun where
  workplace : Workplace
  options : GeneratorOptions
  console : Log.Console

namespace GenerationRun

/-- How the run ends. -/
def ended (r : GenerationRun) : Generated := generate r.workplace r.options

/-- What the console shows of the run. -/
def shown (r : GenerationRun) : Log.Output := r.console.printAll r.ended.entries

/-- Two runs have the same providers to choose from, the same disk, the same limits, the same options
but for the number of files at once, and describers that give the same outcomes.  How long the
describers take, the order of the turns, the clocks and the consoles may differ. -/
structure Twins (r r' : GenerationRun) : Prop where
  registry : r'.workplace.registry = r.workplace.registry
  disk : r'.workplace.disk = r.workplace.disk
  limits : r'.workplace.limits = r.workplace.limits
  options : r'.options = { r.options with concurrency := r'.options.concurrency }
  answers : ∀ p f,
    r.workplace.registry.check r.options.provider r.options.key r.options.format = .ok (p, f) →
      r'.workplace.answers r'.options = r.workplace.answers r.options

/-- Two generations that get through the same directory, with the same answers, agree. -/
theorem agree_of_begins (hw : w.disk.WellFormed) (hc : 1 ≤ o.concurrency)
    (hc' : 1 ≤ o'.concurrency) (hb : Begins w o p f es) (hb' : Begins w' o' p f es)
    (hdisk : w'.disk = w.disk) (hlimits : w'.limits = w.limits)
    (hoptions : o' = { o with concurrency := o'.concurrency })
    (hanswers : w'.answers o' = w.answers o) :
    (generate w' o').outcome = (generate w o).outcome ∧
      (generate w' o').disk = (generate w o).disk ∧
      (generate w' o').queries.Perm (generate w o).queries := by
  have hw' : w'.disk.WellFormed := hdisk ▸ hw
  have hdir : o'.dir = o.dir := by rw [hoptions]
  have hselected : o'.selected (.directory es) = o.selected (.directory es) := by
    rw [hoptions]
    rfl
  unfold Workplace.answers at hanswers
  cases hd : w.describerFor o with
  | error error =>
      rw [hd] at hanswers
      have hd' := map_eq_error_iff.mp hanswers
      obtain ⟨hout, hleft, hq⟩ := generate_undescribed hw hc hb hd
      obtain ⟨hout', hleft', hq'⟩ := generate_undescribed hw' hc' hb' hd'
      refine ⟨?_, ?_, ?_⟩
      · rw [hout', hout, hselected]
      · rw [hleft', hleft, hdisk]
      · rw [hq', hq]
  | ok d =>
      rw [hd] at hanswers
      obtain ⟨d', hd', houtcomes⟩ := map_eq_ok_iff.mp hanswers
      obtain ⟨e, he, hout, hleft, hq⟩ := exists_faithful hw hc hb hd
      obtain ⟨e', he', hout', hleft', hq'⟩ := exists_faithful hw' hc' hb' hd'
      rw [hselected] at he'
      have hpaths := he.paths_eq he' hdisk hdir (congrFun houtcomes)
      have hfinish := finish_congr [] [] hdisk hlimits hoptions hpaths
      refine ⟨?_, ?_, ?_⟩
      · rw [hout', hout, hfinish.1]
      · rw [hleft', hleft, hfinish.2]
      · exact hq'.trans ((he.queries_perm he' hdisk hdir).trans hq.symm)

/-- **Two runs agree.**  They end with the same file, without one, or with the same error; they
leave the same disk; and they make the same calls. -/
theorem Twins.agree {r r' : GenerationRun} (h : Twins r r') (hw : r.workplace.disk.WellFormed)
    (hc : 1 ≤ r.options.concurrency) (hc' : 1 ≤ r'.options.concurrency) :
    r'.ended.outcome = r.ended.outcome ∧ r'.ended.disk = r.ended.disk ∧
      r'.ended.queries.Perm r.ended.queries := by
  obtain ⟨w, o, console⟩ := r
  obtain ⟨w', o', console'⟩ := r'
  obtain ⟨hregistry, hdisk, hlimits, hoptions, hanswers⟩ := h
  dsimp only [ended] at *
  have hdir : o'.dir = o.dir := by rw [hoptions]
  have hcheck : w'.registry.check o'.provider o'.key o'.format =
      w.registry.check o.provider o.key o.format := by
    rw [hoptions, hregistry]
  cases hp : w.registry.check o.provider o.key o.format with
  | error e =>
      rw [generate_rejected hp, generate_rejected (hcheck.trans hp)]
      exact ⟨rfl, hdisk, .refl _⟩
  | ok pf =>
      obtain ⟨p, f⟩ := pf
      have hlocate : Route.locate w'.limits.searching w'.disk o'.dir =
          Route.locate w.limits.searching w.disk o.dir := by
        rw [hlimits, hdisk, hdir]
      cases hl : Route.locate w.limits.searching w.disk o.dir with
      | error e =>
          rw [generate_unlocated hp hl, generate_unlocated (hcheck.trans hp) (hlocate.trans hl)]
          exact ⟨rfl, hdisk, .refl _⟩
      | ok found =>
          obtain ⟨es, hfound, hsearched, -⟩ := (Route.locate_eq_ok_iff hw).mp hl
          have hb' : Begins w' o' p f es := by
            refine ⟨hcheck.trans hp, ?_, ?_⟩
            · rw [hdisk, hdir, hfound]
            · rw [hlimits, hdir]
              exact hsearched
          exact agree_of_begins hw hc hc' ⟨hp, hfound, hsearched⟩ hb' hdisk hlimits hoptions
            (hanswers p f hp)

end GenerationRun

/-! ### What is said -/

/-- What has been said before is said first at the end. -/
theorem prefix_entries_finish (w : Workplace) (o : GeneratorOptions) (entries : List Log.Entry)
    (e : Survey.Ended) : entries <+: (Generation.finish w o entries e).entries := by
  unfold Generation.finish
  dsimp only
  split
  · exact List.prefix_append _ _
  · split
    · exact List.prefix_append _ _
    · exact (List.prefix_append _ _).trans (List.prefix_append _ _)

/-- A generation that gets through its directory has said first what it does. -/
theorem opening_prefix_entries (hw : w.disk.WellFormed) (hc : 1 ≤ o.concurrency)
    (hb : Begins w o p f es) : Generation.opening o p <+: (generate w o).entries := by
  rcases generate_begins hw hc hb with ⟨-, entry, -, hg⟩ | ⟨-, error, -, hg⟩ |
    ⟨-, d, pool, -, -, -, hg⟩
  · rw [hg]
    exact List.prefix_append _ _
  · rw [hg]
    exact List.prefix_refl _
  · rw [hg]
    refine List.IsPrefix.trans ?_ (prefix_entries_finish _ _ _ _)
    exact (List.prefix_append _ _).trans (List.prefix_append _ _)

/-! ### Runs that do the same in another order -/

namespace GenerationRun

/-- A describer that takes its time, and fails for one of the methods. -/
def takingTurns (turns : RouteQuery → Nat) : Describer :=
  ⟨[], fun q => ⟨turns q, if q.method = "post".toList then .error [] else .ok default, none⟩⟩

/-- A generation for the files of all kinds, with so many files at once. -/
def mixedRun (d : Describer) (concurrency : Int) (schedule : Schedule) (console : Log.Console) :
    GenerationRun :=
  ⟨{ mixedWorkplace d with schedule }, { mixedOptions with concurrency }, console⟩

/-- The calls of such a generation, from the scripts of the four files that are claimed.  The methods
of the first one are put in, because sorting does not come out by evaluation. -/
theorem queries_mixedRun (d : Describer) {k : Int} (hk : 1 ≤ k) {pool : Pool}
    (h : Pool.make k = .ok pool) (schedule : Schedule) (console : Log.Console) :
    let s : Survey.Setting := ⟨mixedRoutes, mixedRoot, d⟩
    let accounts := "accounts/route.ts".toList
    let methods := ["get".toList, "post".toList]
    let first : Script SurveyEvent (Except FileFault Unit) :=
      .emit (.readBegun accounts) (.turn (.emit (.readEnded accounts)
        (.emit (Survey.openingEvent accounts methods) (.turn (Survey.callScript s accounts
          (Survey.calls s accounts methods) (.pause 2 (.emit (Survey.closingEvent 1 4 accounts methods)
            (.finish (.ok ())))))))))
    (mixedRun d k schedule console).ended.queries =
      (pool.run (first :: (Survey.scripts s (mixedFiles.take 4)).tail) schedule).2.1.events.filterMap
        SurveyEvent.query? := by
  intro s accounts methods first
  have hread : mixedRoutes.readText (mixedRoot.join (Path.ofChars accounts)) =
      .ok "export const GET\nexport const POST".toList := by decide +kernel
  have hmethods : exportedMethods "export const GET\nexport const POST".toList = methods := by
    refine exportedMethods_eq_of_perm (.of_eq (by decide +kernel)) ?_
    exact List.pairwise_pair.mpr (by decide +kernel)
  have hfirst : Survey.fileScript s 1 4 accounts = first := by
    rw [Survey.fileScript]
    change Script.emit _ (.turn (.emit _ (Survey.readScript s 1 4 accounts
      (mixedRoutes.readText (mixedRoot.join (Path.ofChars accounts)))))) = _
    rw [hread, Survey.readScript, hmethods]
  have hscripts : Survey.scripts s (mixedFiles.take 4) =
      first :: (Survey.scripts s (mixedFiles.take 4)).tail := by
    rw [← hfirst]
    rfl
  have hclaimed : (Survey.Claims.ofFiles mixedFiles).files = mixedFiles.take 4 := by decide +kernel
  have hnone : (Survey.claimEvents mixedFiles).filterMap SurveyEvent.query? = [] := by decide +kernel
  rcases generate_begins (w := (mixedRun d k schedule console).workplace)
    (o := (mixedRun d k schedule console).options) wellFormed_mixedRoutes hk
    ⟨rfl, rfl, searchable_mixed⟩ with ⟨hs, -⟩ | ⟨-, error, he, -⟩ | ⟨-, d', pool', hd, hmake, -, hg⟩
  · rw [selected_mixed rfl] at hs
    cases hs
  · cases he
  · cases hd
    cases h.symm.trans hmake
    rw [ended, hg, queries_finish, selected_mixed rfl]
    change (Survey.claimEvents mixedFiles ++ (pool.run (Survey.scripts s
      (Survey.Claims.ofFiles mixedFiles).files) schedule).2.1.events).filterMap _ = _
    rw [hclaimed, List.filterMap_append, hnone, List.nil_append, hscripts]
    rfl

/-- Two generations for files of all kinds.  One is silent, has one slot, and waits longer for the
first calls; the other one is loud, has eight slots, and waits longer for the last calls.  They make
their calls in different orders. -/
theorem agree_slow_and_quick :
    let r := mixedRun (takingTurns fun q => 30 - q.route.length) 1 .fair { silent := true }
    let r' := mixedRun (takingTurns fun q => q.route.length) 8 (fun _ => 3) { level := .debug }
    Twins r r' ∧ r.workplace.disk.WellFormed ∧ 1 ≤ r.options.concurrency ∧
      1 ≤ r'.options.concurrency ∧
      r'.ended.outcome = r.ended.outcome ∧ r'.ended.disk = r.ended.disk ∧
      r'.ended.queries.Perm r.ended.queries ∧ r'.shown ≠ r.shown ∧
      r.ended.queries.map RouteQuery.route =
        ["GET /accounts".toList, "POST /accounts".toList, "PUT /users".toList] ∧
      r'.ended.queries.map RouteQuery.route =
        ["PUT /users".toList, "GET /accounts".toList, "POST /accounts".toList] := by
  intro r r'
  have ht : Twins r r' := ⟨rfl, rfl, rfl, rfl, fun _ _ _ => rfl⟩
  obtain ⟨hout, hdisk, hqueries⟩ := ht.agree wellFormed_mixedRoutes (by decide) (by decide)
  have hshown : r'.shown ≠ r.shown := by
    intro h
    have hloud : (r'.console.print (.header "Generating OpenAPI specs...".toList)).out ≠ [] := by
      decide +kernel
    have hopening : Generation.opening r'.options _ <+: r'.ended.entries :=
      opening_prefix_entries wellFormed_mixedRoutes (by decide) ⟨rfl, rfl, searchable_mixed⟩
    have hsilent : r.shown = {} := Log.Console.printAll_of_silent rfl _
    have hout := congrArg Log.Output.out (h.trans hsilent)
    rw [shown, Log.Console.out_printAll, List.flatMap_eq_nil_iff] at hout
    exact hloud (hout _ (hopening.mem List.mem_cons_self))
  refine ⟨ht, wellFormed_mixedRoutes, by decide, by decide, hout, hdisk, hqueries, hshown, ?_, ?_⟩
  · rw [queries_mixedRun _ (by decide) rfl]
    decide +kernel
  · rw [queries_mixedRun _ (by decide) rfl]
    decide +kernel

end GenerationRun

end RouteScribe
