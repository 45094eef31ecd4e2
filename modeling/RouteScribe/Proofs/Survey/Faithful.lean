import RouteScribe.Proofs.Survey.Sequential

/-! # What a survey finds

`Faithful` says of a survey that it found what the files and the answers of the describer tell, as
if the files had been worked on one after the other.  `run_faithful` proves it of every survey of
different files, whatever the pool has been used for before and in whatever order the readings and
the calls end.

The operations need an argument: of all the calls that end at the same time, no two write to the
same place, because no two owners have the same path and no file has a method twice
(`nodup_places`). -/

namespace RouteScribe
namespace Survey

open Assoc (find?)
open SurveyResult (place)

variable {s : Setting} {files : List (List Char)} {file : List Char}

/-- What a survey ought to have found. -/
structure Faithful (s : Setting) (files : List (List Char)) (e : Ended) : Prop where
  /-- The survey ends well. -/
  outcome : e.outcome = .ok ()
  /-- The operations stand as the sequential survey writes them. -/
  paths : e.result.paths = (SurveyResult.ofEvents (sequential s files)).paths
  /-- The operations are the answers for the methods of the owners. -/
  operations : ∀ path m o, find? e.result.paths path m = some o ↔
    ∃ file text, owner? files path = some file ∧ source s file = .ok text ∧
      m ∈ exportedMethods text ∧ answer s file m = .ok o
  /-- The paths and their methods are in order, and none is there twice. -/
  ordered : SurveyResult.Ordered e.result.paths ∧ SurveyResult.Tidy e.result.paths
  /-- The skipped files are the readable owners without methods. -/
  skipped : e.result.skipped.Perm ((owners files).filter (isBare s))
  /-- Each file that owns no path is a failure, each owner that cannot be read, and each call that
  fails. -/
  failures : e.result.failures.Perm
    ((doubles files).map doubleFailure ++ (owners files).flatMap (failuresOf s))
  /-- Each method of each owner is asked for, and nothing else is. -/
  queries : e.queries.Perm (due s files)
  /-- Nothing is asked for twice. -/
  once : e.queries.Nodup
  /-- The successes are counted, and each is an operation of its own. -/
  succeeded : e.result.succeeded = ((owners files).flatMap (operationsOf s)).length ∧
    e.result.succeeded = SurveyResult.size e.result.paths

/-! ### No place twice -/

/-- What comes from different owners differs, where the path of the owner can be told from it. -/
theorem nodup_flatMap_owners {α : Type} {f : List Char → List α} (path : α → List Char)
    (hn : files.Nodup) (hf : ∀ file, (f file).Nodup)
    (hp : ∀ file, ∀ a ∈ f file, path a = Route.apiPath file) :
    ((owners files).flatMap f).Nodup := by
  rw [List.nodup_flatMap]
  refine ⟨fun file _ => hf file, ?_⟩
  have hpaths := nodup_apiPath_owners hn
  rw [List.Nodup, List.pairwise_map] at hpaths
  refine hpaths.imp ?_
  intro file file' hne a ha ha'
  exact hne ((hp file a ha).symm.trans (hp file' a ha'))

theorem nodup_methodsOf (s : Setting) (file : List Char) : (methodsOf s file).Nodup := by
  unfold methodsOf
  split
  · exact List.nodup_nil
  · exact nodup_exportedMethods _

theorem mem_methodsOf {m : Method} :
    m ∈ methodsOf s file ↔ ∃ text, source s file = .ok text ∧ m ∈ exportedMethods text := by
  unfold methodsOf
  cases source s file <;> simp

theorem mem_operationsOf {d : List Char × Method × Operation} :
    d ∈ operationsOf s file ↔
      d.1 = Route.apiPath file ∧ d.2.1 ∈ methodsOf s file ∧ answer s file d.2.1 = .ok d.2.2 := by
  obtain ⟨path, m, o⟩ := d
  simp only [operationsOf, List.mem_filterMap, Option.map_eq_some_iff, Prod.mk.injEq]
  constructor
  · rintro ⟨m', hm, o', ho, rfl, rfl, rfl⟩
    exact ⟨rfl, hm, by cases h : answer s file m' <;> simp_all [Except.toOption]⟩
  · rintro ⟨rfl, hm, ho⟩
    exact ⟨m, hm, o, by simp [ho, Except.toOption], rfl, rfl, rfl⟩

theorem nodup_operationsOf (s : Setting) (file : List Char) :
    ((operationsOf s file).map place).Nodup := by
  rw [operationsOf, List.map_filterMap]
  refine (nodup_methodsOf s file).filterMap ?_
  intro m m' p hp hp'
  simp only [Option.mem_def, Option.map_map, Option.map_eq_some_iff] at hp hp'
  obtain ⟨o, -, rfl⟩ := hp
  obtain ⟨o', -, h⟩ := hp'
  exact (congrArg Prod.snd h).symm

/-- No place is written twice. -/
theorem nodup_places (s : Setting) (hn : files.Nodup) :
    (((owners files).flatMap (operationsOf s)).map place).Nodup := by
  rw [List.map_flatMap]
  refine nodup_flatMap_owners Prod.fst hn (nodup_operationsOf s) ?_
  intro file p hp
  obtain ⟨d, hd, rfl⟩ := List.mem_map.mp hp
  exact (mem_operationsOf.mp hd).1

/-- The path in a query. -/
def pathOf (q : RouteQuery) : List Char := q.route.drop ((upper q.method).length + 1)

theorem pathOf_query (s : Setting) (file : List Char) (m : Method) :
    pathOf (query s file m) = Route.apiPath file := by
  simp [pathOf, query]

theorem nodup_due (s : Setting) (hn : files.Nodup) : (due s files).Nodup := by
  refine nodup_flatMap_owners pathOf hn ?_ ?_
  · intro file
    refine (nodup_methodsOf s file).map ?_
    intro m m' h
    exact congrArg RouteQuery.method h
  · intro file q hq
    obtain ⟨m, -, rfl⟩ := List.mem_map.mp hq
    exact pathOf_query s file m

/-! ### The calls that succeed -/

/-- One of the calls for a method of a path ended with the operation. -/
def Succeeded (d : Describer) (queries : List RouteQuery) (path : List Char) (m : Method)
    (o : Operation) : Prop :=
  ∃ q ∈ queries, q.method = m ∧ q.route = upper m ++ ' ' :: path ∧ (d.describe q).outcome = .ok o

theorem mem_due {q : RouteQuery} :
    q ∈ due s files ↔ ∃ file ∈ owners files, ∃ m ∈ methodsOf s file, query s file m = q := by
  simp [due]

/-- The calls that succeed are for the methods of owners. -/
theorem succeeded_iff_of_perm {queries : List RouteQuery}
    (hq : queries.Perm (due s files)) (path : List Char) (m : Method) (op : Operation) :
    Succeeded s.describer queries path m op ↔ ∃ file ∈ owners files,
      Route.apiPath file = path ∧ m ∈ methodsOf s file ∧ answer s file m = .ok op := by
  constructor
  · rintro ⟨q, hmem, rfl, hroute, hop⟩
    obtain ⟨file, ho, m, hm, rfl⟩ := mem_due.mp (hq.mem_iff.mp hmem)
    exact ⟨file, ho, by simpa [query] using hroute, hm, hop⟩
  · rintro ⟨file, ho, rfl, hm, hop⟩
    exact ⟨query s file m, hq.mem_iff.mpr (mem_due.mpr ⟨file, ho, m, hm, rfl⟩), rfl, rfl, hop⟩

/-- The operations are those of the calls that succeeded: none is lost and none is added. -/
theorem Faithful.succeeded_iff {e : Ended} (h : Faithful s files e) (path : List Char) (m : Method)
    (o : Operation) :
    Succeeded s.describer e.queries path m o ↔ find? e.result.paths path m = some o := by
  rw [h.operations, succeeded_iff_of_perm h.queries]
  constructor
  · rintro ⟨file, ho, hpath, hm, ha⟩
    obtain ⟨text, ht, hm⟩ := mem_methodsOf.mp hm
    exact ⟨file, text, owner?_eq_some_iff.mpr ⟨ho, hpath⟩, ht, hm, ha⟩
  · rintro ⟨file, text, ho, ht, hm, ha⟩
    obtain ⟨ho, hpath⟩ := owner?_eq_some_iff.mp ho
    exact ⟨file, ho, hpath, mem_methodsOf.mpr ⟨text, ht, hm⟩, ha⟩

/-! ### The whole survey -/

/-- A survey that is made. -/
structure Task where
  setting : Setting
  files : List (List Char)
  schedule : Schedule

/-- The pool after some surveys, one after the other. -/
def poolAfter (pool : Pool) (tasks : List Task) : Pool :=
  tasks.foldl (fun pool t => (run t.setting pool t.files t.schedule).pool) pool

theorem limit_run (pool : Pool) (schedule : Schedule) :
    (run s pool files schedule).pool.limit = pool.limit := rfl

theorem active_run {pool : Pool} (hp : pool.active < pool.limit) (schedule : Schedule) :
    (run s pool files schedule).pool.active = pool.active :=
  Run.active_settle hp _ schedule

theorem active_poolAfter_eq {pool : Pool} (hp : pool.active < pool.limit) (tasks : List Task) :
    (poolAfter pool tasks).active = pool.active := by
  induction tasks generalizing pool with
  | nil => rfl
  | cons t tasks ih =>
      have ha : (run t.setting pool t.files t.schedule).pool.active = pool.active :=
        active_run hp t.schedule
      exact (ih (by rwa [ha, limit_run])).trans ha

theorem limit_poolAfter (pool : Pool) (tasks : List Task) :
    (poolAfter pool tasks).limit = pool.limit := by
  induction tasks generalizing pool with
  | nil => rfl
  | cons t tasks ih => exact (ih _).trans (limit_run pool t.schedule)

/-- Surveys leave no slot taken. -/
theorem active_poolAfter {pool : Pool} (hp : pool.active < pool.limit) (tasks : List Task) :
    (poolAfter pool tasks).active < (poolAfter pool tasks).limit := by
  induction tasks generalizing pool with
  | nil => exact hp
  | cons t tasks ih =>
      apply ih
      rw [active_run hp, limit_run]
      exact hp

/-- A survey in a pool with a slot finds what it ought to. -/
theorem faithful_run {pool : Pool} (hp : pool.active < pool.limit) (hs : s.root.NulFree)
    (hn : files.Nodup) (hf : ∀ file ∈ files, '\x00' ∉ file) (schedule : Schedule) :
    Faithful s files (run s pool files schedule) := by
  have he := events_run_perm hp hs hf schedule
  have hd := he.filterMap SurveyEvent.described?
  have href : (((sequential s files).filterMap SurveyEvent.described?).map place).Nodup := by
    rw [described_sequential]
    exact nodup_places s hn
  have hrun := (hd.map place).nodup_iff.mpr href
  have hq := he.filterMap SurveyEvent.query?
  rw [queries_sequential] at hq
  refine ⟨outcome_run hp hs hf schedule, ?_, ?_, ⟨?_, ?_⟩, ?_, ?_, hq, ?_, ?_, ?_⟩
  · refine SurveyResult.Ordered.eq_of_find? (SurveyResult.ordered_ofEvents _)
      (SurveyResult.ordered_ofEvents _) (SurveyResult.tidy_ofEvents _)
      (SurveyResult.tidy_ofEvents _) ?_
    intro path m
    apply Option.ext
    intro o
    rw [Ended.result, SurveyResult.find?_ofEvents hrun, SurveyResult.find?_ofEvents href,
      hd.mem_iff]
  · intro path m o
    rw [Ended.result, SurveyResult.find?_ofEvents hrun, hd.mem_iff, described_sequential,
      List.mem_flatMap]
    constructor
    · rintro ⟨file, ho, hm⟩
      obtain ⟨hpath, hm, ha⟩ := mem_operationsOf.mp hm
      obtain ⟨text, ht, hm⟩ := mem_methodsOf.mp hm
      exact ⟨file, text, owner?_eq_some_iff.mpr ⟨ho, hpath.symm⟩, ht, hm, ha⟩
    · rintro ⟨file, text, ho, ht, hm, ha⟩
      obtain ⟨ho, hpath⟩ := owner?_eq_some_iff.mp ho
      exact ⟨file, ho, mem_operationsOf.mpr ⟨hpath.symm, mem_methodsOf.mpr ⟨text, ht, hm⟩, ha⟩⟩
  · exact SurveyResult.ordered_ofEvents _
  · exact SurveyResult.tidy_ofEvents _
  · rw [Ended.result, SurveyResult.ofEvents_skipped, ← skipped_sequential]
    exact he.filterMap _
  · rw [Ended.result, SurveyResult.ofEvents_failures, ← failures_sequential]
    exact he.filterMap _
  · exact hq.nodup_iff.mpr (nodup_due s hn)
  · rw [Ended.result, SurveyResult.ofEvents_succeeded, ← described_sequential]
    exact hd.length_eq
  · exact (SurveyResult.size_ofEvents hrun).symm

/-- **A survey finds what the sequential one finds.**  A pool of any limit that allows a slot can be
made, and after any surveys in it, a survey of different files with possible names is faithful, for
every describer and every order of the turns. -/
theorem run_faithful {limit : Int} (hl : 1 ≤ limit) (s : Setting) (hs : s.root.NulFree)
    {files : List (List Char)} (hn : files.Nodup) (hf : ∀ file ∈ files, '\x00' ∉ file) :
    ∃ pool, Pool.make limit = .ok pool ∧
      ∀ (earlier : List Task) (schedule : Schedule),
        Faithful s files (run s (poolAfter pool earlier) files schedule) := by
  obtain ⟨pool, hmake, hp⟩ := Pool.exists_make hl
  refine ⟨pool, hmake, ?_⟩
  intro earlier schedule
  exact faithful_run (active_poolAfter hp earlier) hs hn hf schedule

/-- A survey of two files of one path, the second time in the same pool. -/
theorem faithful_two_files :
    let s : Setting :=
      { disk := ⟨.directory [("a".toList, .directory [("route.js".toList,
          .file ("export const GET".toList.map fun c => c.toNat.toUInt8))])], []⟩
        root := ⟨.root, []⟩
        describer := ⟨[], fun _ => ⟨1, .ok default, none⟩⟩ }
    let files := ["a/route.js".toList, "a/route.ts".toList]
    s.root.NulFree ∧ files.Nodup ∧ (∀ file ∈ files, '\x00' ∉ file) ∧
      ∃ pool, Pool.make 1 = .ok pool ∧ ∀ schedule,
        let e := run s (poolAfter pool [⟨s, files, .fair⟩]) files schedule
        e.queries = [⟨⟨.root, ["a".toList, "route.js".toList]⟩, "get".toList, "GET /a".toList⟩] ∧
          e.result.failures =
            [⟨"/a".toList, "a/route.ts".toList, "duplicate of \"a/route.js\"".toList⟩] := by
  intro s files
  have hs : s.root.NulFree := by simp [s, Path.NulFree]
  have hn : files.Nodup := by decide
  have hf : ∀ file ∈ files, '\x00' ∉ file := by decide
  obtain ⟨pool, hp, h⟩ := run_faithful (by decide : (1 : Int) ≤ 1) s hs hn hf
  refine ⟨hs, hn, hf, pool, hp, ?_⟩
  intro schedule
  have hw := h [⟨s, files, .fair⟩] schedule
  have hq : (due s files).Perm
      [⟨⟨.root, ["a".toList, "route.js".toList]⟩, "get".toList, "GET /a".toList⟩] := by
    decide +kernel
  have hd : ((doubles files).map doubleFailure ++ (owners files).flatMap (failuresOf s)).Perm
      [⟨"/a".toList, "a/route.ts".toList, "duplicate of \"a/route.js\"".toList⟩] := by
    decide +kernel
  exact ⟨List.perm_singleton.mp (hw.queries.trans hq), List.perm_singleton.mp (hw.failures.trans hd)⟩

end Survey
end RouteScribe
