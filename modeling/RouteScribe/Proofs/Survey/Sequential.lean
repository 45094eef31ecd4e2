import RouteScribe.Proofs.Pool.Conservation
import RouteScribe.Proofs.Survey.Claims
import RouteScribe.Proofs.Survey.FileScript
import RouteScribe.Proofs.Survey.Result
import RouteScribe.Survey.Run

/-! # A survey, one file after the other

`sequential` is the survey in which every file is read and every call is waited for before anything
else begins.  A survey in a pool that has a slot reports the same events in some order, whatever the
schedule (`events_run_perm`), and ends well (`outcome_run`).

What the sequential survey reports is read off its files: the queries (`queries_sequential`), the
operations (`described_sequential`), the failures (`failures_sequential`) and the files without
methods (`skipped_sequential`). -/

namespace RouteScribe
namespace Survey

variable {s : Setting} {files : List (List Char)} {file : List Char}

/-- The events of a survey, one file after the other. -/
def sequential (s : Setting) (files : List (List Char)) : List SurveyEvent :=
  claimEvents files ++ (owners files).zipIdx.flatMap fun (file, i) =>
    fileEvents s (i + 1) (owners files).length file

/-- What is read of a file. -/
def source (s : Setting) (file : List Char) : Except ReadFault (List Char) :=
  s.disk.readText (s.root.join (Path.ofChars file))

/-- The methods that are described of a file. -/
def methodsOf (s : Setting) (file : List Char) : List Method :=
  match source s file with
  | .error _ => []
  | .ok source => exportedMethods source

/-- What a call answers. -/
def answer (s : Setting) (file : List Char) (m : Method) : Except (List Char) Operation :=
  (s.describer.describe (query s file m)).outcome

/-- The queries that are due. -/
def due (s : Setting) (files : List (List Char)) : List RouteQuery :=
  (owners files).flatMap fun file => (methodsOf s file).map (query s file)

/-- The operations of a file. -/
def operationsOf (s : Setting) (file : List Char) : List (List Char × Method × Operation) :=
  (methodsOf s file).filterMap fun m =>
    (answer s file m).toOption.map fun o => (Route.apiPath file, m, o)

/-- The failure of a call. -/
def callFailure? (s : Setting) (file : List Char) (m : Method) : Option RouteFailure :=
  match answer s file m with
  | .error e => some ⟨(query s file m).route, file, e⟩
  | .ok _ => none

/-- The failures of a file. -/
def failuresOf (s : Setting) (file : List Char) : List RouteFailure :=
  match source s file with
  | .error fault => [⟨Route.apiPath file, file, fault.message⟩]
  | .ok source => (exportedMethods source).filterMap (callFailure? s file)

/-- The failure of a file whose path has another owner. -/
def doubleFailure (d : List Char × List Char) : RouteFailure :=
  ⟨Route.apiPath d.1, d.1, "duplicate of \"".toList ++ d.2 ++ ['"']⟩

/-- The file can be read and has no methods. -/
def isBare (s : Setting) (file : List Char) : Bool :=
  match source s file with
  | .error _ => false
  | .ok source => (exportedMethods source).isEmpty

/-! ### The events of a file -/

/-- What is picked from the events of a call: from its beginning, and from what it ends with. -/
theorem filterMap_callEvents {α : Type} (f : SurveyEvent → Option α) (m : Method)
    (hnoted : ∀ e, f (.noted e) = none) (hended : ∀ q, f (.callEnded file q) = none) :
    (callEvents s file (query s file m, s.describer.describe (query s file m))).filterMap f =
      [.callBegun file (query s file m)
          (s.describer.describe (query s file m)).request].filterMap f ++
        match answer s file m with
        | .ok o => [.described (Route.apiPath file) m o].filterMap f
        | .error e => [.failed ⟨(query s file m).route, file, e⟩].filterMap f := by
  unfold callEvents endEvents answer
  rw [← List.singleton_append, List.filterMap_append, List.filterMap_cons_none (hended _)]
  congr 1
  dsimp only
  cases (s.describer.describe (query s file m)).outcome with
  | ok o => rfl
  | error e => exact List.filterMap_cons_none (hnoted _)

/-- What is picked from the events of a file: from its calls what is picked from each, and else what
is picked from the event that tells why there are no calls. -/
theorem filterMap_fileEvents {α : Type} {f : SurveyEvent → Option α} {g : Method → List α}
    (index total : Nat) (hnoted : ∀ e, f (.noted e) = none)
    (hread : f (.readBegun file) = none ∧ f (.readEnded file) = none)
    (hcall : ∀ m, (callEvents s file
      (query s file m, s.describer.describe (query s file m))).filterMap f = g m) :
    (fileEvents s index total file).filterMap f =
      match source s file with
      | .error fault => [.failed ⟨Route.apiPath file, file, fault.message⟩].filterMap f
      | .ok source =>
        match exportedMethods source with
        | [] => [.skipped file].filterMap f
        | methods => methods.flatMap g := by
  rw [fileEvents, List.filterMap_cons_none hread.1, List.filterMap_cons_none hread.2, source]
  cases s.disk.readText (s.root.join (Path.ofChars file)) with
  | error fault => exact List.filterMap_cons_none (hnoted _)
  | ok source =>
      cases hm : exportedMethods source with
      | nil =>
          simp only [readEvents, hm]
          exact List.filterMap_cons_none (hnoted _)
      | cons m ms =>
          simp only [readEvents, hm, openingEvent, closingEvent]
          rw [List.filterMap_append, List.filterMap_cons_none (hnoted _),
            List.filterMap_cons_none (hnoted _), List.filterMap_nil, List.append_nil,
            List.filterMap_flatMap, calls, List.flatMap_map]
          simp only [hcall]

theorem queries_fileEvents (index total : Nat) (file : List Char) :
    (fileEvents s index total file).filterMap SurveyEvent.query? =
      (methodsOf s file).map (query s file) := by
  have hcall : ∀ m, (callEvents s file
      (query s file m, s.describer.describe (query s file m))).filterMap SurveyEvent.query? =
        [query s file m] := by
    intro m
    rw [filterMap_callEvents _ m (fun _ => rfl) fun _ => rfl]
    cases answer s file m <;> rfl
  rw [filterMap_fileEvents index total (fun _ => rfl) ⟨rfl, rfl⟩ hcall, methodsOf]
  cases source s file with
  | error fault => rfl
  | ok source =>
      dsimp only
      cases exportedMethods source with
      | nil => rfl
      | cons m ms => exact List.map_eq_flatMap.symm

theorem described_fileEvents (index total : Nat) (file : List Char) :
    (fileEvents s index total file).filterMap SurveyEvent.described? = operationsOf s file := by
  have hcall : ∀ m, (callEvents s file
      (query s file m, s.describer.describe (query s file m))).filterMap SurveyEvent.described? =
        ((answer s file m).toOption.map fun o => (Route.apiPath file, m, o)).toList := by
    intro m
    rw [filterMap_callEvents _ m (fun _ => rfl) fun _ => rfl]
    cases answer s file m <;> rfl
  rw [filterMap_fileEvents index total (fun _ => rfl) ⟨rfl, rfl⟩ hcall, operationsOf, methodsOf]
  cases source s file with
  | error fault => rfl
  | ok source =>
      dsimp only
      cases exportedMethods source with
      | nil => rfl
      | cons m ms => exact (List.filterMap_eq_flatMap_toList _ _).symm

theorem failures_fileEvents (index total : Nat) (file : List Char) :
    (fileEvents s index total file).filterMap SurveyEvent.failure? = failuresOf s file := by
  have hcall : ∀ m, (callEvents s file
      (query s file m, s.describer.describe (query s file m))).filterMap SurveyEvent.failure? =
        (callFailure? s file m).toList := by
    intro m
    rw [filterMap_callEvents _ m (fun _ => rfl) fun _ => rfl, callFailure?]
    cases answer s file m <;> rfl
  rw [filterMap_fileEvents index total (fun _ => rfl) ⟨rfl, rfl⟩ hcall, failuresOf]
  cases source s file with
  | error fault => rfl
  | ok source =>
      dsimp only
      cases exportedMethods source with
      | nil => rfl
      | cons m ms => exact (List.filterMap_eq_flatMap_toList _ _).symm

theorem skipped_fileEvents (index total : Nat) (file : List Char) :
    (fileEvents s index total file).filterMap SurveyEvent.skipped? =
      if isBare s file then [file] else [] := by
  have hcall : ∀ m, (callEvents s file
      (query s file m, s.describer.describe (query s file m))).filterMap SurveyEvent.skipped? =
        [] := by
    intro m
    rw [filterMap_callEvents _ m (fun _ => rfl) fun _ => rfl]
    cases answer s file m <;> rfl
  rw [filterMap_fileEvents index total (fun _ => rfl) ⟨rfl, rfl⟩ hcall, isBare]
  cases source s file with
  | error fault => rfl
  | ok source =>
      cases hm : exportedMethods source with
      | nil => simp [hm, SurveyEvent.skipped?]
      | cons m ms => simp [hm]

/-! ### The events of the survey -/

/-- What is picked from the events before the first file is read. -/
theorem filterMap_claimEvents {α : Type} {f : SurveyEvent → Option α}
    (hnoted : ∀ e, f (.noted e) = none) (files : List (List Char)) :
    (claimEvents files).filterMap f =
      (doubles files).flatMap fun d => [.failed (doubleFailure d)].filterMap f := by
  rw [claimEvents, foundEvent, List.filterMap_cons_none (hnoted _), events_ofFiles,
    List.filterMap_flatMap]
  congr 1
  funext d
  exact List.filterMap_cons_none (hnoted _)

/-- What is picked from the events of a survey: from the failures of the files that own no path, and
from the files that do. -/
theorem filterMap_sequential {α : Type} {f : SurveyEvent → Option α} {g : List Char → List α}
    (hnoted : ∀ e, f (.noted e) = none)
    (hfile : ∀ index total file, (fileEvents s index total file).filterMap f = g file) :
    (sequential s files).filterMap f =
      (doubles files).flatMap (fun d => [.failed (doubleFailure d)].filterMap f) ++
        (owners files).flatMap g := by
  rw [sequential, List.filterMap_append, filterMap_claimEvents hnoted, List.filterMap_flatMap]
  simp only [hfile]
  rw [← List.flatMap_map Prod.fst g, List.zipIdx_map_fst]

theorem queries_sequential :
    (sequential s files).filterMap SurveyEvent.query? = due s files := by
  rw [filterMap_sequential (fun _ => rfl) queries_fileEvents, due]
  simp [SurveyEvent.query?]

theorem described_sequential :
    (sequential s files).filterMap SurveyEvent.described? =
      (owners files).flatMap (operationsOf s) := by
  rw [filterMap_sequential (fun _ => rfl) described_fileEvents]
  simp [SurveyEvent.described?]

theorem failures_sequential :
    (sequential s files).filterMap SurveyEvent.failure? =
      (doubles files).map doubleFailure ++ (owners files).flatMap (failuresOf s) := by
  rw [filterMap_sequential (fun _ => rfl) failures_fileEvents, List.map_eq_flatMap]
  rfl

theorem skipped_sequential :
    (sequential s files).filterMap SurveyEvent.skipped? = (owners files).filter (isBare s) := by
  have hb : ∀ fs : List (List Char),
      fs.flatMap (fun f => if isBare s f then [f] else []) = fs.filter (isBare s) := by
    intro fs
    induction fs with
    | nil => rfl
    | cons f fs ih => cases h : isBare s f <;> simp [h, ih]
  rw [filterMap_sequential (fun _ => rfl) skipped_fileEvents, hb]
  simp [List.filterMap_cons, SurveyEvent.skipped?]

/-! ### Any order of the turns -/

section usable

variable {pool : Pool} (hp : pool.active < pool.limit) (hs : s.root.NulFree)
  (hf : ∀ file ∈ files, '\x00' ∉ file) (schedule : Schedule)
include hp hs hf

/-- A survey reports the events of the sequential one. -/
theorem events_run_perm :
    (run s pool files schedule).events.Perm (sequential s files) := by
  have hjobs := Run.events_settle_perm hp (scripts s (owners files)) schedule
  unfold run Pool.run sequential
  dsimp only
  rw [files_ofFiles]
  refine (hjobs.append_left _).trans (.append_left _ ?_)
  rw [scripts, List.flatMap_map]
  apply List.Perm.flatMap_left
  rintro ⟨file, i⟩ hm
  exact events_fileScript_perm hs (hf file (mem_of_mem_owners (List.fst_mem_of_mem_zipIdx hm)))

/-- A survey ends well. -/
theorem outcome_run : (run s pool files schedule).outcome = .ok () := by
  have hjobs := Run.results_settle_perm hp (scripts s (owners files)) schedule
  have hall : ∀ d ∈ ((Run.start pool (scripts s (owners files))).settle schedule).done,
      d.2 = .ok () := by
    intro d hd
    have hm := hjobs.mem_iff.mp (List.mem_map_of_mem hd)
    obtain ⟨job, hjob, hr⟩ := List.mem_map.mp hm
    obtain ⟨⟨file, i⟩, hm, rfl⟩ := List.mem_map.mp hjob
    rw [← hr]
    exact result_fileScript hs (hf file (mem_of_mem_owners (List.fst_mem_of_mem_zipIdx hm)))
  have hfail : ((Run.start pool (scripts s (owners files))).settle schedule).failure? = none := by
    rw [Run.failure?, List.findSome?_eq_none_iff]
    intro d hd
    rw [hall d hd]
  unfold run Pool.run Run.outcome
  dsimp only
  rw [files_ofFiles, hfail]
  rfl

end usable

end Survey
end RouteScribe
