import RouteScribe.Proofs.Pool.Accounts
import RouteScribe.Proofs.Survey.Sequential

/-! # How long things take in a survey

A `Timing` says for each claimed file how many turns its reading takes and how many each of its
calls, by the place of the file among the claimed ones, so that a file that is listed twice can take
its time differently.  `runTimed` is a survey with these times; `Survey.run` is the one in which
every reading takes a single turn (`runTimed_usual`).

Whatever the times are, the script of a file begins the same accesses
(`begun_slowScript_perm`), ends each of them (`ended_slowScript_perm`), and has begun none of its
calls or all of them whenever it pauses (`atRest_slowScript`). -/

namespace RouteScribe
namespace Survey

/-- How long the readings and the calls take, by the places of the files. -/
structure Timing where
  /-- The turns that a reading takes after its first one. -/
  reading : Nat → Nat
  /-- The describer, which knows the turns of the calls. -/
  describer : Nat → Describer

/-- The reading takes one turn, and the describer is always the same. -/
def Timing.usual (s : Setting) : Timing := ⟨fun _ => 0, fun _ => s.describer⟩

/-- What is done with a file whose reading takes some turns more. -/
def slowScript (s : Setting) (extra index total : Nat) (file : List Char) :
    Script SurveyEvent (Except FileFault Unit) :=
  .emit (.readBegun file) (.pause (extra + 1) (.emit (.readEnded file)
    (readScript s index total file (source s file))))

/-- What is done with the file at a place. -/
def timedScript (s : Setting) (τ : Timing) (total i : Nat) (file : List Char) :
    Script SurveyEvent (Except FileFault Unit) :=
  slowScript { s with describer := τ.describer i } (τ.reading i) (i + 1) total file

/-- The scripts of the files that have been claimed. -/
def timedScripts (s : Setting) (τ : Timing) (claimed : List (List Char)) :
    List (Script SurveyEvent (Except FileFault Unit)) :=
  claimed.zipIdx.map fun (file, i) => timedScript s τ claimed.length i file

/-- Surveys files in a pool, with times. -/
def runTimed (s : Setting) (τ : Timing) (pool : Pool) (files : List (List Char))
    (schedule : Schedule) : Ended :=
  let claimed := (Claims.ofFiles files).files
  let (outcome, r, pool) := pool.run (timedScripts s τ claimed) schedule
  { events := claimEvents files ++ r.events, outcome := outcome.map fun _ => (), pool }

theorem runTimed_usual (s : Setting) (pool : Pool) (files : List (List Char))
    (schedule : Schedule) : runTimed s (.usual s) pool files schedule = run s pool files schedule :=
  rfl

/-! ### Accesses -/

/-- Something that is begun and ended for a file. -/
inductive Access where
  | read (file : List Char)
  | call (file : List Char) (query : RouteQuery)
deriving DecidableEq

namespace Access

/-- The file of an access. -/
def file : Access → List Char
  | read file => file
  | call file _ => file

/-- The access that an event begins. -/
def begun? : SurveyEvent → Option Access
  | .readBegun file => some (.read file)
  | .callBegun file q _ => some (.call file q)
  | _ => none

/-- The access that an event ends. -/
def ended? : SurveyEvent → Option Access
  | .readEnded file => some (.read file)
  | .callEnded file q => some (.call file q)
  | _ => none

/-- The accesses that have begun. -/
def begun (es : List SurveyEvent) : List Access := es.filterMap begun?

/-- The accesses that have ended. -/
def ended (es : List SurveyEvent) : List Access := es.filterMap ended?

/-- The accesses that have begun and have not ended. -/
def inFlight (es : List SurveyEvent) : List Access := (begun es).diff (ended es)

end Access

open Access (begun ended)

variable {s : Setting} {extra index total : Nat} {file : List Char}

/-- The accesses of a file: it is read, and its methods are described. -/
def accesses (s : Setting) (file : List Char) : List Access :=
  .read file :: (methodsOf s file).map fun m => .call file (query s file m)

theorem file_of_mem_accesses {a : Access} (h : a ∈ accesses s file) : a.file = file := by
  rcases List.mem_cons.mp h with rfl | h
  · rfl
  · obtain ⟨m, -, rfl⟩ := List.mem_map.mp h
    rfl

theorem length_timedScripts (s : Setting) (τ : Timing) (claimed : List (List Char)) :
    (timedScripts s τ claimed).length = claimed.length := by simp [timedScripts]

theorem timedScripts_get? (s : Setting) (τ : Timing) {claimed : List (List Char)} {n : Nat}
    (h : claimed[n]? = some file) :
    (timedScripts s τ claimed)[n]? = some (timedScript s τ claimed.length n file) := by
  simp [timedScripts, h]

/-! ### The events of a script -/

/-- What is picked tells the accesses, each of them by one event. -/
structure Telling (s : Setting) (f : SurveyEvent → Option Access) : Prop where
  noted : ∀ e, f (.noted e) = none
  failed : ∀ e, f (.failed e) = none
  skipped : ∀ file, f (.skipped file) = none
  reading : ∀ file, [.readBegun file, .readEnded file].filterMap f = [.read file]
  calling : ∀ file c, (callEvents s file c).filterMap f = [.call file c.1]

theorem telling_begun? (s : Setting) : Telling s Access.begun? := by
  refine ⟨fun _ => rfl, fun _ => rfl, fun _ => rfl, fun _ => rfl, ?_⟩
  intro file c
  unfold callEvents endEvents
  cases c.2.outcome <;> rfl

theorem telling_ended? (s : Setting) : Telling s Access.ended? := by
  refine ⟨fun _ => rfl, fun _ => rfl, fun _ => rfl, fun _ => rfl, ?_⟩
  intro file c
  unfold callEvents endEvents
  cases c.2.outcome <;> rfl

theorem filterMap_readScript_perm {f : SurveyEvent → Option Access} (hf : Telling s f)
    (r : Except ReadFault (List Char)) :
    ((readScript s index total file r).events.filterMap f).Perm
      ((match r with
        | .error _ => []
        | .ok source => exportedMethods source).map fun m => .call file (query s file m)) := by
  unfold readScript
  split
  · exact .refl _
  · rw [Script.events_emitAll, unreadEvents]
    exact .of_eq (by simp [Script.events, hf.noted, hf.failed])
  · next source =>
      cases hm : exportedMethods source with
      | nil =>
          simp only [hm, Script.events_emitAll, emptyEvents]
          exact .of_eq (by simp [Script.events, hf.noted, hf.skipped])
      | cons m ms =>
          simp only [hm, Script.events, openingEvent, List.filterMap_cons_none (hf.noted _)]
          refine ((events_callScript_perm _ _).filterMap f).trans (.of_eq ?_)
          rw [List.filterMap_append, List.filterMap_flatMap, calls, List.flatMap_map]
          simp only [hf.calling, Script.events_pause, Script.events, closingEvent,
            List.filterMap_cons_none (hf.noted _), List.filterMap_nil, List.append_nil]
          exact List.map_eq_flatMap.symm

theorem events_slowScript : (slowScript s extra index total file).events =
    .readBegun file :: .readEnded file ::
      (readScript s index total file (source s file)).events := by
  rw [slowScript, Script.events, Script.events_pause, Script.events]

theorem filterMap_slowScript_perm {f : SurveyEvent → Option Access} (hf : Telling s f) :
    ((slowScript s extra index total file).events.filterMap f).Perm (accesses s file) := by
  have he : (slowScript s extra index total file).events = [.readBegun file, .readEnded file] ++
      (readScript s index total file (source s file)).events := events_slowScript
  rw [he, List.filterMap_append, hf.reading, accesses, methodsOf]
  exact (filterMap_readScript_perm hf _).cons _

/-- A file begins its accesses. -/
theorem begun_slowScript_perm :
    (begun (slowScript s extra index total file).events).Perm (accesses s file) :=
  filterMap_slowScript_perm (telling_begun? s)

/-- A file ends its accesses. -/
theorem ended_slowScript_perm :
    (ended (slowScript s extra index total file).events).Perm (accesses s file) :=
  filterMap_slowScript_perm (telling_ended? s)

/-! ### The pauses of a script -/

theorem atRest_pause {ε ρ : Type} {P : List ε → Prop} {told : List ε} {job : Script ε ρ}
    (h : P told) (hj : job.AtRest P told) (k : Nat) : (Script.pause k job).AtRest P told := by
  induction k with
  | zero => exact hj
  | succ k ih => exact ⟨h, ih⟩

theorem atRest_emitAll {ε ρ : Type} {P : List ε → Prop} {told : List ε} {job : Script ε ρ}
    {es : List ε} (h : job.AtRest P (told ++ es)) : (Script.emitAll es job).AtRest P told := by
  induction es generalizing told with
  | nil => rwa [List.append_nil] at h
  | cons e es ih => exact ih (by rwa [List.append_assoc])

/-- A file has begun none of its calls, or all of them. -/
def AllOrNone (s : Setting) (file : List Char) (es : List SurveyEvent) : Prop :=
  es.filterMap SurveyEvent.query? = [] ∨
    es.filterMap SurveyEvent.query? = (methodsOf s file).map (query s file)

/-- A job that begins no call leaves it at that. -/
theorem atRest_of_silent {ρ : Type} {told : List SurveyEvent} (h : AllOrNone s file told)
    {job : Script SurveyEvent ρ} (hj : ∀ e ∈ job.events, e.query? = none) :
    job.AtRest (AllOrNone s file) told := by
  induction job generalizing told with
  | finish x => exact h
  | emit e next ih =>
      have he := hj e List.mem_cons_self
      refine ih ?_ fun e' he' => hj e' (List.mem_cons_of_mem _ he')
      simpa [AllOrNone, he] using h
  | turn next ih => exact ⟨h, ih h hj⟩

theorem query?_of_mem_endEvents {q : RouteQuery} {outcome : Except (List Char) Operation}
    {e : SurveyEvent} (h : e ∈ endEvents s file q outcome) : e.query? = none := by
  unfold endEvents at h
  cases outcome <;> simp only [List.mem_cons, List.not_mem_nil, or_false] at h
  · rcases h with rfl | rfl | rfl <;> rfl
  · rcases h with rfl | rfl <;> rfl

theorem query?_of_mem_laterRound {cs : List (RouteQuery × Description)} {k : Nat} {e : SurveyEvent}
    (h : e ∈ laterRound s file cs k) : e.query? = none := by
  obtain ⟨⟨q, d⟩, -, hc⟩ := List.mem_flatMap.mp h
  dsimp only at hc
  split at hc
  · exact query?_of_mem_endEvents hc
  · exact absurd hc List.not_mem_nil

/-- All calls begin in the first round. -/
theorem queries_firstRound (methods : List Method) :
    (firstRound s file (calls s file methods)).filterMap SurveyEvent.query? =
      methods.map (query s file) := by
  have hend : ∀ (q : RouteQuery) (d : Description),
      (if d.turns = 0 then endEvents s file q d.outcome else []).filterMap
        SurveyEvent.query? = [] := by
    intro q d
    rw [List.filterMap_eq_nil_iff]
    intro e he
    split at he
    · exact query?_of_mem_endEvents he
    · exact absurd he List.not_mem_nil
  rw [firstRound, List.filterMap_flatMap, calls, List.flatMap_map]
  simp only [List.filterMap_cons, SurveyEvent.query?, hend]
  exact List.map_eq_flatMap.symm

theorem atRest_readScript {told : List SurveyEvent}
    (h : told.filterMap SurveyEvent.query? = []) :
    (readScript s index total file (source s file)).AtRest (AllOrNone s file) told := by
  cases hr : source s file with
  | error fault =>
      refine atRest_of_silent (Or.inl h) fun e he => ?_
      unfold readScript at he
      split at he
      · exact absurd he List.not_mem_nil
      · simp only [Script.events_emitAll, Script.events, unreadEvents, List.append_nil,
          List.mem_cons, List.not_mem_nil, or_false] at he
        rcases he with rfl | rfl <;> rfl
      · next heq => cases heq
  | ok text =>
      cases hm : exportedMethods text with
      | nil =>
          simp only [readScript, hm]
          refine atRest_of_silent (Or.inl h) fun e he => ?_
          simp only [Script.events_emitAll, Script.events, emptyEvents, List.append_nil,
            List.mem_cons, List.not_mem_nil, or_false] at he
          rcases he with rfl | rfl <;> rfl
      | cons m ms =>
          have hmethods : methodsOf s file = m :: ms := by rw [methodsOf, hr, ← hm]
          have hopen : (told ++ [openingEvent file (m :: ms)]).filterMap SurveyEvent.query? = [] := by
            simp [h, openingEvent, SurveyEvent.query?]
          simp only [readScript, hm]
          refine ⟨Or.inl hopen, atRest_emitAll (atRest_of_silent (Or.inr ?_) ?_)⟩
          · rw [List.filterMap_append, hopen, queries_firstRound, hmethods, List.nil_append]
          · intro e he
            rw [events_laterRounds, Script.events_pause] at he
            rcases List.mem_append.mp he with he | he
            · obtain ⟨k, -, he⟩ := List.mem_flatMap.mp he
              exact query?_of_mem_laterRound he
            · cases List.mem_singleton.mp he
              rfl

/-- Whenever a file pauses, and when it has ended, it has begun none of its calls or all of them. -/
theorem atRest_slowScript : (slowScript s extra index total file).AtRest (AllOrNone s file) [] := by
  have hread : (Script.emit (.readEnded file)
      (readScript s index total file (source s file))).AtRest (AllOrNone s file)
        [.readBegun file] := atRest_readScript rfl
  exact atRest_pause (Or.inl rfl) hread (extra + 1)

end Survey
end RouteScribe
