import RouteScribe.Proofs.Survey.SingleSlot

/-! # What a survey asks a model

A call that begins tells what it asks a model.  This is what the describer gives for the query of the
call, and nothing else in a survey asks anything: so the requests of a survey are those that the
describer gives for its queries, in the same order (`requests_run`). -/

namespace RouteScribe

/-- The request of an event is the one that the describer gives for its query, if it has one. -/
def SurveyEvent.TellsRequest (d : Describer) (e : SurveyEvent) : Prop :=
  e.request? = e.query?.bind fun q => (d.describe q).request

namespace Survey

open SurveyEvent (TellsRequest)

variable {s : Setting} {index total : Nat} {file : List Char}

theorem IsAside.tellsRequest {e : SurveyEvent} (h : IsAside e) : TellsRequest s.describer e := by
  cases e with
  | callBegun file q request => cases h.1
  | _ => rfl

/-- What is picked from events that tell their requests. -/
theorem filterMap_request? {d : Describer} {es : List SurveyEvent}
    (h : ∀ e ∈ es, TellsRequest d e) : es.filterMap SurveyEvent.request? =
      (es.filterMap SurveyEvent.query?).filterMap fun q => (d.describe q).request := by
  rw [List.filterMap_filterMap]
  exact List.filterMap_congr h

/-! ### One file -/

/-- The calls of a file are described as the describer says. -/
theorem tellsRequest_rounds {methods : List Method} {e : SurveyEvent}
    (h : e ∈ rounds s file (calls s file methods)) : TellsRequest s.describer e := by
  rcases List.mem_append.mp h with h | h
  · rcases cases_of_mem_firstRound h with ⟨c, hc, rfl⟩ | haside
    · obtain ⟨m, -, rfl⟩ := List.mem_map.mp hc
      rfl
    · exact haside.tellsRequest
  · obtain ⟨k, -, h⟩ := List.mem_flatMap.mp h
    exact (isAside_of_mem_laterRound h).tellsRequest

theorem tellsRequest_fileScript {e : SurveyEvent}
    (h : e ∈ (fileScript s index total file).events) : TellsRequest s.describer e := by
  rcases List.mem_cons.mp h with rfl | h
  · rfl
  rcases List.mem_cons.mp h with rfl | h
  · rfl
  rcases readScript_cases s index total file with ⟨-, haside⟩ | ⟨-, he⟩
  · exact (haside e h).tellsRequest
  · have hmem : e ∈ openingEvent file (methodsOf s file) ::
        (rounds s file (calls s file (methodsOf s file)) ++
          [closingEvent index total file (methodsOf s file)]) := he ▸ h
    rcases List.mem_cons.mp hmem with rfl | hmem
    · rfl
    rcases List.mem_append.mp hmem with hmem | hmem
    · exact tellsRequest_rounds hmem
    · rw [List.mem_singleton.mp hmem]
      rfl

/-! ### The whole survey -/

theorem tellsRequest_claimEvents {files : List (List Char)} {e : SurveyEvent}
    (h : e ∈ claimEvents files) : TellsRequest s.describer e := by
  rw [claimEvents, events_ofFiles] at h
  rcases List.mem_cons.mp h with rfl | h
  · rfl
  · obtain ⟨d, -, h⟩ := List.mem_flatMap.mp h
    rcases List.mem_cons.mp h with rfl | h
    · rfl
    · rw [List.mem_singleton.mp h]
      rfl

/-- A survey asks a model what the describer gives for its queries, and nothing else. -/
theorem requests_run {pool : Pool} (hp : pool.active < pool.limit) (files : List (List Char))
    (schedule : Schedule) : (run s pool files schedule).requests =
      (run s pool files schedule).queries.filterMap fun q => (s.describer.describe q).request := by
  refine filterMap_request? fun e he => ?_
  rcases List.mem_append.mp he with he | he
  · exact tellsRequest_claimEvents he
  · have hjobs := Run.events_settle_perm hp (scripts s (Claims.ofFiles files).files) schedule
    obtain ⟨script, hscript, he⟩ := List.mem_flatMap.mp (hjobs.mem_iff.mp he)
    obtain ⟨⟨file, i⟩, -, rfl⟩ := List.mem_map.mp hscript
    exact tellsRequest_fileScript he

end Survey
end RouteScribe
