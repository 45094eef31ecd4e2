import RouteScribe.Proofs.Pool.Slots

/-! # Nothing is lost in a run

A turn moves a job on, and jobs change places, but what has been reported and what is still to be
reported are always the events of all jobs together (`events_step_perm`), and likewise with the
results (`results_step_perm`).  A settled run in which no slot is missing has therefore reported the
events of all jobs, in some order (`events_settle_perm`), and has all their results
(`results_settle_perm`), whatever the schedule. -/

namespace RouteScribe
namespace Run

variable {ε ρ : Type}

/-- What the threads and the jobs in line still have to do. -/
def left (r : Run ε ρ) : List (Script ε ρ) := r.ready.map (·.2.script) ++ r.waiting.map (·.2)

/-- The results so far. -/
def results (r : Run ε ρ) : List ρ := r.done.map (·.2)

/-- The events that have been reported and those that are still to come. -/
def allEvents (r : Run ε ρ) : List ε := r.events ++ r.left.flatMap Script.events

/-- The results that are there and those that are still to come. -/
def allResults (r : Run ε ρ) : List ρ := r.results ++ r.left.map Script.result

theorem left_grant (r : Run ε ρ) : r.grant.left = r.left := by
  cases hw : r.waiting with
  | nil => simp [grant, hw]
  | cons w rest => simp [grant, left, hw, Phase.script]

@[simp] theorem events_grant (r : Run ε ρ) : r.grant.events = r.events := by
  unfold grant
  split <;> rfl

@[simp] theorem results_grant (r : Run ε ρ) : r.grant.results = r.results := by
  unfold grant
  split <;> rfl

/-! ### A turn -/

/-- What the turn of a thread does to the scripts, the events and the results: nothing but move the
thread, or report its next event, or end it. -/
theorem act_cases (n : Nat) (phase : Phase ε ρ) (r : Run ε ρ) :
    ((r.act n phase).left.Perm (phase.script :: r.left) ∧ (r.act n phase).events = r.events ∧
      (r.act n phase).results = r.results) ∨
    (∃ e next, phase.script = .emit e next ∧ (r.act n phase).left = next :: r.left ∧
      (r.act n phase).events = r.events ++ [e] ∧ (r.act n phase).results = r.results) ∨
    (∃ next, phase.script = .turn next ∧ (r.act n phase).left.Perm (next :: r.left) ∧
      (r.act n phase).events = r.events ∧ (r.act n phase).results = r.results) ∨
    (∃ x, phase.script = .finish x ∧ (r.act n phase).left = r.left ∧
      (r.act n phase).events = r.events ∧ (r.act n phase).results = r.results ++ [x]) := by
  cases phase with
  | starting job =>
      refine .inl ?_
      simp only [act]
      split
      · exact ⟨.refl _, rfl, rfl⟩
      · refine ⟨?_, rfl, rfl⟩
        simp only [left, List.map_append, List.map_singleton, ← List.append_assoc]
        exact List.perm_append_singleton job _
  | granted job =>
      refine .inl ?_
      simp only [act]
      split
      · rw [enter_grant, left_grant, events_grant, results_grant]
        exact ⟨.refl _, rfl, rfl⟩
      · exact ⟨.refl _, rfl, rfl⟩
  | running rest =>
      refine .inr ?_
      cases rest with
      | finish x =>
          refine .inr (.inr ⟨x, rfl, ?_, ?_, ?_⟩)
          · simp only [act, advance, leave, left_grant]
            rfl
          · simp only [act, advance, leave, events_grant]
            rfl
          · simp only [act, advance, leave, results_grant]
            simp [results]
      | emit e next =>
          refine .inl ⟨e, next, rfl, rfl, ?_, rfl⟩
          simp [act, advance, events]
      | turn next =>
          refine .inr (.inl ⟨next, rfl, ?_, rfl, rfl⟩)
          simp only [act, advance, left, List.map_append, List.map_singleton]
          simp [Phase.script]

/-- The scripts that are left are those of the other threads and the one of the thread itself. -/
theorem left_perm {n : Nat} {phase : Phase ε ρ} {ready : List (Nat × Phase ε ρ)} {r : Run ε ρ}
    (hp : ((n, phase) :: ready).Perm r.ready) :
    (phase.script :: ({ r with ready := ready } : Run ε ρ).left).Perm r.left :=
  (hp.map (·.2.script)).append_right _

theorem events_step_perm (i : Nat) (r : Run ε ρ) : (r.step i).allEvents.Perm r.allEvents := by
  rcases step_cases i r with he | ⟨n, phase, ready, hp, he⟩
  · rw [he]
  · have hl := (left_perm hp).flatMap_right Script.events
    rw [he]
    refine List.Perm.trans ?_ (hl.append_left _)
    rcases act_cases n phase { r with ready := ready } with
      ⟨h, hv, -⟩ | ⟨e, next, hs, h, hv, -⟩ | ⟨next, hs, h, hv, -⟩ | ⟨x, hs, h, hv, -⟩
    · rw [allEvents, hv]
      exact (h.flatMap_right _).append_left _
    · rw [allEvents, hv, h, hs]
      simp only [List.flatMap_cons, Script.events, List.append_assoc, List.cons_append,
        List.nil_append]
      exact .refl _
    · rw [allEvents, hv, hs]
      exact (h.flatMap_right _).append_left _
    · rw [allEvents, hv, h, hs]
      exact .refl _

theorem results_step_perm (i : Nat) (r : Run ε ρ) : (r.step i).allResults.Perm r.allResults := by
  rcases step_cases i r with he | ⟨n, phase, ready, hp, he⟩
  · rw [he]
  · have hl := (left_perm hp).map Script.result
    rw [he]
    refine List.Perm.trans ?_ (hl.append_left _)
    rcases act_cases n phase { r with ready := ready } with
      ⟨h, -, hv⟩ | ⟨e, next, hs, h, -, hv⟩ | ⟨next, hs, h, -, hv⟩ | ⟨x, hs, h, -, hv⟩
    · rw [allResults, hv]
      exact (h.map _).append_left _
    · rw [allResults, hv, h, hs]
      exact .refl _
    · rw [allResults, hv, hs]
      exact (h.map _).append_left _
    · rw [allResults, hv, h, hs]
      simp only [List.map_cons, Script.result, List.append_assoc, List.cons_append,
        List.nil_append]
      exact .refl _

/-! ### A whole run -/

theorem drain_perm (schedule : Schedule) (k : Nat) (r : Run ε ρ) :
    (r.drain schedule k).allEvents.Perm r.allEvents ∧
      (r.drain schedule k).allResults.Perm r.allResults := by
  induction k generalizing r with
  | zero => exact ⟨.refl _, .refl _⟩
  | succ k ih =>
      simp only [drain]
      split
      · exact ⟨.refl _, .refl _⟩
      · obtain ⟨he, hv⟩ := ih (r.step (schedule k % r.ready.length))
        exact ⟨he.trans (events_step_perm _ r), hv.trans (results_step_perm _ r)⟩

theorem left_start (p : Pool) (jobs : List (Script ε ρ)) : (start p jobs).left = jobs := by
  have hz : ∀ first, ((jobs.zipIdx first).map
      fun j => ((j.2, Phase.starting j.1) : Nat × Phase ε ρ)).map (fun t => t.2.script) = jobs := by
    intro first
    rw [List.map_map]
    exact List.zipIdx_map_fst first jobs
  simpa [start, submit, idle, left] using hz 0

section settled

variable {p : Pool} (hp : p.active < p.limit) (jobs : List (Script ε ρ)) (schedule : Schedule)
include hp

theorem balanced_settle_start :
    Balanced p.limit p.active ((start p jobs).settle schedule) :=
  ((balanced_idle (Nat.le_of_lt hp)).submit 0 jobs).settle schedule

/-- A settled run has nothing left to do. -/
theorem left_settle : ((start p jobs).settle schedule).left = [] := by
  have hr := ready_settle schedule (start p jobs)
  have hw := (balanced_settle_start hp jobs schedule).waiting_eq_nil hr hp
  simp [left, hr, hw]

theorem active_settle : ((start p jobs).settle schedule).active = p.active :=
  (balanced_settle_start hp jobs schedule).active_of_ready_nil (ready_settle _ _)

/-- A settled run has reported the events of all jobs. -/
theorem events_settle_perm :
    ((start p jobs).settle schedule).events.Perm (jobs.flatMap Script.events) := by
  have h := (drain_perm schedule (start p jobs).work (start p jobs)).1
  rw [← settle, allEvents, left_settle hp, allEvents, left_start] at h
  simpa only [List.flatMap_nil, List.append_nil] using! h

/-- A settled run has the results of all jobs. -/
theorem results_settle_perm :
    ((start p jobs).settle schedule).results.Perm (jobs.map Script.result) := by
  have h := (drain_perm schedule (start p jobs).work (start p jobs)).2
  rw [← settle, allResults, left_settle hp, allResults, left_start] at h
  simpa only [List.map_nil, List.append_nil] using! h

end settled

end Run
end RouteScribe
