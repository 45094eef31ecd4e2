import Mathlib.Logic.Function.Iterate
import RouteScribe.Proofs.Pool.Peak

/-! # The fair schedule

The first ready thread has every turn, a thread that pauses goes behind all others, and so does one
that is handed a slot.  So at any moment every thread in a slot except the first one has just paused
(`Orderly`, kept by `Orderly.step`), and only the first one can be between two pauses
(`Orderly.atRest`).

The first ready thread can always have the next turn of an event loop, so a fair run is one of the
runs of a loop (`exists_loop_after`), and its peak is theirs (`peak_settle_fair`). -/

namespace RouteScribe

variable {ε ρ : Type}

namespace Run

variable {jobs : List (Script ε ρ)} {r : Run ε ρ} {n k : Nat}

/-- The run after some turns of the fair schedule. -/
def after (k : Nat) (r : Run ε ρ) : Run ε ρ := (step 0)^[k] r

theorem after_succ' (k : Nat) (r : Run ε ρ) : r.after (k + 1) = (r.after k).step 0 :=
  Function.iterate_succ_apply' _ _ _

theorem step_of_ready_nil (h : r.ready = []) (i : Nat) : r.step i = r := by
  simp [step, h]

theorem step_zero {phase : Phase ε ρ} {ready : List (Nat × Phase ε ρ)}
    (h : r.ready = (n, phase) :: ready) : r.step 0 = act n { r with ready := ready } phase := by
  simp [step, h]

theorem after_of_ready_nil (h : r.ready = []) (k : Nat) : r.after k = r :=
  Function.iterate_fixed (step_of_ready_nil h 0) k

theorem drain_fair (k : Nat) (r : Run ε ρ) : r.drain .fair k = r.after k := by
  induction k generalizing r with
  | zero => rfl
  | succ k ih =>
      simp only [drain, Schedule.fair, Nat.zero_mod]
      split
      · next h => exact (after_of_ready_nil (List.isEmpty_iff.mp h) _).symm
      · exact ih _

theorem settle_fair (r : Run ε ρ) : r.settle .fair = r.after r.work := drain_fair _ _

theorem passes_after (k : Nat) (r : Run ε ρ) : r.Passes (r.after k) :=
  drain_fair k r ▸ passes_drain .fair k r

/-! ### Who has paused -/

/-- A thread in a slot has just paused. -/
def Rests (jobs : List (Script ε ρ)) (told : List ε) (n : Nat) : Phase ε ρ → Prop
  | .running rest => Comes jobs told n (.turn rest)
  | _ => True

/-- All threads in slots have just paused, except the one whose turn it is. -/
def Orderly (jobs : List (Script ε ρ)) (r : Run ε ρ) : Prop :=
  ∀ t ∈ r.ready.tail, Rests jobs (r.told t.1) t.1 t.2

theorem mem_ready_grant {t : Nat × Phase ε ρ} (h : t ∈ r.grant.ready) :
    t ∈ r.ready ∨ ∃ job, t.2 = .granted job := by
  rcases grant_cases r with hg | ⟨n, job, rest, -, hg⟩
  · exact .inl (hg ▸ h)
  · rw [hg] at h
    rcases List.mem_append.mp h with h | h
    · exact .inl h
    · cases List.mem_singleton.mp h
      exact .inr ⟨job, rfl⟩

/-- Behind the first thread come those that were there before, one that has been handed a slot, and
one that has paused. -/
theorem mem_tail_act {phase : Phase ε ρ} {t : Nat × Phase ε ρ}
    (h : t ∈ (r.act n phase).ready.tail) :
    t ∈ r.ready ∨ (∃ job, t.2 = .granted job) ∨
      ∃ next, phase = .running (.turn next) ∧ t = (n, .running next) := by
  cases phase with
  | starting job =>
      simp only [act] at h
      split at h
      · exact .inl h
      · exact .inl (List.mem_of_mem_tail h)
  | granted job =>
      simp only [act] at h
      split at h
      · exact (mem_ready_grant h).imp id .inl
      · exact .inl h
  | running rest =>
      cases rest with
      | finish x => exact (mem_ready_grant (List.mem_of_mem_tail h)).imp id .inl
      | emit e next => exact .inl h
      | turn next =>
          rcases List.mem_append.mp (List.mem_of_mem_tail h) with h | h
          · exact .inl h
          · exact .inr (.inr ⟨next, rfl, List.mem_singleton.mp h⟩)

theorem Orderly.act {phase : Phase ε ρ}
    (ha : Accounts jobs { r with ready := (n, phase) :: r.ready })
    (h : ∀ t ∈ r.ready, Rests jobs (r.told t.1) t.1 t.2) : Orderly jobs (r.act n phase) := by
  intro t ht
  rcases mem_tail_act ht with ht | ⟨job, hj⟩ | ⟨next, rfl, rfl⟩
  · rw [told_act_of_ne (ha.ne_of_mem (mem_numbers_of_ready ht))]
    exact h t ht
  · rw [hj]
    trivial
  · exact ha.ready _ List.mem_cons_self

theorem Orderly.step (h : Orderly jobs r) (ha : Accounts jobs r) : Orderly jobs (r.step 0) := by
  cases hr : r.ready with
  | nil => rwa [step_of_ready_nil hr]
  | cons t ready =>
      rw [step_zero hr]
      refine Orderly.act ?_ fun t' ht => h t' (by rw [hr]; exact ht)
      exact ha.perm (.of_eq hr.symm)

theorem orderly_after (p : Pool) (jobs : List (Script ε ρ)) (k : Nat) :
    Orderly jobs ((start p jobs).after k) := by
  induction k with
  | zero =>
      intro t ht
      obtain ⟨j, -, rfl⟩ := List.mem_map.mp (List.mem_of_mem_tail ht)
      trivial
  | succ k ih =>
      rw [after_succ']
      exact ih.step ((accounts_start p jobs).passes (passes_after k _))

/-- At any moment, what a job has told is what it tells before a pause, unless it is its turn. -/
theorem Orderly.atRest (h : Orderly jobs r) (ha : Accounts jobs r) {P : List ε → Prop} (h0 : P [])
    {job : Script ε ρ} (hj : jobs[n]? = some job) (hP : job.AtRest P []) :
    P (r.told n) ∨ ∃ phase, r.ready.head? = some (n, phase) := by
  have hn : n ∈ r.numbers :=
    ha.numbers.mem_iff.mpr (List.mem_range.mpr (List.getElem?_eq_some_iff.mp hj).1)
  rw [numbers, List.mem_append, List.mem_append] at hn
  rcases hn with (hn | hn) | hn
  · obtain ⟨⟨m, phase⟩, hm, rfl⟩ := List.mem_map.mp hn
    cases hr : r.ready with
    | nil => exact absurd (hr ▸ hm) List.not_mem_nil
    | cons t ready =>
        rcases List.mem_cons.mp (hr ▸ hm) with rfl | ht
        · exact .inr ⟨phase, rfl⟩
        · refine .inl ?_
          have hrests := h (m, phase) (by rw [hr]; exact ht)
          cases phase with
          | starting job => exact (ha.ready _ hm).2 ▸ h0
          | granted job => exact (ha.ready _ hm).2 ▸ h0
          | running rest =>
              obtain ⟨job', hj', hreach⟩ := hrests
              cases hj.symm.trans hj'
              exact (hreach.atRest hP).1
  · obtain ⟨w, hw, rfl⟩ := List.mem_map.mp hn
    exact .inl ((ha.waiting w hw).2 ▸ h0)
  · obtain ⟨d, hd, rfl⟩ := List.mem_map.mp hn
    obtain ⟨job', hj', hreach⟩ := ha.done d hd
    cases hj.symm.trans hj'
    exact .inl (hreach.atRest hP)

/-! ### The fair schedule in an event loop -/

theorem exists_loop_after (k : Nat) (r : Run ε ρ) : ∃ turns ms, r.Loop turns ms (r.after k) := by
  induction k with
  | zero => exact ⟨0, [], .here⟩
  | succ k ih =>
      obtain ⟨turns, ms, h⟩ := ih
      rw [after_succ']
      rcases eq_or_ne (r.after k).ready [] with hr | hr
      · rw [step_of_ready_nil hr]
        exact ⟨turns, ms, h⟩
      · exact ⟨_, _, h.turn (inTurn_zero hr)⟩

theorem exists_loop_settle (r : Run ε ρ) : ∃ turns ms, r.Loop turns ms (r.settle .fair) :=
  settle_fair r ▸ exists_loop_after r.work r

/-- A fair run of jobs that pause takes as many slots as there are, or as there are jobs for. -/
theorem peak_settle_fair {p : Pool} (hp : p.active ≤ p.limit) (hj : ∀ job ∈ jobs, job.Pauses) :
    ((start p jobs).settle .fair).peak = min p.limit (p.active + jobs.length) := by
  obtain ⟨turns, ms, h⟩ := exists_loop_settle (start p jobs)
  exact h.peak_eq hp hj (ready_settle .fair _)

end Run
end RouteScribe
