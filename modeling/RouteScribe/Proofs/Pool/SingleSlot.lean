import RouteScribe.Proofs.Pool.Conservation
import RouteScribe.Proofs.Pool.Fair

/-! # A pool with one slot left

Where a single slot is left for the jobs, it goes from hand to hand: at most one thread is in it or
has been handed it, the jobs in line come next, and those that have not asked yet come last
(`Run.ahead`).  The fair schedule keeps this order.  So what has been told and what will be told,
one job after the other, is the same before and after every turn (`wholeTrace_step`), and a fair run
tells the events of its jobs in the order of the jobs (`trace_settle_fair`). -/

namespace RouteScribe
namespace Run

variable {ε ρ : Type} {held : Nat} {r : Run ε ρ} {n : Nat}

/-! ### The order of the jobs -/

/-- The thread is in a slot or has been handed one. -/
def isServed (t : Nat × Phase ε ρ) : Bool := t.2.isRunning || t.2.isGranted

/-- The thread and what it still has to do. -/
def task (t : Nat × Phase ε ρ) : Nat × Script ε ρ := (t.1, t.2.script)

/-- The jobs in the order in which they have the slot: the one that is served, those in line, and
those that have not asked yet. -/
def ahead (r : Run ε ρ) : List (Nat × Script ε ρ) :=
  (r.ready.filter isServed).map task ++ r.waiting ++
    (r.ready.filter fun t => !isServed t).map task

/-- The events that a job tells, with its number. -/
def telling (j : Nat × Script ε ρ) : List (Nat × ε) := j.2.events.map fun e => (j.1, e)

/-- What has been told, and what the jobs tell one after the other from now on. -/
def wholeTrace (r : Run ε ρ) : List (Nat × ε) := r.trace ++ r.ahead.flatMap telling

/-- Where no thread is in a slot and none has been handed one, nobody is served. -/
theorem filter_isServed_eq_nil {ts : List (Nat × Phase ε ρ)} (he : entered ts = 0)
    (hg : promised ts = 0) : ts.filter isServed = [] := by
  rw [List.filter_eq_nil_iff]
  intro t ht
  have hrunning := List.countP_eq_zero.mp he t ht
  have hgranted := List.countP_eq_zero.mp hg t ht
  simp [isServed, hrunning, hgranted]

/-- A thread that is served is the only one, and no slot is free. -/
theorem Balanced.served_alone {phase : Phase ε ρ} (hp : isServed (n, phase) = true)
    (h : Balanced (held + 1) held { r with ready := (n, phase) :: r.ready }) :
    r.free = 0 ∧ r.ready.filter isServed = [] := by
  have ha := h.active_eq
  have hs := h.slots
  simp only [entered_cons, promised_cons] at ha hs
  have hone : 1 ≤ phase.isRunning.toNat + phase.isGranted.toNat := by
    cases phase with
    | starting job => cases hp
    | granted job => exact Nat.le_refl _
    | running rest => exact Nat.le_refl _
  exact ⟨by omega, filter_isServed_eq_nil (by omega) (by omega)⟩

/-- Where a slot is free, nobody is served. -/
theorem Balanced.served_of_free {job : Script ε ρ} (hf : 0 < r.free)
    (h : Balanced (held + 1) held { r with ready := (n, .starting job) :: r.ready }) :
    r.ready.filter isServed = [] := by
  have ha := h.active_eq
  have hs := h.slots
  simp only [entered_cons, promised_cons] at ha hs
  exact filter_isServed_eq_nil (by omega) (by omega)

/-! ### A turn -/

/-- The slot that a job leaves goes to the first one in line. -/
theorem ahead_grant (h : r.ready.filter isServed = []) : r.grant.ahead = r.ahead := by
  rcases grant_cases r with hg | ⟨n, job, rest, hw, hg⟩
  · rw [hg]
  · rw [hg]
    simp [ahead, h, hw, isServed, task, Phase.script]

/-- A thread that asks for the slot enters it where it is the first of all, and else it gets in line
behind the others. -/
theorem wholeTrace_starting {job : Script ε ρ}
    (h : Balanced (held + 1) held { r with ready := (n, .starting job) :: r.ready }) :
    (r.act n (.starting job)).wholeTrace =
      wholeTrace { r with ready := (n, .starting job) :: r.ready } := by
  simp only [act]
  split
  · next ho =>
      simp only [isOpen, Bool.and_eq_true, decide_eq_true_eq, List.isEmpty_iff] at ho
      have hs := h.served_of_free ho.1.1
      simp [wholeTrace, ahead, enter, hs, ho.1.2, isServed, task, Phase.script]
  · simp [wholeTrace, ahead, isServed, task, Phase.script]

theorem wholeTrace_granted {job : Script ε ρ}
    (h : Balanced (held + 1) held { r with ready := (n, .granted job) :: r.ready }) :
    (r.act n (.granted job)).wholeTrace =
      wholeTrace { r with ready := (n, .granted job) :: r.ready } := by
  obtain ⟨hf, -⟩ := h.served_alone rfl
  simp [act, hf, wholeTrace, ahead, enter, isServed, task, Phase.script]

/-- The thread in the slot tells its next event, or pauses, or hands the slot on. -/
theorem wholeTrace_running {rest : Script ε ρ}
    (h : Balanced (held + 1) held { r with ready := (n, .running rest) :: r.ready }) :
    (r.act n (.running rest)).wholeTrace =
      wholeTrace { r with ready := (n, .running rest) :: r.ready } := by
  obtain ⟨-, hs⟩ := h.served_alone rfl
  cases rest with
  | finish x =>
      have hg := ahead_grant (r := { r with
        free := r.free + 1, active := r.active - 1, done := r.done ++ [(n, x)] }) hs
      simp only [act, advance, leave, wholeTrace, trace_grant, hg]
      simp [ahead, isServed, task, telling, Phase.script, Script.events]
  | emit e next =>
      simp [act, advance, wholeTrace, ahead, isServed, task, telling, Phase.script, Script.events]
  | turn next =>
      simp [act, advance, wholeTrace, ahead, hs, isServed, task, telling, Phase.script,
        Script.events]

/-- A turn of the fair schedule keeps what has been told and will be told. -/
theorem wholeTrace_step (h : Balanced (held + 1) held r) :
    (r.step 0).wholeTrace = r.wholeTrace := by
  cases hr : r.ready with
  | nil => rw [step_of_ready_nil hr]
  | cons t ready =>
      obtain ⟨n, phase⟩ := t
      rw [step_zero hr]
      have hb : Balanced (held + 1) held
          { ({ r with ready := ready } : Run ε ρ) with ready := (n, phase) :: ready } :=
        h.perm (.of_eq hr.symm)
      have hw : r.wholeTrace = wholeTrace
          { ({ r with ready := ready } : Run ε ρ) with ready := (n, phase) :: ready } := by
        rw [← hr]
      rw [hw]
      cases phase with
      | starting job => exact wholeTrace_starting hb
      | granted job => exact wholeTrace_granted hb
      | running rest => exact wholeTrace_running hb

/-! ### A whole run -/

theorem wholeTrace_after (h : Balanced (held + 1) held r) (k : Nat) :
    (r.after k).wholeTrace = r.wholeTrace := by
  induction k with
  | zero => rfl
  | succ k ih => rw [after_succ', wholeTrace_step (h.passes (passes_after k r)), ih]

theorem ahead_start (p : Pool) (jobs : List (Script ε ρ)) :
    (start p jobs).ahead = jobs.zipIdx.map fun j => (j.2, j.1) := by
  have hasks : ∀ t ∈ (start p jobs).ready, isServed t = false := by
    intro t ht
    obtain ⟨j, -, rfl⟩ := List.mem_map.mp ht
    rfl
  have hserved : (start p jobs).ready.filter isServed = [] :=
    List.filter_eq_nil_iff.mpr fun t ht => by simp [hasks t ht]
  have hasking : (start p jobs).ready.filter (fun t => !isServed t) = (start p jobs).ready :=
    List.filter_eq_self.mpr fun t ht => by simp [hasks t ht]
  rw [ahead, hserved, hasking]
  simp [start, submit, idle, task, Phase.script, Function.comp_def]

/-- **One job after the other.**  With one slot left, a fair run tells the events of its jobs in the
order of the jobs. -/
theorem trace_settle_fair {p : Pool} (hp : p.limit = p.active + 1) (jobs : List (Script ε ρ)) :
    ((start p jobs).settle .fair).trace =
      jobs.zipIdx.flatMap fun j => j.1.events.map fun e => (j.2, e) := by
  have hlt : p.active < p.limit := by omega
  have hb : Balanced (p.active + 1) p.active (start p jobs) :=
    hp ▸ (balanced_idle (Nat.le_of_lt hlt)).submit 0 jobs
  have hready := ready_settle .fair (start p jobs)
  have hwaiting := (balanced_settle_start hlt jobs .fair).waiting_eq_nil hready hlt
  have hwhole : ((start p jobs).settle .fair).wholeTrace = (start p jobs).wholeTrace := by
    rw [settle_fair]
    exact wholeTrace_after hb _
  have hend : ((start p jobs).settle .fair).ahead = [] := by simp [ahead, hready, hwaiting]
  have hstart : (start p jobs).trace = [] := rfl
  rw [wholeTrace, wholeTrace, hend, ahead_start, hstart, List.flatMap_nil, List.append_nil,
    List.nil_append, List.flatMap_map] at hwhole
  exact hwhole

end Run
end RouteScribe
