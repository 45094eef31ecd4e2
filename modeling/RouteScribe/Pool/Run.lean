import RouteScribe.Pool.Basic
import RouteScribe.Pool.Script
import RouteScribe.Pool.Total

/-!
# Running jobs in a pool

Every job needs a slot of the pool while it runs.  A `Run` holds the threads that are ready to take
their turn and the jobs that wait in line for a slot.  `step i` gives the `i`-th ready thread its
turn.  In a turn the thread does one thing: it enters a slot or gets in line for one, reports an
event, pauses, or ends its job, and a job that ends hands its slot to the first one in line.

A `Schedule` chooses the threads.  A thread that has not paused stays before the others, so the fair
schedule, which chooses the first one each time, runs a job on to its next pause; other schedules
may let another thread in between any two turns.

`work` bounds the steps of a run: each step of a ready thread makes it smaller
(`work_step_lt`), so a run of `work` steps leaves no thread ready (`ready_settle`).
-/

namespace RouteScribe

/-- The choice of a thread for each turn: the number of a ready thread, counted round where there
are fewer. -/
abbrev Schedule := Nat → Nat

/-- The first ready thread has every turn. -/
def Schedule.fair : Schedule := fun _ => 0

/-- Where a ready thread stands. -/
inductive Phase (ε ρ : Type) where
  /-- It has not asked for a slot yet. -/
  | starting (job : Script ε ρ)
  /-- It has been handed a slot and will enter it. -/
  | granted (job : Script ε ρ)
  /-- It is in a slot. -/
  | running (rest : Script ε ρ)

namespace Phase

variable {ε ρ : Type}

/-- What the thread still has to do. -/
def script : Phase ε ρ → Script ε ρ
  | starting job => job
  | granted job => job
  | running rest => rest

/-- The thread has been handed a slot that it has not entered. -/
def isGranted : Phase ε ρ → Bool
  | granted _ => true
  | _ => false

/-- The thread is in a slot. -/
def isRunning : Phase ε ρ → Bool
  | running _ => true
  | _ => false

@[simp] theorem isGranted_starting (job : Script ε ρ) : (starting job).isGranted = false := rfl
@[simp] theorem isGranted_granted (job : Script ε ρ) : (granted job).isGranted = true := rfl
@[simp] theorem isGranted_running (rest : Script ε ρ) : (running rest).isGranted = false := rfl
@[simp] theorem isRunning_starting (job : Script ε ρ) : (starting job).isRunning = false := rfl
@[simp] theorem isRunning_granted (job : Script ε ρ) : (granted job).isRunning = false := rfl
@[simp] theorem isRunning_running (rest : Script ε ρ) : (running rest).isRunning = true := rfl

/-- A bound for the turns that a thread still takes. -/
def work : Phase ε ρ → Nat
  | starting job => job.size + 3
  | granted job => job.size + 1
  | running rest => rest.size

end Phase

/-- Jobs in a pool. -/
structure Run (ε ρ : Type) where
  /-- Slots that nobody has and nobody has been handed. -/
  free : Nat
  /-- Slots that somebody is in. -/
  active : Nat
  /-- The most slots that somebody was in at once. -/
  peak : Nat
  /-- Threads that can take their turn. -/
  ready : List (Nat × Phase ε ρ)
  /-- Jobs in line for a slot. -/
  waiting : List (Nat × Script ε ρ)
  /-- Results in the order in which the jobs have ended. -/
  done : List (Nat × ρ)
  /-- Events in the order in which they were reported. -/
  trace : List (Nat × ε)

namespace Run

variable {ε ρ : Type}

/-- Hands a free slot to the first job in line. -/
def grant (r : Run ε ρ) : Run ε ρ :=
  match r.waiting with
  | [] => r
  | (n, job) :: rest =>
    { r with free := r.free - 1, waiting := rest, ready := r.ready ++ [(n, .granted job)] }

/-- Ends a job: its slot becomes free, and goes to the first one in line. -/
def leave (n : Nat) (result : ρ) (r : Run ε ρ) : Run ε ρ :=
  grant { r with
    free := r.free + 1
    active := r.active - 1
    done := r.done ++ [(n, result)] }

/-- Enters a slot. -/
def enter (n : Nat) (job : Script ε ρ) (r : Run ε ρ) : Run ε ρ :=
  { r with
    active := r.active + 1
    peak := max r.peak (r.active + 1)
    ready := (n, .running job) :: r.ready }

/-- Does the next thing of a job that is in a slot. -/
def advance (n : Nat) (r : Run ε ρ) : Script ε ρ → Run ε ρ
  | .finish result => r.leave n result
  | .emit event next =>
    { r with ready := (n, .running next) :: r.ready, trace := r.trace ++ [(n, event)] }
  | .turn next => { r with ready := r.ready ++ [(n, .running next)] }

/-- A slot can be entered without standing in line: one is free, and nobody is about to enter or in
line before. -/
def isOpen (r : Run ε ρ) : Bool :=
  r.free > 0 && r.waiting.isEmpty && !r.ready.any fun t => t.2.isGranted

/-- The turn of a thread that has been taken from the ready ones. -/
def act (n : Nat) (r : Run ε ρ) : Phase ε ρ → Run ε ρ
  | .starting job =>
    if r.isOpen then enter n job { r with free := r.free - 1 }
    else { r with waiting := r.waiting ++ [(n, job)] }
  | .granted job => enter n job (if r.free > 0 then r.grant else r)
  | .running rest => advance n r rest

/-- The turn of the `i`-th ready thread. -/
def step (i : Nat) (r : Run ε ρ) : Run ε ρ :=
  match r.ready[i]? with
  | none => r
  | some (n, phase) => act n { r with ready := r.ready.eraseIdx i } phase

/-- A bound for the steps of a run. -/
def work (r : Run ε ρ) : Nat :=
  total (fun t => t.2.work) r.ready + total (fun t => t.2.size + 2) r.waiting

/-- Some turns, or fewer when no thread is ready any more. -/
def drain (schedule : Schedule) : Nat → Run ε ρ → Run ε ρ
  | 0, r => r
  | k + 1, r =>
    if r.ready.isEmpty then r else drain schedule k (r.step (schedule k % r.ready.length))

/-- The run when no thread is ready any more. -/
def settle (schedule : Schedule) (r : Run ε ρ) : Run ε ρ := drain schedule r.work r

/-- A pool in which no job has started. -/
def idle (p : Pool) : Run ε ρ :=
  { free := p.limit - p.active, active := p.active, peak := p.active
    ready := [], waiting := [], done := [], trace := [] }

/-- Takes in jobs, which are numbered from `first` on and ask for slots in the order of the list. -/
def submit (first : Nat) (jobs : List (Script ε ρ)) (r : Run ε ρ) : Run ε ρ :=
  { r with ready := r.ready ++ (jobs.zipIdx first).map fun (job, n) => (n, .starting job) }

/-- Jobs at the start. -/
def start (p : Pool) (jobs : List (Script ε ρ)) : Run ε ρ := (idle p).submit 0 jobs

/-- The events of a run. -/
def events (r : Run ε ρ) : List ε := r.trace.map Prod.snd

/-- The pool after a run. -/
def poolAfter (p : Pool) (r : Run ε ρ) : Pool :=
  { p with active := r.active, peak := max p.peak r.peak }

/-! ### The bound of the steps -/

theorem work_grant_le (r : Run ε ρ) : r.grant.work ≤ r.work := by
  unfold grant
  split
  · exact Nat.le_refl _
  · next n job rest h =>
    simp only [work, h, total_append, total, Phase.work]
    omega

theorem work_leave_le (n : Nat) (result : ρ) (r : Run ε ρ) : (r.leave n result).work ≤ r.work :=
  work_grant_le _

theorem work_enter (n : Nat) (job : Script ε ρ) (r : Run ε ρ) :
    (r.enter n job).work = r.work + job.size := by
  simp only [enter, work, total, Phase.work]
  omega

theorem work_advance_lt (n : Nat) (rest : Script ε ρ) (r : Run ε ρ) :
    (r.advance n rest).work < r.work + rest.size := by
  cases rest with
  | finish result =>
    have := work_leave_le n result r
    simp only [advance, Script.size]
    omega
  | emit event next =>
    simp only [advance, work, total, Phase.work, Script.size]
    omega
  | turn next =>
    simp only [advance, work, total_append, total, Phase.work, Script.size]
    omega

theorem work_act_lt (n : Nat) (r : Run ε ρ) (phase : Phase ε ρ) :
    (r.act n phase).work < r.work + phase.work := by
  cases phase with
  | starting job =>
    simp only [act]
    split
    · rw [work_enter]
      simp only [work, Phase.work]
      omega
    · simp only [work, Phase.work, total_append, total]
      omega
  | granted job =>
    have : (if r.free > 0 then r.grant else r).work ≤ r.work := by
      split
      · exact work_grant_le r
      · exact Nat.le_refl _
    simp only [act, work_enter, Phase.work]
    omega
  | running rest => exact work_advance_lt n rest r

/-- The turn of a ready thread makes the bound smaller. -/
theorem work_step_lt (i : Nat) (r : Run ε ρ) (h : i < r.ready.length) :
    (r.step i).work < r.work := by
  obtain ⟨⟨n, phase⟩, ht⟩ : ∃ t, r.ready[i]? = some t := ⟨_, List.getElem?_eq_getElem h⟩
  have hs := total_eraseIdx (fun t : Nat × Phase ε ρ => t.2.work) r.ready i _ ht
  simp only [step, ht]
  refine Nat.lt_of_lt_of_le (work_act_lt _ _ _) ?_
  simp only [work] at hs ⊢
  omega

theorem ready_drain (schedule : Schedule) (k : Nat) (r : Run ε ρ) (h : r.work ≤ k) :
    (drain schedule k r).ready = [] := by
  induction k generalizing r with
  | zero =>
    cases hr : r.ready with
    | nil => simp [drain, hr]
    | cons t ts =>
      have := work_step_lt 0 r (by simp [hr])
      omega
  | succ k ih =>
    simp only [drain]
    split
    · next hr => exact List.isEmpty_iff.mp hr
    · next hr =>
      have hlen : 0 < r.ready.length := by
        cases h : r.ready with
        | nil => simp [h] at hr
        | cons => simp
      exact ih _ (by have := work_step_lt _ r (Nat.mod_lt (schedule k) hlen); omega)

/-- A run that has settled has no thread left that could take a turn. -/
theorem ready_settle (schedule : Schedule) (r : Run ε ρ) : (r.settle schedule).ready = [] :=
  ready_drain _ _ _ (Nat.le_refl _)

end Run

/-! ### Jobs that can fail -/

namespace Run

variable {ε β α : Type}

/-- The first failure in time. -/
def failure? (r : Run ε (Except β α)) : Option β :=
  r.done.findSome? fun d =>
    match d.2 with
    | .error e => some e
    | .ok _ => none

/-- The value of a job that has ended well. -/
def value? (r : Run ε (Except β α)) (n : Nat) : Option α :=
  r.done.findSome? fun d =>
    match d.2 with
    | .ok a => if d.1 = n then some a else none
    | .error _ => none

/-- The values of `count` jobs in the order of the jobs, or the first failure in time. -/
def outcome (r : Run ε (Except β α)) (count : Nat) : Except β (List α) :=
  match r.failure? with
  | some e => .error e
  | none => .ok ((List.range count).filterMap r.value?)

end Run

/-- Runs jobs in a pool: the outcome, the run, and the pool after it. -/
def Pool.run {ε β α : Type} (p : Pool) (jobs : List (Script ε (Except β α)))
    (schedule : Schedule := .fair) : Except β (List α) × Run ε (Except β α) × Pool :=
  let r := (Run.start p jobs).settle schedule
  (r.outcome jobs.length, r, r.poolAfter p)

end RouteScribe
