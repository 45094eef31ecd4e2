import Mathlib.Data.List.Nodup
import RouteScribe.Proofs.Pool.Accounts

/-! # The turns of an event loop

A loop starts its threads and wakes up those that have been handed a slot in the order in which they
got ready.  A thread in a slot goes on when the thing that it has paused for is there, which can be
soon or late.  So every thread in a slot can have the next turn, and of the others only the first one
(`Run.InTurn`).

`Run.Loop` collects the runs that such turns lead to, with the jobs that have begun and ended on the
way (`Mark`).  A turn that begins a job takes it from the front of all those that have not begun, and
no other turn changes their order (`begun_turn`).  So the jobs begin in the order of their numbers
(`Loop.begun_append_queue`), and every run comes to an end (`Loop.turns_le`). -/

namespace RouteScribe

variable {ε ρ : Type}

namespace Phase

/-- The thread has not asked for a slot yet. -/
def isStarting : Phase ε ρ → Bool
  | starting _ => true
  | _ => false

theorem isStarting_of_isRunning {phase : Phase ε ρ} (h : phase.isRunning = true) :
    phase.isStarting = false := by
  cases phase with
  | running rest => rfl
  | _ => cases h

theorem isGranted_of_isRunning {phase : Phase ε ρ} (h : phase.isRunning = true) :
    phase.isGranted = false := by
  cases phase with
  | running rest => rfl
  | _ => cases h

end Phase

namespace Run

variable {jobs : List (Script ε ρ)} {r r' r₀ : Run ε ρ} {i k n : Nat}

/-! ### Turns -/

/-- The `i`-th ready thread can have the next turn: nobody before it has to be started or woken up. -/
structure InTurn (r : Run ε ρ) (i : Nat) : Prop where
  lt : i < r.ready.length
  first : ∀ t ∈ r.ready.take i, t.2.isRunning = true

/-- The thread that has the turn, with those before and behind it. -/
theorem InTurn.cases (h : r.InTurn i) :
    ∃ front n phase back, r.ready = front ++ (n, phase) :: back ∧
      (∀ t ∈ front, t.2.isRunning = true) ∧
      r.step i = act n { r with ready := front ++ back } phase := by
  obtain ⟨⟨n, phase⟩, hget⟩ : ∃ t, r.ready[i]? = some t := ⟨_, List.getElem?_eq_getElem h.lt⟩
  obtain ⟨hi, ht⟩ := List.getElem?_eq_some_iff.mp hget
  refine ⟨r.ready.take i, n, phase, r.ready.drop (i + 1), ?_, h.first, ?_⟩
  · rw [← ht, List.getElem_cons_drop, List.take_append_drop]
  · rw [step, hget]
    dsimp only
    rw [List.eraseIdx_eq_take_drop_succ]

theorem inTurn_zero (h : r.ready ≠ []) : r.InTurn 0 :=
  ⟨List.length_pos_iff.mpr h, fun _ ht => absurd ht List.not_mem_nil⟩

/-! ### Who is where -/

/-- The numbers of the threads in some phase. -/
def numbersIn (f : Phase ε ρ → Bool) (ts : List (Nat × Phase ε ρ)) : List Nat :=
  (ts.filter fun t => f t.2).map Prod.fst

section numbersIn

variable (f : Phase ε ρ → Bool) (t : Nat × Phase ε ρ) (ts us : List (Nat × Phase ε ρ))

@[simp] theorem numbersIn_nil : numbersIn f [] = [] := rfl

@[simp] theorem numbersIn_cons :
    numbersIn f (t :: ts) = (if f t.2 then [t.1] else []) ++ numbersIn f ts := by
  cases h : f t.2 <;> simp [numbersIn, h]

@[simp] theorem numbersIn_append : numbersIn f (ts ++ us) = numbersIn f ts ++ numbersIn f us := by
  simp [numbersIn]

variable {f ts}

theorem numbersIn_eq_nil (h : ∀ t ∈ ts, f t.2 = false) : numbersIn f ts = [] := by
  rw [numbersIn, List.filter_eq_nil_iff.mpr fun t ht => Bool.not_eq_true _ ▸ h t ht, List.map_nil]

end numbersIn

/-- The jobs that are in slots. -/
def inside (r : Run ε ρ) : List Nat := numbersIn Phase.isRunning r.ready

/-- The jobs that have not begun, in the order in which they have asked or will ask for slots: those
that have been handed one, those in line, and those that have not asked yet. -/
def queue (r : Run ε ρ) : List Nat :=
  numbersIn Phase.isGranted r.ready ++ r.waiting.map Prod.fst ++ numbersIn Phase.isStarting r.ready

@[simp] theorem inside_grant (r : Run ε ρ) : r.grant.inside = r.inside := by
  rcases grant_cases r with hg | ⟨n, job, rest, -, hg⟩
  · rw [hg]
  · simp [hg, inside]

@[simp] theorem queue_grant (r : Run ε ρ) : r.grant.queue = r.queue := by
  rcases grant_cases r with hg | ⟨n, job, rest, hw, hg⟩
  · rw [hg]
  · simp [hg, queue, hw, Phase.isStarting]

@[simp] theorem inside_enter (n : Nat) (job : Script ε ρ) (r : Run ε ρ) :
    (r.enter n job).inside = n :: r.inside := by
  simp [inside, enter]

@[simp] theorem queue_enter (n : Nat) (job : Script ε ρ) (r : Run ε ρ) :
    (r.enter n job).queue = r.queue := by
  simp [queue, enter, Phase.isStarting]

theorem mem_inside_advance {m : Nat} {rest : Script ε ρ} (h : m ∈ (r.advance n rest).inside) :
    m = n ∨ m ∈ r.inside := by
  cases rest with
  | finish x =>
      rw [advance, leave, inside_grant] at h
      exact .inr h
  | emit e next => simpa [advance, inside] using h
  | turn next => simpa [advance, inside, or_comm] using h

theorem queue_advance (n : Nat) (rest : Script ε ρ) (r : Run ε ρ) :
    (r.advance n rest).queue = r.queue := by
  cases rest with
  | finish x =>
      rw [advance, leave, queue_grant]
      rfl
  | emit e next => simp [advance, queue, Phase.isStarting]
  | turn next => simp [advance, queue, Phase.isStarting]

/-- A slot can be entered at once only if all jobs that have not begun have not asked either. -/
theorem only_starting_of_isOpen (h : r.isOpen = true) :
    r.waiting = [] ∧ numbersIn Phase.isGranted r.ready = [] := by
  simp only [isOpen, Bool.and_eq_true, Bool.not_eq_true', List.isEmpty_iff, List.any_eq_false,
    Bool.not_eq_true] at h
  exact ⟨h.1.2, numbersIn_eq_nil h.2⟩

/-! ### What a turn begins and ends -/

/-- Something that happens to a job. -/
inductive Mark (ρ : Type) where
  | begins (n : Nat)
  | ends (n : Nat) (result : ρ)

/-- The jobs that have begun, in time. -/
def begun (ms : List (Mark ρ)) : List Nat :=
  ms.filterMap fun m =>
    match m with
    | .begins n => some n
    | .ends _ _ => none

/-- The jobs that have ended, in time, with their results. -/
def ended (ms : List (Mark ρ)) : List (Nat × ρ) :=
  ms.filterMap fun m =>
    match m with
    | .begins _ => none
    | .ends n result => some (n, result)

@[simp] theorem begun_append (ms ms' : List (Mark ρ)) : begun (ms ++ ms') = begun ms ++ begun ms' :=
  List.filterMap_append

@[simp] theorem ended_append (ms ms' : List (Mark ρ)) : ended (ms ++ ms') = ended ms ++ ended ms' :=
  List.filterMap_append

/-- What has happened from one moment to the next: jobs have got into slots, and jobs have ended. -/
def marks (r r' : Run ε ρ) : List (Mark ρ) :=
  (r'.inside.filter fun n => n ∉ r.inside).map .begins ++
    (r'.done.drop r.done.length).map fun d => .ends d.1 d.2

theorem begun_marks (r r' : Run ε ρ) :
    begun (r.marks r') = r'.inside.filter fun n => n ∉ r.inside := by
  simp [begun, marks, List.filterMap_map, -List.map_drop]

theorem ended_marks (r r' : Run ε ρ) : ended (r.marks r') = r'.done.drop r.done.length := by
  simp [ended, marks, List.filterMap_map, -List.map_drop]

theorem begun_marks_of_enter (h : r'.inside = n :: r.inside) (hn : n ∉ r.inside) :
    begun (r.marks r') = [n] := by
  have hrest : r.inside.filter (fun m => m ∉ r.inside) = [] :=
    List.filter_eq_nil_iff.mpr fun m hm => by simpa using hm
  rw [begun_marks, h, List.filter_cons_of_pos (by simpa using hn), hrest]

theorem begun_marks_of_subset (h : ∀ m ∈ r'.inside, m ∈ r.inside) : begun (r.marks r') = [] := by
  rw [begun_marks, List.filter_eq_nil_iff]
  intro m hm
  simpa using h m hm

/-- A turn ends jobs and forgets none that has ended. -/
theorem done_act (n : Nat) (phase : Phase ε ρ) (r : Run ε ρ) : r.done <+: (r.act n phase).done := by
  have hgrant : ∀ r : Run ε ρ, r.grant.done = r.done := by
    intro r
    rcases grant_cases r with hg | ⟨m, job, rest, -, hg⟩ <;> rw [hg]
  cases phase with
  | starting job =>
      simp only [act]
      split <;> exact List.prefix_refl _
  | granted job =>
      simp only [act]
      split
      · exact (hgrant r).symm ▸ List.prefix_refl _
      · exact List.prefix_refl _
  | running rest =>
      cases rest with
      | finish x =>
          simp only [act, advance, leave, hgrant]
          exact List.prefix_append _ _
      | emit e next => exact List.prefix_refl _
      | turn next => exact List.prefix_refl _

theorem done_append_ended (r : Run ε ρ) (i : Nat) :
    r.done ++ ended (r.marks (r.step i)) = (r.step i).done := by
  have hprefix : r.done <+: (r.step i).done := by
    rcases step_cases i r with he | ⟨n, phase, ready, -, he⟩
    · exact he.symm ▸ List.prefix_refl _
    · rw [he]
      exact done_act n phase { r with ready := ready }
  obtain ⟨rest, hrest⟩ := hprefix
  rw [ended_marks, ← hrest, List.drop_left]

/-- Threads in slots are not in the queue. -/
theorem queue_append {front : List (Nat × Phase ε ρ)} (hf : ∀ t ∈ front, t.2.isRunning = true)
    (ts : List (Nat × Phase ε ρ)) (r : Run ε ρ) :
    queue { r with ready := front ++ ts } =
      numbersIn Phase.isGranted ts ++ r.waiting.map Prod.fst ++ numbersIn Phase.isStarting ts := by
  have hgranted : numbersIn Phase.isGranted front = [] :=
    numbersIn_eq_nil fun t ht => Phase.isGranted_of_isRunning (hf t ht)
  have hstarting : numbersIn Phase.isStarting front = [] :=
    numbersIn_eq_nil fun t ht => Phase.isStarting_of_isRunning (hf t ht)
  simp [queue, hgranted, hstarting]

section turn

variable {front back : List (Nat × Phase ε ρ)} (hfront : ∀ t ∈ front, t.2.isRunning = true)

theorem inside_of_not_running {phase : Phase ε ρ} (hready : r.ready = front ++ (n, phase) :: back)
    (hphase : phase.isRunning = false) :
    r.inside = ({ r with ready := front ++ back } : Run ε ρ).inside := by
  simp [inside, hready, hphase]

include hfront

theorem queue_of_ready {phase : Phase ε ρ} (hready : r.ready = front ++ (n, phase) :: back) :
    r.queue = numbersIn Phase.isGranted ((n, phase) :: back) ++ r.waiting.map Prod.fst ++
      numbersIn Phase.isStarting ((n, phase) :: back) := by
  rw [← queue_append hfront, ← hready]

/-- A job that asks for a slot begins as the first one of the queue, or it keeps its place. -/
theorem begun_starting {job : Script ε ρ} (hready : r.ready = front ++ (n, .starting job) :: back)
    (hn : n ∉ r.inside) :
    begun (r.marks (act n { r with ready := front ++ back } (.starting job))) ++
      (act n { r with ready := front ++ back } (.starting job)).queue = r.queue := by
  have hinside := inside_of_not_running hready rfl
  rw [queue_of_ready hfront hready]
  simp only [act]
  split
  · next ho =>
      obtain ⟨hw, hg⟩ := only_starting_of_isOpen ho
      dsimp only at hw hg
      rw [numbersIn_append, List.append_eq_nil_iff] at hg
      rw [begun_marks_of_enter (n := n)]
      · rw [queue_enter]
        refine (congrArg ([n] ++ ·) (queue_append hfront back r)).trans ?_
        simp [hw, hg.2, Phase.isStarting]
      · rw [inside_enter, hinside]
        rfl
      · exact hn
  · rw [begun_marks_of_subset]
    · have hline := queue_append hfront back { r with waiting := r.waiting ++ [(n, job)] }
      refine hline.trans ?_
      simp [Phase.isStarting]
    · intro m hm
      exact hinside ▸ hm

/-- A job that has been handed a slot begins as the first one of the queue. -/
theorem begun_granted {job : Script ε ρ} (hready : r.ready = front ++ (n, .granted job) :: back)
    (hn : n ∉ r.inside) :
    begun (r.marks (act n { r with ready := front ++ back } (.granted job))) ++
      (act n { r with ready := front ++ back } (.granted job)).queue = r.queue := by
  rw [queue_of_ready hfront hready, begun_marks_of_enter (n := n)]
  · have hgrant : (if r.free > 0 then ({ r with ready := front ++ back } : Run ε ρ).grant
        else { r with ready := front ++ back }).queue =
          ({ r with ready := front ++ back } : Run ε ρ).queue := by
      split
      · exact queue_grant _
      · rfl
    simp only [act, queue_enter]
    rw [hgrant, queue_append hfront]
    simp [Phase.isStarting]
  · simp only [act, inside_enter, inside_of_not_running hready rfl]
    split
    · rw [inside_grant]
    · rfl
  · exact hn

/-- A job in its slot leaves the queue as it is. -/
theorem begun_running {rest : Script ε ρ} (hready : r.ready = front ++ (n, .running rest) :: back) :
    begun (r.marks (act n { r with ready := front ++ back } (.running rest))) ++
      (act n { r with ready := front ++ back } (.running rest)).queue = r.queue := by
  rw [queue_of_ready hfront hready, begun_marks_of_subset]
  · rw [act, queue_advance, queue_append hfront]
    simp [Phase.isStarting]
  · intro m hm
    rcases mem_inside_advance hm with rfl | hmem
    · simp [inside, hready]
    · have hor : m = n ∨ m ∈ numbersIn Phase.isRunning (front ++ back) := .inr hmem
      simpa [inside, hready, or_left_comm] using hor

end turn

/-- No number stands for two threads. -/
theorem Accounts.not_mem_inside {phase : Phase ε ρ} (ha : Accounts jobs r)
    (hmem : (n, phase) ∈ r.ready) (hphase : phase.isRunning = false) : n ∉ r.inside := by
  have hdistinct : (r.ready.map Prod.fst).Nodup := by
    have hnumbers := ha.numbers.nodup_iff.mpr List.nodup_range
    rw [Run.numbers, List.append_assoc] at hnumbers
    exact (List.sublist_append_left _ _).nodup hnumbers
  intro hn
  obtain ⟨⟨m, running⟩, hm, rfl⟩ := List.mem_map.mp hn
  obtain ⟨hm, hrunning⟩ := List.mem_filter.mp hm
  cases List.inj_on_of_nodup_map hdistinct hmem hm rfl
  rw [hphase] at hrunning
  cases hrunning

/-- A turn that begins a job takes it from the front of the queue, and every other one leaves the
queue as it is. -/
theorem begun_turn (ha : Accounts jobs r) (h : r.InTurn i) :
    begun (r.marks (r.step i)) ++ (r.step i).queue = r.queue := by
  obtain ⟨front, n, phase, back, hready, hfront, hstep⟩ := h.cases
  have hmem : (n, phase) ∈ r.ready := by
    rw [hready]
    exact List.mem_append_right _ List.mem_cons_self
  rw [hstep]
  cases phase with
  | starting job => exact begun_starting hfront hready (ha.not_mem_inside hmem rfl)
  | granted job => exact begun_granted hfront hready (ha.not_mem_inside hmem rfl)
  | running rest => exact begun_running hfront hready

/-! ### Runs of a loop -/

/-- The runs that a loop leads to, with the number of its turns and with what has happened to the
jobs in them. -/
inductive Loop (r₀ : Run ε ρ) : Nat → List (Mark ρ) → Run ε ρ → Prop
  | here : Loop r₀ 0 [] r₀
  | turn {k : Nat} {ms : List (Mark ρ)} {r : Run ε ρ} {i : Nat} (h : Loop r₀ k ms r)
    (hi : r.InTurn i) : Loop r₀ (k + 1) (ms ++ r.marks (r.step i)) (r.step i)

variable {ms : List (Mark ρ)}

theorem Loop.passes (h : r₀.Loop k ms r) : r₀.Passes r := by
  induction h with
  | here => exact .here
  | turn _ _ ih => exact ih.step _

/-- Every turn takes some of the work away. -/
theorem Loop.turns_le (h : r₀.Loop k ms r) : k + r.work ≤ r₀.work := by
  induction h with
  | here => omega
  | turn _ hi ih =>
      have hlt := work_step_lt _ _ hi.lt
      omega

theorem Loop.done_eq (h : r₀.Loop k ms r) : r.done = r₀.done ++ ended ms := by
  induction h with
  | here => exact (List.append_nil _).symm
  | turn _ _ ih => rw [← done_append_ended, ih, ended_append, List.append_assoc]

/-- Jobs begin in the order in which they stand in the queue. -/
theorem Loop.begun_append_queue (h : r₀.Loop k ms r) (ha : Accounts jobs r₀) :
    begun ms ++ r.queue = r₀.queue := by
  induction h with
  | here => rfl
  | turn h hi ih => rw [begun_append, List.append_assoc, begun_turn (ha.passes h.passes) hi, ih]

/-- At the start all jobs are about to ask for slots. -/
theorem numbersIn_start (p : Pool) (jobs : List (Script ε ρ)) :
    numbersIn Phase.isGranted (start p jobs).ready = [] ∧
      numbersIn Phase.isStarting (start p jobs).ready = List.range jobs.length := by
  have hz : ∀ js : List (Script ε ρ × Nat),
      numbersIn Phase.isGranted (js.map fun j => (j.2, Phase.starting j.1)) = [] ∧
        numbersIn Phase.isStarting (js.map fun j => (j.2, Phase.starting j.1)) = js.map Prod.snd := by
    intro js
    induction js with
    | nil => exact ⟨rfl, rfl⟩
    | cons j js ih => simpa [Phase.isStarting] using ih
  exact map_snd_zipIdx jobs ▸ hz jobs.zipIdx

theorem queue_start (p : Pool) (jobs : List (Script ε ρ)) :
    (start p jobs).queue = List.range jobs.length := by
  obtain ⟨hgranted, hstarting⟩ := numbersIn_start p jobs
  rw [queue, hgranted, hstarting]
  rfl

end Run
end RouteScribe
