import RouteScribe.Proofs.Pool.Slots

/-! # One pool, used again and again

A pool outlives its uses.  Callers run lists of jobs in it and hold slots of their own, all at the
same time or one after the other, and when nothing of this is left, the next use may come with a new
semaphore, while the counters go on.  `Session.Move` lists what can happen next in such a history,
with a turn of any ready thread among it (`Run.step`), and `Session.Reached` collects the states
that any history leads to, together with all values that `active` has had on the way.

`Session.Reached.counters` says what the counters mean in every one of these states.  `Run.Balanced`
carries it: each move keeps the balance, and no move changes `active` by more than one, so that the
peak is one of the recorded values and none of them is larger. -/

namespace RouteScribe

/-- A pool in use. -/
structure Session (ε ρ : Type) where
  /-- The slots of the semaphore. -/
  limit : Nat
  /-- The threads of all uses, and the counters. -/
  run : Run ε ρ
  /-- The number of the next thread. -/
  next : Nat
  /-- The threads that are slots held by callers; all others are jobs. -/
  holders : List Nat

namespace Session

variable {ε ρ : Type} {limit : Int} {s t : Session ε ρ} {actives : List Nat}

/-- A pool that nobody has used yet. -/
def ofPool (p : Pool) : Session ε ρ := ⟨p.limit, Run.idle p, 0, []⟩

/-- Somebody runs jobs. -/
def runJobs (s : Session ε ρ) (jobs : List (Script ε ρ)) : Session ε ρ :=
  { s with run := s.run.submit s.next jobs, next := s.next + jobs.length }

/-- A caller asks for a slot of its own, to hold while it does something. -/
def holdSlot (s : Session ε ρ) (body : Script ε ρ) : Session ε ρ :=
  { s with
    run := s.run.submit s.next [body], next := s.next + 1, holders := s.next :: s.holders }

/-- The `i`-th ready thread has its turn. -/
def turn (s : Session ε ρ) (i : Nat) : Session ε ρ := { s with run := s.run.step i }

/-- A new semaphore, with all slots free. -/
def renew (s : Session ε ρ) : Session ε ρ := { s with run := { s.run with free := s.limit } }

/-- What can happen next.  A new semaphore comes only when nothing has been left running. -/
inductive Move : Session ε ρ → Session ε ρ → Prop
  | runJobs (s : Session ε ρ) (jobs : List (Script ε ρ)) : Move s (s.runJobs jobs)
  | holdSlot (s : Session ε ρ) (body : Script ε ρ) : Move s (s.holdSlot body)
  | turn (s : Session ε ρ) (i : Nat) : Move s (s.turn i)
  | renew (s : Session ε ρ) (hr : s.run.ready = []) (hw : s.run.waiting = []) : Move s s.renew

/-- The states that a pool of a limit can come to, each with the values that `active` has had. -/
inductive Reached (limit : Int) : Session ε ρ → List Nat → Prop
  | make {p : Pool} (h : Pool.make limit = .ok p) : Reached limit (ofPool p) [p.active]
  | move {s t : Session ε ρ} {actives : List Nat} (h : Reached limit s actives) (m : Move s t) :
      Reached limit t (t.run.active :: actives)

/-- No job is on its way any more: whoever has a slot or waits for one is a caller. -/
def JobsEnded (s : Session ε ρ) : Prop :=
  (∀ t ∈ s.run.ready, t.1 ∈ s.holders) ∧ ∀ t ∈ s.run.waiting, t.1 ∈ s.holders

/-- The number of slots that callers hold themselves. -/
def held (s : Session ε ρ) : Nat :=
  s.run.ready.countP fun t => t.2.isRunning && s.holders.contains t.1

/-! ### What a history keeps -/

theorem Move.limit_eq (m : Move s t) : t.limit = s.limit := by cases m <;> rfl

theorem Move.balanced (m : Move s t) (h : s.run.Balanced s.limit 0) : t.run.Balanced t.limit 0 := by
  cases m with
  | runJobs jobs => exact h.submit _ jobs
  | holdSlot body => exact h.submit _ [body]
  | turn i => exact h.step i
  | renew hr hw =>
      have ha := h.active_of_ready_nil hr
      refine ⟨h.active_eq, ?_, .inl hw, h.active_le_peak, h.peak_le⟩
      simp [Session.renew, hr, ha]

theorem Move.peak_eq (m : Move s t) (h : s.run.active ≤ s.run.peak) :
    t.run.peak = max s.run.peak t.run.active := by
  cases m with
  | turn i => exact Run.peak_step i h
  | runJobs jobs => exact (Nat.max_eq_left h).symm
  | holdSlot body => exact (Nat.max_eq_left h).symm
  | renew hr hw => exact (Nat.max_eq_left h).symm

theorem Reached.limit_eq (h : Reached limit s actives) : (s.limit : Int) = limit := by
  induction h with
  | @make p hp =>
      unfold Pool.make at hp
      split at hp
      · cases hp
        simp only [ofPool]
        omega
      · cases hp
  | move _ m ih => rw [m.limit_eq, ih]

theorem Reached.balanced (h : Reached limit s actives) : s.run.Balanced s.limit 0 := by
  induction h with
  | @make p hp =>
      have ha : p.active = 0 := Pool.active_make hp
      simpa only [ha] using! Run.balanced_idle (p := p) (by omega)
  | move _ m ih => exact m.balanced ih

/-- The peak is the largest value that `active` has had. -/
theorem Reached.peak_mem (h : Reached limit s actives) :
    s.run.peak ∈ actives ∧ ∀ a ∈ actives, a ≤ s.run.peak := by
  induction h with
  | make hp => simp [ofPool, Run.idle]
  | @move s t actives h m ih =>
      have hp := m.peak_eq h.balanced.active_le_peak
      obtain ⟨hm, hle⟩ := ih
      rw [hp]
      constructor
      · rcases Nat.le_total s.run.peak t.run.active with hc | hc
        · rw [Nat.max_eq_right hc]
          exact List.mem_cons_self
        · rw [Nat.max_eq_left hc]
          exact List.mem_cons_of_mem _ hm
      · intro a ha
        rcases List.mem_cons.mp ha with rfl | ha
        · exact Nat.le_max_right _ _
        · exact Nat.le_trans (hle a ha) (Nat.le_max_left _ _)

theorem held_eq_entered (h : s.JobsEnded) : s.held = Run.entered s.run.ready := by
  unfold held Run.entered
  apply List.countP_congr
  intro t ht
  simp [h.1 t ht]

/-- **What the counters of a pool mean**, in every state of every history of its uses: `active`
counts the slots that are entered, it stays between zero and the limit, and `peak` is the largest
value it has had.  Every slot of the semaphore is free, entered or handed to a thread that is about
to enter, so none is lost or given back twice; and when all jobs have ended, whether well or not, the
slots that callers hold are all that are taken. -/
theorem Reached.counters (h : Reached limit s actives) :
    s.run.active = Run.entered s.run.ready ∧
    (s.run.active : Int) ≤ limit ∧ s.run.active ≤ s.run.peak ∧ (s.run.peak : Int) ≤ limit ∧
    (s.run.peak ∈ actives ∧ ∀ a ∈ actives, a ≤ s.run.peak) ∧
    ((s.run.free + s.run.active + Run.promised s.run.ready : Nat) : Int) = limit ∧
    (s.JobsEnded → s.run.active = s.held) := by
  have hl := h.limit_eq
  have hb := h.balanced
  have ha : s.run.active = Run.entered s.run.ready := by simpa using hb.active_eq
  have h1 := hb.slots
  have h2 := hb.active_le_peak
  have h3 := hb.peak_le
  refine ⟨ha, by omega, h2, by omega, h.peak_mem, by omega, ?_⟩
  intro hj
  rw [held_eq_entered hj, ha]

/-- The counters when a caller holds one of two slots and the other one has served two jobs, of
which the first has failed. -/
theorem counters_after_failure :
    ∃ (s : Session Unit (Except Unit Unit)) (actives : List Nat),
      Reached 2 s actives ∧ s.JobsEnded ∧ s.run.done = [(1, .error ()), (2, .ok ())] ∧
      s.run.active = s.held ∧ s.held = 1 ∧ s.run.peak ∈ actives ∧ s.run.peak = 2 := by
  have h : Reached 2 (ofPool ⟨2, 0, 0, by decide⟩ : Session Unit (Except Unit Unit)) [0] :=
    .make rfl
  -- The caller enters its slot and pauses; then one job enters the other slot and one waits for it.
  have h := (h.move (.holdSlot _ (.turn (.turn (.finish (.ok ())))))).move (.turn _ 0)
  have h := (h.move (.turn _ 0)).move (.runJobs _ [.turn (.finish (.error ())), .finish (.ok ())])
  have h := (h.move (.turn _ 1)).move (.turn _ 2)
  -- The first job pauses and fails, and the second one gets its slot.
  have h := (h.move (.turn _ 0)).move (.turn _ 1)
  have h := (h.move (.turn _ 1)).move (.turn _ 0)
  refine ⟨_, _, h, ⟨by decide, by decide⟩, by rfl, ?_, by rfl, (Reached.counters h).2.2.2.2.1.1,
    by rfl⟩
  exact (Reached.counters h).2.2.2.2.2.2 ⟨by decide, by decide⟩

/-! ### Whole runs are histories -/

theorem Reached.drain (h : Reached limit s actives) (schedule : Schedule) (k : Nat) :
    ∃ actives', Reached limit { s with run := s.run.drain schedule k } actives' := by
  induction k generalizing s actives with
  | zero => exact ⟨actives, h⟩
  | succ k ih =>
      simp only [Run.drain]
      split
      · exact ⟨actives, h⟩
      · exact ih (h.move (.turn s _))

/-- What `Pool.run` leaves behind in a new pool is a state of such a history. -/
theorem reached_run {β α : Type} {p : Pool} (h : Pool.make limit = .ok p)
    (jobs : List (Script ε (Except β α))) (schedule : Schedule) :
    ∃ (s : Session ε (Except β α)) (actives : List Nat),
      Reached limit s actives ∧ s.run = (p.run jobs schedule).2.1 := by
  have hstart := (Reached.make h).move (.runJobs _ jobs)
  obtain ⟨actives, hr⟩ := hstart.drain schedule (Run.start p jobs).work
  exact ⟨_, actives, hr, rfl⟩

end Session
end RouteScribe
