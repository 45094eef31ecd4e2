import Mathlib.Algebra.Order.BigOperators.Group.List
import Mathlib.Algebra.Order.Group.Nat
import RouteScribe.Proofs.Pool.Slots

/-! # What each job has told

A turn moves one job on and leaves all others where they are.  `Run.Accounts jobs r` ties every
thread of a run to its job: the thread stands where the events that the job has told end
(`Script.Reaches`), a job that is not in a slot yet has told nothing, and no number stands for two
threads.  Every turn keeps the accounts (`Accounts.step`), whichever thread has it.

So a job tells events only in its slot (`inSlot_of_told_ne`), and a job that has begun and has not
told everything is in its slot (`Accounts.inSlot`).  The events of a run are those that its jobs have
told (`Accounts.events_perm`). -/

namespace RouteScribe

variable {ε ρ : Type}

/-- The job has told some events and has come to what is left of it. -/
inductive Script.Reaches (job : Script ε ρ) : List ε → Script ε ρ → Prop
  | start : Reaches job [] job
  | emit {told : List ε} {e : ε} {next : Script ε ρ} (h : Reaches job told (.emit e next)) :
    Reaches job (told ++ [e]) next
  | turn {told : List ε} {next : Script ε ρ} (h : Reaches job told (.turn next)) :
    Reaches job told next

theorem Script.Reaches.events {job rest : Script ε ρ} {told : List ε}
    (h : job.Reaches told rest) : told ++ rest.events = job.events := by
  induction h with
  | start => rfl
  | emit h ih => rw [← ih, Script.events, List.append_assoc, List.singleton_append]
  | turn h ih => exact ih

theorem Script.Reaches.result {job rest : Script ε ρ} {told : List ε}
    (h : job.Reaches told rest) : rest.result = job.result := by
  induction h with
  | start => rfl
  | emit h ih => exact ih
  | turn h ih => exact ih

/-- What a job has told has the property whenever the job pauses, and when it ends. -/
def Script.AtRest (P : List ε → Prop) (told : List ε) : Script ε ρ → Prop
  | finish _ => P told
  | emit e next => next.AtRest P (told ++ [e])
  | turn next => P told ∧ next.AtRest P told

theorem Script.Reaches.atRest {P : List ε → Prop} {job rest : Script ε ρ} {told : List ε}
    (h : job.Reaches told rest) (hj : job.AtRest P []) : rest.AtRest P told := by
  induction h with
  | start => exact hj
  | emit _ ih => exact ih
  | turn _ ih => exact ih.2

namespace Run

variable {jobs : List (Script ε ρ)} {r : Run ε ρ} {n : Nat}

/-- The events that a job has told. -/
def told (r : Run ε ρ) (n : Nat) : List ε := (r.trace.filter fun t => t.1 = n).map Prod.snd

/-- The job is in a slot. -/
def InSlot (r : Run ε ρ) (n : Nat) : Prop := ∃ rest, (n, .running rest) ∈ r.ready

/-- The numbers of all jobs: those that are ready, in line or at their end. -/
def numbers (r : Run ε ρ) : List Nat :=
  r.ready.map Prod.fst ++ r.waiting.map Prod.fst ++ r.done.map Prod.fst

/-- The job is the one of its number and has told nothing. -/
def Untouched (jobs : List (Script ε ρ)) (told : List ε) (n : Nat) (job : Script ε ρ) : Prop :=
  jobs[n]? = some job ∧ told = []

/-- The job of the number has come so far. -/
def Comes (jobs : List (Script ε ρ)) (told : List ε) (n : Nat) (rest : Script ε ρ) : Prop :=
  ∃ job, jobs[n]? = some job ∧ job.Reaches told rest

/-- The phase of a thread agrees with what its job has told. -/
def PhaseAgrees (jobs : List (Script ε ρ)) (told : List ε) (n : Nat) : Phase ε ρ → Prop
  | .starting job => Untouched jobs told n job
  | .granted job => Untouched jobs told n job
  | .running rest => Comes jobs told n rest

/-- Every thread stands where its job has come to. -/
structure Accounts (jobs : List (Script ε ρ)) (r : Run ε ρ) : Prop where
  numbers : r.numbers.Perm (List.range jobs.length)
  ready : ∀ t ∈ r.ready, PhaseAgrees jobs (r.told t.1) t.1 t.2
  waiting : ∀ w ∈ r.waiting, Untouched jobs (r.told w.1) w.1 w.2
  done : ∀ d ∈ r.done, Comes jobs (r.told d.1) d.1 (.finish d.2)
  trace : ∀ t ∈ r.trace, t.1 < jobs.length

theorem Untouched.comes {told : List ε} {job : Script ε ρ} (h : Untouched jobs told n job) :
    Comes jobs told n job := by
  obtain ⟨hj, rfl⟩ := h
  exact ⟨job, hj, .start⟩

theorem told_append (r : Run ε ρ) (n m : Nat) (e : ε) :
    told { r with trace := r.trace ++ [(n, e)] } m = r.told m ++ if n = m then [e] else [] := by
  by_cases h : n = m <;> simp [told, h]

theorem told_of_trace_eq {r' : Run ε ρ} (h : r'.trace = r.trace) (n : Nat) :
    r'.told n = r.told n := by rw [told, told, h]

@[simp] theorem trace_grant (r : Run ε ρ) : r.grant.trace = r.trace := by
  unfold grant
  split <;> rfl

/-- A turn tells nothing, or the next event of its thread. -/
theorem trace_act (n : Nat) (phase : Phase ε ρ) (r : Run ε ρ) :
    (r.act n phase).trace = r.trace ∨ ∃ e next, phase = .running (.emit e next) := by
  cases phase with
  | starting job =>
      refine .inl ?_
      simp only [act]
      split <;> rfl
  | granted job =>
      refine .inl ?_
      simp only [act]
      split
      · exact trace_grant r
      · rfl
  | running rest =>
      cases rest with
      | finish x => exact .inl (trace_grant _)
      | emit e next => exact .inr ⟨e, next, rfl⟩
      | turn next => exact .inl rfl

/-- A turn tells nothing of other jobs. -/
theorem told_act_of_ne {m : Nat} (h : n ≠ m) (phase : Phase ε ρ) (r : Run ε ρ) :
    (r.act n phase).told m = r.told m := by
  rcases trace_act n phase r with ht | ⟨e, next, rfl⟩
  · exact told_of_trace_eq ht m
  · refine (told_append { r with ready := _ } n m e).trans ?_
    rw [if_neg h, List.append_nil]

/-! ### A turn -/

theorem mem_numbers_of_ready {t : Nat × Phase ε ρ} (h : t ∈ r.ready) : t.1 ∈ r.numbers := by
  rw [numbers, List.append_assoc]
  exact List.mem_append_left _ (List.mem_map_of_mem h)

theorem mem_numbers_of_waiting {w : Nat × Script ε ρ} (h : w ∈ r.waiting) : w.1 ∈ r.numbers :=
  List.mem_append_left _ (List.mem_append_right _ (List.mem_map_of_mem h))

theorem mem_numbers_of_done {d : Nat × ρ} (h : d ∈ r.done) : d.1 ∈ r.numbers :=
  List.mem_append_right _ (List.mem_map_of_mem h)

/-- Where no event has been told, only the jobs that have moved have to be looked at. -/
theorem Accounts.moved (h : Accounts jobs r) {r' : Run ε ρ} (ht : r'.trace = r.trace)
    (hn : r'.numbers.Perm r.numbers)
    (hr : ∀ t ∈ r'.ready, t ∈ r.ready ∨ PhaseAgrees jobs (r.told t.1) t.1 t.2)
    (hw : ∀ w ∈ r'.waiting, w ∈ r.waiting ∨ Untouched jobs (r.told w.1) w.1 w.2)
    (hd : ∀ d ∈ r'.done, d ∈ r.done ∨ Comes jobs (r.told d.1) d.1 (.finish d.2)) :
    Accounts jobs r' := by
  refine ⟨hn.trans h.numbers, ?_, ?_, ?_, ht ▸ h.trace⟩
  · intro t hm
    rw [told_of_trace_eq ht]
    exact (hr t hm).elim (h.ready t) id
  · intro w hm
    rw [told_of_trace_eq ht]
    exact (hw w hm).elim (h.waiting w) id
  · intro d hm
    rw [told_of_trace_eq ht]
    exact (hd d hm).elim (h.done d) id

theorem Accounts.perm (h : Accounts jobs r) {ready : List (Nat × Phase ε ρ)}
    (hp : ready.Perm r.ready) : Accounts jobs { r with ready := ready } :=
  h.moved rfl (((hp.map Prod.fst).append_right _).append_right _)
    (fun _ ht => .inl (hp.mem_iff.mp ht)) (fun _ => .inl) fun _ => .inl

theorem grant_cases (r : Run ε ρ) : r.grant = r ∨ ∃ n job rest, r.waiting = (n, job) :: rest ∧
    r.grant = { r with
      free := r.free - 1, waiting := rest, ready := r.ready ++ [(n, .granted job)] } := by
  unfold Run.grant
  split
  · exact .inl rfl
  · next n job rest hw => exact .inr ⟨n, job, rest, hw, rfl⟩

/-- The first job in line becomes a thread. -/
theorem Accounts.grant (h : Accounts jobs r) : Accounts jobs r.grant := by
  rcases grant_cases r with hg | ⟨n, job, rest, hw, hg⟩
  · rwa [hg]
  · rw [hg]
    refine h.moved rfl (.of_eq (by simp [Run.numbers, hw])) ?_ ?_ fun _ => .inl
    · intro t ht
      rcases List.mem_append.mp ht with ht | ht
      · exact .inl ht
      · cases List.mem_singleton.mp ht
        exact .inr (h.waiting (n, job) (hw ▸ List.mem_cons_self))
    · intro w hm
      exact .inl (hw ▸ List.mem_cons_of_mem _ hm)

/-- A thread enters a slot. -/
theorem Accounts.enter {job : Script ε ρ} {phase : Phase ε ρ}
    (h : Accounts jobs { r with ready := (n, phase) :: r.ready })
    (hu : Untouched jobs (r.told n) n job) : Accounts jobs (r.enter n job) := by
  refine h.moved rfl (.refl _) ?_ (fun _ => .inl) fun _ => .inl
  intro t ht
  rcases List.mem_cons.mp ht with rfl | ht
  · exact .inr hu.comes
  · exact .inl (List.mem_cons_of_mem _ ht)

/-- The other threads have other numbers. -/
theorem Accounts.ne_of_mem {phase : Phase ε ρ}
    (h : Accounts jobs { r with ready := (n, phase) :: r.ready }) {m : Nat}
    (hm : m ∈ r.numbers) : n ≠ m := by
  have hn := h.numbers.nodup_iff.mpr List.nodup_range
  have hcons : ({ r with ready := (n, phase) :: r.ready } : Run ε ρ).numbers = n :: r.numbers := rfl
  rw [hcons, List.nodup_cons] at hn
  rintro rfl
  exact hn.1 hm

/-- A thread tells an event. -/
theorem Accounts.emit {e : ε} {next : Script ε ρ}
    (h : Accounts jobs { r with ready := (n, .running (.emit e next)) :: r.ready }) :
    Accounts jobs (r.advance n (.emit e next)) := by
  have hself : (r.advance n (.emit e next)).told n = r.told n ++ [e] := by
    refine (told_append { r with ready := _ } n n e).trans ?_
    rw [if_pos rfl]
  -- No other thread has the number, so all other accounts stay as they are.
  have hsame : ∀ m ∈ r.numbers, (r.advance n (.emit e next)).told m = r.told m :=
    fun m hm => told_act_of_ne (h.ne_of_mem hm) (.running (.emit e next)) r
  obtain ⟨job, hj, hr⟩ := h.ready _ List.mem_cons_self
  refine ⟨h.numbers, ?_, ?_, ?_, ?_⟩
  · intro t ht
    rcases List.mem_cons.mp ht with rfl | ht
    · refine ⟨job, hj, ?_⟩
      rw [hself]
      exact hr.emit
    · rw [hsame t.1 (mem_numbers_of_ready ht)]
      exact h.ready t (List.mem_cons_of_mem _ ht)
  · intro w hw
    rw [hsame w.1 (mem_numbers_of_waiting hw)]
    exact h.waiting w hw
  · intro d hd
    rw [hsame d.1 (mem_numbers_of_done hd)]
    exact h.done d hd
  · intro t ht
    rcases List.mem_append.mp ht with ht | ht
    · exact h.trace t ht
    · cases List.mem_singleton.mp ht
      exact (List.getElem?_eq_some_iff.mp hj).1

/-- A thread that asks for a slot enters it or gets in line. -/
theorem Accounts.act_starting {job : Script ε ρ}
    (h : Accounts jobs { r with ready := (n, .starting job) :: r.ready }) :
    Accounts jobs (r.act n (.starting job)) := by
  have hphase := h.ready _ List.mem_cons_self
  have hrest : ∀ t ∈ r.ready, t ∈ (n, .starting job) :: r.ready := fun _ => List.mem_cons_of_mem _
  simp only [Run.act]
  split
  · refine h.moved rfl (.refl _) ?_ (fun _ => .inl) fun _ => .inl
    intro t ht
    rcases List.mem_cons.mp ht with rfl | ht
    · exact .inr hphase.comes
    · exact .inl (hrest t ht)
  · refine h.moved rfl ?_ (fun t ht => .inl (hrest t ht)) ?_ fun _ => .inl
    · simp only [Run.numbers, List.map_append, List.map_cons, List.map_nil, List.cons_append,
        ← List.append_assoc]
      exact (List.perm_append_singleton n _).append_right _
    · intro w hw
      rcases List.mem_append.mp hw with hw | hw
      · exact .inl hw
      · cases List.mem_singleton.mp hw
        exact .inr hphase

/-- A thread ends. -/
theorem Accounts.finish {x : ρ}
    (h : Accounts jobs { r with ready := (n, .running (.finish x)) :: r.ready }) :
    Accounts jobs (r.leave n x) := by
  refine Accounts.grant (h.moved rfl ?_ (fun t ht => .inl (List.mem_cons_of_mem _ ht))
    (fun _ => .inl) ?_)
  · simp only [Run.numbers, List.map_append, List.map_cons, List.map_nil, List.cons_append,
      ← List.append_assoc]
    exact List.perm_append_singleton n _
  · intro d hd
    rcases List.mem_append.mp hd with hd | hd
    · exact .inl hd
    · cases List.mem_singleton.mp hd
      exact .inr (h.ready _ List.mem_cons_self)

/-- A thread pauses. -/
theorem Accounts.turn {next : Script ε ρ}
    (h : Accounts jobs { r with ready := (n, .running (.turn next)) :: r.ready }) :
    Accounts jobs (r.advance n (.turn next)) := by
  obtain ⟨job, hj, hr⟩ := h.ready _ List.mem_cons_self
  refine h.moved rfl ?_ ?_ (fun _ => .inl) fun _ => .inl
  · have hp := (List.perm_append_singleton (n, Phase.running next) r.ready).map Prod.fst
    exact (hp.append_right _).append_right _
  · intro t ht
    rcases List.mem_append.mp ht with ht | ht
    · exact .inl (List.mem_cons_of_mem _ ht)
    · cases List.mem_singleton.mp ht
      exact .inr ⟨job, hj, hr.turn⟩

/-- The turn of a thread at the head of the ready ones keeps the accounts. -/
theorem Accounts.act {phase : Phase ε ρ}
    (h : Accounts jobs { r with ready := (n, phase) :: r.ready }) :
    Accounts jobs (r.act n phase) := by
  cases phase with
  | starting job => exact h.act_starting
  | granted job =>
      have hphase := h.ready _ List.mem_cons_self
      simp only [Run.act]
      split
      · rw [enter_grant]
        exact (h.enter hphase).grant
      · exact h.enter hphase
  | running rest =>
      cases rest with
      | finish x => exact h.finish
      | emit e next => exact h.emit
      | turn next => exact h.turn

theorem Accounts.step (h : Accounts jobs r) (i : Nat) : Accounts jobs (r.step i) := by
  rcases step_cases i r with he | ⟨n, phase, ready, hp, he⟩
  · rwa [he]
  · rw [he]
    exact Accounts.act (h.perm hp)

/-! ### The moments of a run -/

/-- The runs that a run passes through, whichever threads have the turns. -/
inductive Passes (r : Run ε ρ) : Run ε ρ → Prop
  | here : Passes r r
  | step {r' : Run ε ρ} (h : Passes r r') (i : Nat) : Passes r (r'.step i)

theorem Passes.trans {r' r'' : Run ε ρ} (h : r.Passes r') (h' : r'.Passes r'') : r.Passes r'' := by
  induction h' with
  | here => exact h
  | step _ i ih => exact ih.step i

/-- A run passes through its moments under any schedule. -/
theorem passes_drain (schedule : Schedule) (k : Nat) (r : Run ε ρ) :
    r.Passes (r.drain schedule k) := by
  induction k generalizing r with
  | zero => exact .here
  | succ k ih =>
      simp only [drain]
      split
      · exact .here
      · exact Passes.trans (.step .here _) (ih _)

theorem map_snd_zipIdx {α : Type} (l : List α) : l.zipIdx.map Prod.snd = List.range l.length := by
  rw [List.range_eq_range', List.zipIdx_map_snd]

theorem accounts_start (p : Pool) (jobs : List (Script ε ρ)) : Accounts jobs (start p jobs) := by
  refine ⟨.of_eq ?_, ?_, nofun, nofun, nofun⟩
  · have hz : ((jobs.zipIdx 0).map fun j => ((j.2, Phase.starting j.1) : Nat × Phase ε ρ)).map
        Prod.fst = List.range jobs.length := by
      rw [List.map_map]
      exact map_snd_zipIdx jobs
    simpa [Run.numbers, start, submit, idle] using hz
  · intro t ht
    obtain ⟨⟨job, n⟩, hj, rfl⟩ := List.mem_map.mp ht
    exact ⟨List.mk_mem_zipIdx_iff_getElem?.mp hj, rfl⟩

theorem Accounts.passes {r' : Run ε ρ} (h : Accounts jobs r) (hp : r.Passes r') :
    Accounts jobs r' := by
  induction hp with
  | here => exact h
  | step _ i ih => exact ih.step i

theorem Balanced.passes {limit held : Nat} {r' : Run ε ρ} (h : Balanced limit held r)
    (hp : r.Passes r') : Balanced limit held r' := by
  induction hp with
  | here => exact h
  | step _ i ih => exact ih.step i

/-- A job tells its events in its slot. -/
theorem inSlot_of_told_ne {i : Nat} (h : (r.step i).told n ≠ r.told n) :
    r.InSlot n ∧ (r.step i).InSlot n := by
  rcases step_cases i r with he | ⟨m, phase, ready, hp, he⟩
  · exact absurd (by rw [he]) h
  · rw [he] at h ⊢
    rcases trace_act m phase { r with ready := ready } with ht | ⟨e, next, rfl⟩
    · exact absurd (told_of_trace_eq ht n) h
    · by_cases hm : m = n
      · subst hm
        exact ⟨⟨_, hp.mem_iff.mp List.mem_cons_self⟩, next, List.mem_cons_self⟩
      · exact absurd (told_act_of_ne hm _ { r with ready := ready }) h

/-- A job that has begun and has not told everything is in its slot. -/
theorem Accounts.inSlot (h : Accounts jobs r) {job : Script ε ρ} (hj : jobs[n]? = some job)
    (hb : r.told n ≠ []) (hl : r.told n ≠ job.events) : r.InSlot n := by
  have hn : n ∈ r.numbers :=
    h.numbers.mem_iff.mpr (List.mem_range.mpr (List.getElem?_eq_some_iff.mp hj).1)
  rw [Run.numbers, List.mem_append, List.mem_append] at hn
  rcases hn with (hn | hn) | hn
  · obtain ⟨⟨m, phase⟩, hm, rfl⟩ := List.mem_map.mp hn
    cases phase with
    | starting job => exact absurd (h.ready _ hm).2 hb
    | granted job => exact absurd (h.ready _ hm).2 hb
    | running rest => exact ⟨rest, hm⟩
  · obtain ⟨w, hw, rfl⟩ := List.mem_map.mp hn
    exact absurd (h.waiting w hw).2 hb
  · obtain ⟨d, hd, rfl⟩ := List.mem_map.mp hn
    obtain ⟨job', hj', hr⟩ := h.done d hd
    cases hj.symm.trans hj'
    have he := hr.events
    rw [Script.events, List.append_nil] at he
    exact absurd he hl

/-- Whatever job is on its way has told a first part of its events. -/
theorem Accounts.events_of_inSlot (h : Accounts jobs r) (hs : r.InSlot n) {job : Script ε ρ}
    (hj : jobs[n]? = some job) : ∃ later, job.events = r.told n ++ later := by
  obtain ⟨rest, hm⟩ := hs
  obtain ⟨job', hj', hr⟩ := h.ready _ hm
  cases hj.symm.trans hj'
  exact ⟨rest.events, hr.events.symm⟩

/-- A job that pauses has told what it tells before one of its pauses. -/
theorem Accounts.atRest (h : Accounts jobs r) {P : List ε → Prop} {job rest : Script ε ρ}
    (hj : jobs[n]? = some job) (hP : job.AtRest P []) (hm : (n, .running (.turn rest)) ∈ r.ready) :
    P (r.told n) := by
  obtain ⟨job', hj', hr⟩ := h.ready _ hm
  cases hj.symm.trans hj'
  exact (hr.atRest hP).1

/-! ### The events of all jobs -/

/-- The events are those that the jobs have told. -/
theorem Accounts.events_perm (h : Accounts jobs r) :
    r.events.Perm ((List.range jobs.length).flatMap r.told) := by
  -- The induction is on the number of jobs whose events are taken out of the trace.
  have hk : ∀ k, ((r.trace.filter fun t => t.1 < k).map Prod.snd).Perm
      ((List.range k).flatMap r.told) := by
    intro k
    induction k with
    | zero => simp
    | succ k ih =>
        have hp := List.filter_append_perm (fun t => decide (t.1 < k))
          (r.trace.filter fun t => t.1 < k + 1)
        have hlt : ∀ t : Nat × ε, (t.1 < k ∧ t.1 < k + 1) = (t.1 < k) := by grind
        have heq : ∀ t : Nat × ε, (¬t.1 < k ∧ t.1 < k + 1) = (t.1 = k) := by grind
        simp only [List.filter_filter, ← Bool.decide_and, ← decide_not, hlt, heq] at hp
        rw [List.range_succ, List.flatMap_append, List.flatMap_singleton]
        refine (hp.symm.map Prod.snd).trans ?_
        rw [List.map_append]
        exact ih.append_right _
  have hall : (r.trace.filter fun t => t.1 < jobs.length) = r.trace :=
    List.filter_eq_self.mpr fun t ht => decide_eq_true (h.trace t ht)
  have hp := hk jobs.length
  rwa [hall] at hp

/-- Where there is more of one kind of event than of another one, one of the jobs has told more of
it. -/
theorem Accounts.exists_countP_lt (h : Accounts jobs r) {p q : ε → Bool}
    (hc : r.events.countP p < r.events.countP q) :
    ∃ n < jobs.length, (r.told n).countP p < (r.told n).countP q := by
  by_contra hn
  have hle : ∀ n ∈ List.range jobs.length, (r.told n).countP q ≤ (r.told n).countP p :=
    fun n hm => Nat.not_lt.mp fun hlt => hn ⟨n, List.mem_range.mp hm, hlt⟩
  rw [h.events_perm.countP_eq, h.events_perm.countP_eq, List.countP_flatMap,
    List.countP_flatMap] at hc
  exact absurd (List.sum_le_sum hle) (Nat.not_le.mpr hc)

end Run
end RouteScribe
