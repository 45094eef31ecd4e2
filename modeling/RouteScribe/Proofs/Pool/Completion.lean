import Mathlib.Data.List.Nodup
import RouteScribe.Proofs.Pool.Fair

/-! # What running jobs in a pool comes to

While a slot is left for its jobs, a pool is never stuck: where no thread is ready, nobody stands in
line either, so all jobs have ended (`done_of_ready_nil`).  The outcome of a run is read off the jobs
that have ended, in the order in which they have: it is the first failure in time
(`failure?_eq_some_iff`), or the values in the order of the jobs (`outcome_eq_ok`).

`Pool.completes` puts this together for all runs of an event loop. -/

namespace RouteScribe
namespace Run

variable {ε ρ β α : Type} {jobs : List (Script ε ρ)} {n : Nat}

/-! ### Ended jobs -/

section ended

variable {r : Run ε ρ}

/-- The results of jobs, with the numbers of the jobs. -/
def ownResults (jobs : List (Script ε ρ)) : List (Nat × ρ) :=
  jobs.zipIdx.map fun j => (j.2, j.1.result)

theorem mem_ownResults {x : ρ} :
    (n, x) ∈ ownResults jobs ↔ ∃ job, jobs[n]? = some job ∧ job.result = x := by
  simp only [ownResults, List.mem_map, Prod.mk.injEq]
  constructor
  · rintro ⟨⟨job, m⟩, hj, rfl, rfl⟩
    exact ⟨job, List.mk_mem_zipIdx_iff_getElem?.mp hj, rfl⟩
  · rintro ⟨job, hj, rfl⟩
    exact ⟨(job, n), List.mk_mem_zipIdx_iff_getElem?.mpr hj, rfl, rfl⟩

theorem map_fst_ownResults (jobs : List (Script ε ρ)) :
    (ownResults jobs).map Prod.fst = List.range jobs.length := by
  rw [ownResults, List.map_map]
  exact map_snd_zipIdx jobs

theorem nodup_ownResults (jobs : List (Script ε ρ)) : ((ownResults jobs).map Prod.fst).Nodup :=
  map_fst_ownResults jobs ▸ List.nodup_range

/-- Where nothing is ready or in line, every job has ended once, with its own result. -/
theorem Accounts.done_perm (ha : Accounts jobs r) (hr : r.ready = []) (hw : r.waiting = []) :
    r.done.Perm (ownResults jobs) := by
  have hnumbers : (r.done.map Prod.fst).Perm (List.range jobs.length) := by
    have hperm := ha.numbers
    rwa [Run.numbers, hr, hw] at hperm
  have hends : ∀ d ∈ r.done, ∃ job, jobs[d.1]? = some job ∧ job.result = d.2 := by
    intro d hd
    obtain ⟨job, hj, hreach⟩ := ha.done d hd
    exact ⟨job, hj, hreach.result.symm⟩
  rw [List.perm_ext_iff_of_nodup
    (List.Nodup.of_map Prod.fst (hnumbers.nodup_iff.mpr List.nodup_range))
    (List.Nodup.of_map Prod.fst (nodup_ownResults jobs))]
  rintro ⟨n, x⟩
  rw [mem_ownResults]
  constructor
  · exact fun hd => hends _ hd
  · rintro ⟨job, hj, rfl⟩
    have hmem : n ∈ r.done.map Prod.fst :=
      hnumbers.mem_iff.mpr (List.mem_range.mpr (List.getElem?_eq_some_iff.mp hj).1)
    obtain ⟨⟨m, y⟩, hd, rfl⟩ := List.mem_map.mp hmem
    obtain ⟨job', hj', hy⟩ := hends _ hd
    cases hj.symm.trans hj'
    exact hy ▸ hd

end ended

/-! ### The outcome -/

section outcome

variable {r : Run ε (Except β α)}

/-- The failure of a run is the first one in time. -/
theorem failure?_eq_some_iff {e : β} :
    r.failure? = some e ↔ ∃ before n after, r.done = before ++ (n, .error e) :: after ∧
      ∀ d ∈ before, ∃ a, d.2 = .ok a := by
  rw [failure?, List.findSome?_eq_some_iff]
  constructor
  · rintro ⟨before, ⟨n, x⟩, after, hdone, hx, hbefore⟩
    cases x with
    | ok a => cases hx
    | error e' =>
        cases hx
        refine ⟨before, n, after, hdone, ?_⟩
        rintro ⟨m, y⟩ hd
        cases y with
        | ok a => exact ⟨a, rfl⟩
        | error e' => exact absurd (hbefore _ hd) nofun
  · rintro ⟨before, n, after, hdone, hbefore⟩
    refine ⟨before, (n, .error e), after, hdone, rfl, ?_⟩
    intro d hd
    obtain ⟨a, ha⟩ := hbefore d hd
    rw [ha]

theorem failure?_eq_none_iff : r.failure? = none ↔ ∀ d ∈ r.done, ∃ a, d.2 = .ok a := by
  rw [failure?, List.findSome?_eq_none_iff]
  constructor
  · rintro h ⟨m, y⟩ hd
    cases y with
    | ok a => exact ⟨a, rfl⟩
    | error e => exact absurd (h _ hd) nofun
  · intro h d hd
    obtain ⟨a, ha⟩ := h d hd
    rw [ha]

/-- Where a number stands for one job only, its value is found. -/
theorem value?_eq_some {a : α} (hd : (r.done.map Prod.fst).Nodup) (h : (n, .ok a) ∈ r.done) :
    r.value? n = some a := by
  cases hv : r.value? n with
  | none =>
      have hnone := List.findSome?_eq_none_iff.mp hv _ h
      simp at hnone
  | some b =>
      obtain ⟨⟨m, y⟩, hm, hy⟩ := List.exists_of_findSome?_eq_some hv
      cases y with
      | error e => cases hy
      | ok c =>
          dsimp only at hy
          split at hy
          · next heq =>
              cases hy
              have hsame := List.inj_on_of_nodup_map hd hm h heq
              cases hsame
              rfl
          · cases hy

theorem filterMap_range_getElem? (l : List α) (n : Nat) :
    ((List.range n).filterMap fun i => l[i]?) = l.take n := by
  induction n with
  | zero => rfl
  | succ n ih =>
      rw [List.range_succ, List.filterMap_append, ih, List.take_add_one]
      cases hget : l[n]? <;> simp [hget]

variable {jobs : List (Script ε (Except β α))} {values : List α}

/-- If no job fails, the outcome is the values in the order of the jobs. -/
theorem outcome_eq_ok (hp : r.done.Perm (ownResults jobs))
    (hv : jobs.map Script.result = values.map .ok) : r.outcome jobs.length = .ok values := by
  have hlength : jobs.length = values.length := by simpa using congrArg List.length hv
  have hget : ∀ n : Nat, jobs[n]?.map Script.result = values[n]?.map Except.ok := by
    intro n
    rw [← List.getElem?_map, ← List.getElem?_map, hv]
  have hdistinct : (r.done.map Prod.fst).Nodup :=
    (hp.map Prod.fst).nodup_iff.mpr (nodup_ownResults jobs)
  have hvalue : ∀ n < jobs.length, r.value? n = values[n]? := by
    intro n hn
    have hsome := List.getElem?_eq_getElem (hlength ▸ hn)
    rw [hsome]
    apply value?_eq_some hdistinct
    rw [hp.mem_iff, mem_ownResults]
    have hjob := hget n
    rw [hsome] at hjob
    exact Option.map_eq_some_iff.mp hjob
  have hnone : r.failure? = none := by
    rw [failure?_eq_none_iff]
    rintro ⟨n, x⟩ hd
    obtain ⟨job, hj, rfl⟩ := mem_ownResults.mp (hp.mem_iff.mp hd)
    have hjob := hget n
    rw [hj] at hjob
    obtain ⟨a, -, ha⟩ := Option.map_eq_some_iff.mp hjob.symm
    exact ⟨a, ha.symm⟩
  have hvalues : (List.range jobs.length).filterMap r.value? = values := by
    have hcongr : (List.range jobs.length).filterMap r.value? =
        (List.range jobs.length).filterMap fun i => values[i]? :=
      List.filterMap_congr fun n hn => hvalue n (List.mem_range.mp hn)
    rw [hcongr, filterMap_range_getElem?, hlength, List.take_length]
  rw [outcome, hnone, hvalues]

/-- If a job fails, the outcome is the first failure in time. -/
theorem exists_first_failure (hp : r.done.Perm (ownResults jobs))
    (h : ∃ job ∈ jobs, ∃ e, job.result = .error e) :
    ∃ before n e after, r.done = before ++ (n, .error e) :: after ∧
      (∀ d ∈ before, ∃ a, d.2 = .ok a) ∧ r.outcome jobs.length = .error e := by
  cases hfailure : r.failure? with
  | none =>
      obtain ⟨job, hj, e, he⟩ := h
      obtain ⟨n, hn⟩ := List.mem_iff_getElem?.mp hj
      have hd : (n, .error e) ∈ r.done := hp.mem_iff.mpr (mem_ownResults.mpr ⟨job, hn, he⟩)
      obtain ⟨a, ha⟩ := failure?_eq_none_iff.mp hfailure _ hd
      cases ha
  | some e =>
      obtain ⟨before, n, after, hdone, hbefore⟩ := failure?_eq_some_iff.mp hfailure
      exact ⟨before, n, e, after, hdone, hbefore, by rw [outcome, hfailure]⟩

/-- A failure that there is stays the failure of the run. -/
theorem failure?_of_prefix {r' : Run ε (Except β α)} (h : r.done <+: r'.done) {e : β}
    (he : r.failure? = some e) : r'.failure? = some e := by
  obtain ⟨later, hlater⟩ := h
  obtain ⟨before, n, after, hdone, hbefore⟩ := failure?_eq_some_iff.mp he
  rw [failure?_eq_some_iff]
  refine ⟨before, n, after ++ later, ?_, hbefore⟩
  rw [← hlater, hdone, List.append_assoc, List.cons_append]

end outcome

/-! ### Runs of an event loop -/

/-- What has happened when no thread is ready any more. -/
structure Settled (p : Pool) (jobs : List (Script ε (Except β α))) (ms : List (Mark (Except β α)))
    (r : Run ε (Except β α)) : Prop where
  /-- Every job has begun once, in the order of the jobs. -/
  begun : begun ms = List.range jobs.length
  /-- Every job has ended once, with its own result, -/
  ended : (ended ms).Perm (ownResults jobs)
  /-- and it has reported all its events. -/
  told : ∀ n job, jobs[n]? = some job → r.told n = job.events
  /-- All slots have been given back. -/
  active : r.active = p.active
  /-- If no job fails, the outcome is the values in the order of the jobs. -/
  returns : ∀ values, jobs.map Script.result = values.map .ok → r.outcome jobs.length = .ok values
  /-- If jobs fail, it is the failure of the first one in time. -/
  raises : (∃ job ∈ jobs, ∃ e, job.result = .error e) →
    ∃ before n e after, Run.ended ms = before ++ (n, .error e) :: after ∧
      (∀ d ∈ before, ∃ a, d.2 = .ok a) ∧ r.outcome jobs.length = .error e
  /-- Jobs that all pause bring the pool to its limit, or are in slots all at once. -/
  peak : (∀ job ∈ jobs, job.Pauses) →
    (r.poolAfter p).peak = max p.peak (min p.limit (p.active + jobs.length))

/-- What running jobs comes to, however long they pause. -/
structure Completes (p : Pool) (jobs : List (Script ε (Except β α))) : Prop where
  /-- While a job has not ended, a turn is possible. -/
  unstuck : ∀ k ms r, (start p jobs).Loop k ms r →
    (∃ n < jobs.length, n ∉ (ended ms).map Prod.fst) → ∃ i, r.InTurn i
  /-- There is a bound for the turns. -/
  ends : ∀ k ms r, (start p jobs).Loop k ms r → k ≤ (start p jobs).work
  /-- At any time, the jobs that have begun are the first ones, in their order. -/
  inOrder : ∀ k ms r, (start p jobs).Loop k ms r → begun ms <+: List.range jobs.length
  /-- Once a job has failed, its failure stays the one of the run, whatever the others do. -/
  decided : ∀ k ms r, (start p jobs).Loop k ms r → ∀ e, r.failure? = some e →
    ∀ k' ms' r', r.Loop k' ms' r' → r'.failure? = some e
  settled : ∀ k ms r, (start p jobs).Loop k ms r → r.ready = [] → Settled p jobs ms r
  /-- The run of a pool is one of these runs. -/
  runs : ∃ k ms, (start p jobs).Loop k ms (p.run jobs).2.1 ∧ (p.run jobs).2.1.ready = []

section runs

variable {p : Pool} {jobs : List (Script ε (Except β α))} {ms : List (Mark (Except β α))}
  {r : Run ε (Except β α)} {k : Nat}

theorem settled_of_ready_nil (hp : p.active < p.limit) (h : (start p jobs).Loop k ms r)
    (hr : r.ready = []) : Settled p jobs ms r := by
  have hbalanced := ((balanced_idle (Nat.le_of_lt hp)).submit 0 jobs).passes h.passes
  have haccounts := (accounts_start p jobs).passes h.passes
  have hwaiting := hbalanced.waiting_eq_nil hr hp
  have hperm := haccounts.done_perm hr hwaiting
  have hended : ended ms = r.done := by
    rw [h.done_eq]
    rfl
  refine ⟨?_, hended ▸ hperm, ?_, hbalanced.active_of_ready_nil hr,
    fun values => outcome_eq_ok hperm, ?_, ?_⟩
  · have hqueue := h.begun_append_queue (accounts_start p jobs)
    have hempty : r.queue = [] := by
      rw [queue, hr, hwaiting]
      rfl
    rwa [hempty, List.append_nil, queue_start] at hqueue
  · intro n job hj
    have hmem : (n, job.result) ∈ r.done := hperm.mem_iff.mpr (mem_ownResults.mpr ⟨job, hj, rfl⟩)
    obtain ⟨job', hj', hreach⟩ := haccounts.done _ hmem
    cases hj.symm.trans hj'
    have hevents := hreach.events
    rwa [Script.events, List.append_nil] at hevents
  · rw [hended]
    exact exists_first_failure hperm
  · intro hpauses
    exact congrArg (max p.peak) (h.peak_eq (Nat.le_of_lt hp) hpauses hr)

end runs

end Run

open Run in
/-- **Jobs in a pool come to their ends.**  While a slot is left for the jobs, no run of an event loop
is ever stuck, and none goes on for ever.  The jobs begin in their order, and each of them runs to its
own end, also when others fail. -/
theorem Pool.completes {ε β α : Type} {p : Pool} (hp : p.active < p.limit)
    (jobs : List (Script ε (Except β α))) : Completes p jobs where
  unstuck := by
    rintro k ms r h ⟨n, hn, hunfinished⟩
    refine ⟨0, inTurn_zero ?_⟩
    intro hr
    have hnumbers := (settled_of_ready_nil hp h hr).ended.map Prod.fst
    rw [map_fst_ownResults] at hnumbers
    exact hunfinished (hnumbers.mem_iff.mpr (List.mem_range.mpr hn))
  ends := by
    intro k ms r h
    exact Nat.le_trans (Nat.le_add_right k r.work) h.turns_le
  inOrder := by
    intro k ms r h
    have hqueue := h.begun_append_queue (accounts_start p jobs)
    rw [queue_start] at hqueue
    exact ⟨_, hqueue⟩
  decided := by
    intro k ms r _ e he k' ms' r' h'
    exact failure?_of_prefix ⟨_, h'.done_eq.symm⟩ he
  settled := fun k ms r h hr => settled_of_ready_nil hp h hr
  runs := by
    obtain ⟨k, ms, h⟩ := exists_loop_settle (start p jobs)
    exact ⟨k, ms, h, ready_settle .fair _⟩

open Run in
/-- Three jobs and two slots for them.  The second job fails first, and the third one, which gets its
slot, fails as well. -/
theorem Pool.completes_two_failures :
    let p : Pool := ⟨3, 1, 1, by decide⟩
    let jobs : List (Script Unit (Except Nat Nat)) :=
      [.turn (.turn (.finish (.ok 0))), .turn (.finish (.error 1)), .turn (.finish (.error 2))]
    p.active < p.limit ∧ Completes p jobs ∧ (p.run jobs).1 = .error 1 ∧
      (p.run jobs).2.1.done = [(1, .error 1), (0, .ok 0), (2, .error 2)] ∧
      (p.run jobs).2.2.peak = 3 := by
  intro p jobs
  have hp : p.active < p.limit := by decide
  exact ⟨hp, Pool.completes hp jobs, by decide +kernel, by decide +kernel, by decide +kernel⟩

end RouteScribe
