import RouteScribe.Proofs.Pool.Loop

/-! # The peak of a loop

The peak of a run whose jobs all pause follows from its beginning alone.  As long as a slot is free,
the threads ask for slots one after the other, and none of those that have entered has ended: it would
have to pause first, and then it stands behind all that still ask (`Filling`).  A turn keeps this, or
the peak has been reached (`Filling.turn`).  So in the end either all jobs were in slots at once or no
slot was free (`Loop.peak_eq`). -/

namespace RouteScribe

variable {ε ρ : Type}

/-- The job pauses before it ends. -/
def Script.Pauses : Script ε ρ → Prop
  | finish _ => False
  | emit _ next => next.Pauses
  | turn _ => True

namespace Run

variable {jobs : List (Script ε ρ)} {r r₀ : Run ε ρ} {i k limit held count : Nat}
  {ms : List (Mark ρ)}

/-- Threads are asking for slots, and nobody had to get in line or has ended. -/
structure Filling (count : Nat) (r : Run ε ρ) : Prop where
  waiting : r.waiting = []
  granted : ∀ t ∈ r.ready, t.2.isGranted = false
  asking : ∀ t ∈ r.ready, t.2.isStarting = true → t.2.script.Pauses
  /-- Whoever stands before a thread that asks pauses before it ends. -/
  before : r.ready.Pairwise fun t u => u.2.isStarting = true → t.2.script.Pauses
  count : r.active + (numbersIn Phase.isStarting r.ready).length = count

/-- A thread that asks for a free slot enters it. -/
theorem Filling.enter {n : Nat} {job : Script ε ρ} (h : Filling count r) (hj : job.Pauses) :
    Filling (count + 1) (r.enter n job) := by
  refine ⟨h.waiting, ?_, ?_, ?_, ?_⟩
  · exact List.forall_mem_cons.mpr ⟨rfl, h.granted⟩
  · exact List.forall_mem_cons.mpr ⟨nofun, h.asking⟩
  · exact List.pairwise_cons.mpr ⟨fun _ _ _ => hj, h.before⟩
  · have hcount := h.count
    simp only [Run.enter, numbersIn_cons, Phase.isStarting, Bool.false_eq_true, if_false,
      List.nil_append]
    omega

/-- A thread that pauses before it ends reports an event, or it pauses and stands behind the others. -/
theorem Filling.advance {n : Nat} {rest : Script ε ρ} (h : Filling count r) (hr : rest.Pauses) :
    Filling count (r.advance n rest) := by
  cases rest with
  | finish x => exact hr.elim
  | emit e next =>
      refine ⟨h.waiting, ?_, ?_, ?_, ?_⟩
      · exact List.forall_mem_cons.mpr ⟨rfl, h.granted⟩
      · exact List.forall_mem_cons.mpr ⟨nofun, h.asking⟩
      · exact List.pairwise_cons.mpr ⟨fun _ _ _ => hr, h.before⟩
      · simpa [Run.advance, Phase.isStarting] using h.count
  | turn next =>
      refine ⟨h.waiting, ?_, ?_, ?_, ?_⟩
      · exact List.forall_mem_append.mpr ⟨h.granted, List.forall_mem_singleton.mpr rfl⟩
      · exact List.forall_mem_append.mpr ⟨h.asking, List.forall_mem_singleton.mpr nofun⟩
      · refine List.pairwise_append.mpr ⟨h.before, List.pairwise_singleton _ _, ?_⟩
        intro t _
        exact List.forall_mem_singleton.mpr nofun
      · simpa [Run.advance, Phase.isStarting] using h.count

/-- The other threads when one has been taken out, with the free slots that are left for them. -/
theorem Filling.others {front back : List (Nat × Phase ε ρ)} {t : Nat × Phase ε ρ} {others : Nat}
    (h : Filling count r) (hready : r.ready = front ++ t :: back) (free : Nat)
    (ho : r.active + (numbersIn Phase.isStarting (front ++ back)).length = others) :
    Filling others { r with free, ready := front ++ back } := by
  have hsub : (front ++ back).Sublist r.ready := by
    rw [hready]
    exact (List.sublist_cons_self t back).append_left front
  exact ⟨h.waiting, fun u hu => h.granted u (hsub.subset hu), fun u hu => h.asking u (hsub.subset hu),
    h.before.sublist hsub, ho⟩

/-- A turn goes on with the filling, unless the peak has been reached. -/
theorem Filling.turn (h : Filling count r) (hb : Balanced limit held r) (hi : r.InTurn i) :
    min limit count ≤ r.peak ∨ Filling count (r.step i) := by
  obtain ⟨front, n, phase, back, hready, hfront, hstep⟩ := hi.cases
  have hmem : (n, phase) ∈ r.ready := by
    rw [hready]
    exact List.mem_append_right _ List.mem_cons_self
  have hcount := h.count
  have hactive := hb.active_le_peak
  rw [hstep]
  cases phase with
  | granted job => exact absurd (h.granted _ hmem) nofun
  | starting job =>
      rcases Nat.eq_zero_or_pos r.free with hf | hf
      · left
        have hpromised : promised r.ready = 0 := by
          rw [promised, List.countP_eq_zero]
          intro t ht
          rw [h.granted t ht]
          exact Bool.false_ne_true
        have hslots := hb.slots
        omega
      · right
        have hothers := h.others hready (r.free - 1) rfl
        have hnone : (front ++ back).any (fun t => t.2.isGranted) = false :=
          List.any_eq_false.mpr fun t ht => by simpa using hothers.granted t ht
        have hopen : ({ r with ready := front ++ back } : Run ε ρ).isOpen = true := by
          simp [isOpen, h.waiting, hf, hnone]
        have hone : r.active + (numbersIn Phase.isStarting (front ++ back)).length + 1 = count := by
          rw [← hcount, hready]
          simp only [numbersIn_append, numbersIn_cons, Phase.isStarting, if_true,
            List.length_append, List.length_singleton]
          omega
        rw [act, if_pos hopen, ← hone]
        exact hothers.enter (h.asking _ hmem rfl)
  | running rest =>
      by_cases hasks : ∃ t ∈ back, t.2.isStarting = true
      · right
        obtain ⟨t, ht, hstarts⟩ := hasks
        have hbefore := h.before
        rw [hready] at hbefore
        have hrest : rest.Pauses :=
          (List.pairwise_cons.mp (List.pairwise_append.mp hbefore).2.1).1 t ht hstarts
        have hsame : r.active + (numbersIn Phase.isStarting (front ++ back)).length = count := by
          rw [← hcount, hready]
          simp [Phase.isStarting]
        exact (h.others hready r.free hsame).advance hrest
      · -- Nobody asks any more: all jobs are in slots.
        left
        have hnone : numbersIn Phase.isStarting r.ready = [] := by
          apply numbersIn_eq_nil
          intro t ht
          rw [hready] at ht
          rcases List.mem_append.mp ht with ht | ht
          · exact Phase.isStarting_of_isRunning (hfront t ht)
          · rcases List.mem_cons.mp ht with rfl | ht
            · rfl
            · exact Bool.eq_false_iff.mpr fun hs => hasks ⟨t, ht, hs⟩
        rw [hnone, List.length_nil, Nat.add_zero] at hcount
        omega

/-! ### Whole runs -/

theorem peak_le_peak_step (h : r.active ≤ r.peak) (i : Nat) : r.peak ≤ (r.step i).peak := by
  rw [peak_step i h]
  exact Nat.le_max_left _ _

/-- The pool is being filled until its peak has been reached. -/
theorem Loop.full_or_filling (h : r₀.Loop k ms r) (hb : Balanced limit held r₀)
    (hf : Filling count r₀) : min limit count ≤ r.peak ∨ Filling count r := by
  induction h with
  | here => exact .inr hf
  | turn h hi ih =>
      have hbalanced := hb.passes h.passes
      rcases ih with hfull | hfilling
      · exact .inl (Nat.le_trans hfull (peak_le_peak_step hbalanced.active_le_peak _))
      · rcases hfilling.turn hbalanced hi with hfull | hfilling
        · exact .inl (Nat.le_trans hfull (peak_le_peak_step hbalanced.active_le_peak _))
        · exact .inr hfilling

theorem filling_start {p : Pool} (hj : ∀ job ∈ jobs, job.Pauses) :
    Filling (p.active + jobs.length) (start p jobs) := by
  have hready : ∀ t ∈ (start p jobs).ready, ∃ job ∈ jobs, t.2 = .starting job := by
    intro t ht
    obtain ⟨⟨job, n⟩, hm, rfl⟩ := List.mem_map.mp ht
    exact ⟨job, List.fst_mem_of_mem_zipIdx hm, rfl⟩
  have hpauses : ∀ t ∈ (start p jobs).ready, t.2.script.Pauses := by
    intro t ht
    obtain ⟨job, hmem, hphase⟩ := hready t ht
    rw [hphase]
    exact hj job hmem
  refine ⟨rfl, ?_, fun t ht _ => hpauses t ht, ?_, ?_⟩
  · intro t ht
    obtain ⟨job, -, hphase⟩ := hready t ht
    rw [hphase]
    rfl
  · exact List.pairwise_of_forall_mem_list fun t ht u _ _ => hpauses t ht
  · rw [(numbersIn_start p jobs).2, List.length_range]
    rfl

theorem Balanced.active_le (hb : Balanced limit held r) (ha : Accounts jobs r) :
    r.active ≤ held + jobs.length := by
  have hl := ha.numbers.length_eq
  have he : entered r.ready ≤ r.ready.length := List.countP_le_length
  simp only [numbers, List.length_append, List.length_map, List.length_range] at hl
  have hh := hb.active_eq
  omega

/-- No more slots are ever taken than there are jobs for. -/
theorem peak_le_of_passes {p : Pool} (hp : p.active ≤ p.limit) (h : (start p jobs).Passes r) :
    r.peak ≤ p.active + jobs.length := by
  have hb := (balanced_idle hp).submit 0 jobs
  have ha := accounts_start p jobs
  induction h with
  | here => exact Nat.le_add_right _ _
  | step h i ih =>
      rw [peak_step i (hb.passes h).active_le_peak]
      exact Nat.max_le.mpr ⟨ih, ((hb.passes h).step i).active_le ((ha.passes h).step i)⟩

/-- Jobs that pause take as many slots as there are, or as there are jobs for. -/
theorem Loop.peak_eq {p : Pool} (hp : p.active ≤ p.limit) (hj : ∀ job ∈ jobs, job.Pauses)
    (h : (start p jobs).Loop k ms r) (hr : r.ready = []) :
    r.peak = min p.limit (p.active + jobs.length) := by
  have hb := (balanced_idle hp).submit 0 jobs
  have hend := hb.passes h.passes
  refine Nat.le_antisymm (Nat.le_min.mpr ⟨hend.peak_le, peak_le_of_passes hp h.passes⟩) ?_
  rcases h.full_or_filling hb (filling_start hj) with hfull | hfilling
  · exact hfull
  · have hcount := hfilling.count
    rw [hr, numbersIn_nil, List.length_nil] at hcount
    have hactive := hend.active_le_peak
    omega

end Run
end RouteScribe
