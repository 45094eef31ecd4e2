import Mathlib.Data.List.Perm.Basic
import RouteScribe.Pool.Run

/-! # The slots of a running pool

`Run.Balanced limit held r` says that the counters of a run agree with its threads, when `held`
slots are taken outside of it: every slot of the pool is free, entered or handed to a thread that
has not entered it yet (`slots`), and nobody stands in line in vain (`line`).  It holds of an idle
pool (`balanced_idle`), new jobs do not disturb it (`Balanced.submit`) and every turn keeps it
(`Balanced.step`), so it holds of a settled run, in which all jobs have ended as long as a slot was
left for them (`Balanced.waiting_eq_nil`). -/

namespace RouteScribe
namespace Run

variable {ε ρ : Type} {limit held : Nat} {r : Run ε ρ}

/-- A step is the turn of one of the ready threads, or nothing where there is no such thread. -/
theorem step_cases (i : Nat) (r : Run ε ρ) :
    r.step i = r ∨ ∃ n phase ready, ((n, phase) :: ready).Perm r.ready ∧
      r.step i = act n { r with ready := ready } phase := by
  unfold step
  split
  · exact .inl rfl
  · next n phase ht =>
      obtain ⟨hi, he⟩ := List.getElem?_eq_some_iff.mp ht
      exact .inr ⟨n, phase, r.ready.eraseIdx i, he ▸ List.getElem_cons_eraseIdx_perm hi, rfl⟩

/-! ### Counting threads -/

/-- The number of threads that are in a slot. -/
def entered (ts : List (Nat × Phase ε ρ)) : Nat := ts.countP fun t => t.2.isRunning

/-- The number of threads that have been handed a slot and have not entered it yet. -/
def promised (ts : List (Nat × Phase ε ρ)) : Nat := ts.countP fun t => t.2.isGranted

@[simp] theorem entered_nil : entered ([] : List (Nat × Phase ε ρ)) = 0 := rfl

@[simp] theorem promised_nil : promised ([] : List (Nat × Phase ε ρ)) = 0 := rfl

@[simp] theorem entered_cons (t : Nat × Phase ε ρ) (ts : List (Nat × Phase ε ρ)) :
    entered (t :: ts) = t.2.isRunning.toNat + entered ts := by
  cases h : t.2.isRunning <;> simp [entered, h, Nat.add_comm]

@[simp] theorem promised_cons (t : Nat × Phase ε ρ) (ts : List (Nat × Phase ε ρ)) :
    promised (t :: ts) = t.2.isGranted.toNat + promised ts := by
  cases h : t.2.isGranted <;> simp [promised, h, Nat.add_comm]

@[simp] theorem entered_append (ts us : List (Nat × Phase ε ρ)) :
    entered (ts ++ us) = entered ts + entered us := List.countP_append

@[simp] theorem promised_append (ts us : List (Nat × Phase ε ρ)) :
    promised (ts ++ us) = promised ts + promised us := List.countP_append

theorem promised_pos_iff (ts : List (Nat × Phase ε ρ)) :
    0 < promised ts ↔ (ts.any fun t => t.2.isGranted) = true := by
  rw [promised, List.countP_pos_iff, List.any_eq_true]

/-! ### The balance -/

/-- The counters agree with the threads, `held` slots being taken outside of the run. -/
structure Balanced (limit held : Nat) (r : Run ε ρ) : Prop where
  active_eq : r.active = held + entered r.ready
  slots : r.free + r.active + promised r.ready = limit
  line : r.waiting = [] ∨ r.free = 0 ∨ 0 < promised r.ready
  active_le_peak : r.active ≤ r.peak
  peak_le : r.peak ≤ limit

theorem Balanced.perm (h : Balanced limit held r) {ready : List (Nat × Phase ε ρ)}
    (hp : ready.Perm r.ready) : Balanced limit held { r with ready := ready } := by
  have he : entered ready = entered r.ready := hp.countP_eq _
  have hg : promised ready = promised r.ready := hp.countP_eq _
  exact ⟨he ▸ h.active_eq, hg ▸ h.slots, hg ▸ h.line, h.active_le_peak, h.peak_le⟩

/-- Handing out a free slot restores the line, whatever it was before. -/
theorem Balanced.grant (ha : r.active = held + entered r.ready)
    (hs : r.free + r.active + promised r.ready = limit) (hf : 0 < r.free)
    (hap : r.active ≤ r.peak) (hp : r.peak ≤ limit) : Balanced limit held r.grant := by
  unfold Run.grant
  split
  · next hw => exact ⟨ha, hs, .inl hw, hap, hp⟩
  · next n job rest hw =>
      refine ⟨?_, ?_, .inr (.inr ?_), hap, hp⟩
      · simpa using ha
      · simp
        omega
      · simp

/-- It does not matter whether a thread enters its slot before or after it hands on a free one. -/
theorem enter_grant (n : Nat) (job : Script ε ρ) (r : Run ε ρ) :
    r.grant.enter n job = (r.enter n job).grant := by
  cases hw : r.waiting with
  | nil => simp [Run.grant, Run.enter, hw]
  | cons w rest => simp [Run.grant, Run.enter, hw]

theorem Balanced.enter {n : Nat} {job : Script ε ρ} (ha : r.active = held + entered r.ready)
    (hs : r.free + r.active + promised r.ready + 1 = limit)
    (hl : r.waiting = [] ∨ r.free = 0 ∨ 0 < promised r.ready) (hp : r.peak ≤ limit) :
    Balanced limit held (r.enter n job) := by
  refine ⟨?_, ?_, ?_, Nat.le_max_right _ _, Nat.max_le.mpr ⟨hp, ?_⟩⟩
  · simp [Run.enter]
    omega
  · simp [Run.enter]
    omega
  · simpa [Run.enter] using hl
  · omega

/-- A thread that asks for a slot enters it only if nobody is passed over. -/
theorem Balanced.act_starting {n : Nat} {job : Script ε ρ}
    (h : Balanced limit held { r with ready := (n, .starting job) :: r.ready }) :
    Balanced limit held (r.act n (.starting job)) := by
  obtain ⟨ha, hs, hl, hap, hp⟩ := h
  simp only [entered_cons, promised_cons, Phase.isRunning_starting, Phase.isGranted_starting,
    Bool.toNat_false, Nat.zero_add] at ha hs hl
  simp only [Run.act]
  split
  · next ho =>
      simp only [isOpen, Bool.and_eq_true, decide_eq_true_eq, List.isEmpty_iff] at ho
      obtain ⟨⟨hf, hw⟩, -⟩ := ho
      exact Balanced.enter ha (by dsimp only; omega) (.inl hw) hp
  · next ho =>
      refine ⟨ha, hs, .inr ?_, hap, hp⟩
      rw [promised_pos_iff]
      rcases hl with hw | hl
      · simp only [isOpen, hw, List.isEmpty_nil, Bool.and_true, Bool.and_eq_true,
          decide_eq_true_eq, Bool.not_eq_true', not_and, Bool.not_eq_false] at ho
        rcases Nat.eq_zero_or_pos r.free with hf | hf
        · exact .inl hf
        · exact .inr (ho hf)
      · rwa [promised_pos_iff] at hl

/-- A thread enters the slot that it was handed. -/
theorem Balanced.act_granted {n : Nat} {job : Script ε ρ}
    (h : Balanced limit held { r with ready := (n, .granted job) :: r.ready }) :
    Balanced limit held (r.act n (.granted job)) := by
  obtain ⟨ha, hs, hl, hap, hp⟩ := h
  simp only [entered_cons, promised_cons, Phase.isRunning_granted, Phase.isGranted_granted,
    Bool.toNat_false, Bool.toNat_true, Nat.zero_add] at ha hs hl
  simp only [Run.act]
  split
  · next hf =>
      -- The line may be out of order until the free slot has been handed on.
      rw [enter_grant]
      refine Balanced.grant ?_ ?_ hf (Nat.le_max_right _ _) (Nat.max_le.mpr ⟨hp, ?_⟩)
      · simp [Run.enter]
        omega
      · simp [Run.enter]
        omega
      · omega
  · next hf => exact Balanced.enter ha (by omega) (.inr (.inl (by omega))) hp

/-- A thread keeps its slot until it ends. -/
theorem Balanced.advance {n : Nat} {rest : Script ε ρ}
    (h : Balanced limit held { r with ready := (n, .running rest) :: r.ready }) :
    Balanced limit held (r.advance n rest) := by
  obtain ⟨ha, hs, hl, hap, hp⟩ := h
  simp only [entered_cons, promised_cons, Phase.isRunning_running, Phase.isGranted_running,
    Bool.toNat_false, Bool.toNat_true, Nat.zero_add] at ha hs hl hap
  cases rest with
  | finish result =>
      refine Balanced.grant ?_ ?_ (Nat.succ_pos _) ?_ hp
      all_goals dsimp only
      all_goals omega
  | emit event next =>
      refine ⟨?_, ?_, ?_, hap, hp⟩
      · simpa [Run.advance] using ha
      · simpa [Run.advance] using hs
      · simpa [Run.advance] using hl
  | turn next =>
      refine ⟨?_, ?_, ?_, hap, hp⟩
      · simpa [Run.advance, Nat.add_comm] using ha
      · simpa [Run.advance] using hs
      · simpa [Run.advance] using hl

/-- The turn of a thread at the head of the ready ones keeps the balance. -/
theorem Balanced.act {n : Nat} {phase : Phase ε ρ}
    (h : Balanced limit held { r with ready := (n, phase) :: r.ready }) :
    Balanced limit held (r.act n phase) := by
  cases phase with
  | starting job => exact h.act_starting
  | granted job => exact h.act_granted
  | running rest => exact h.advance

theorem Balanced.step (h : Balanced limit held r) (i : Nat) : Balanced limit held (r.step i) := by
  rcases step_cases i r with he | ⟨n, phase, ready, hp, he⟩
  · rwa [he]
  · rw [he]
    exact Balanced.act (h.perm hp)

theorem Balanced.drain (h : Balanced limit held r) (schedule : Schedule) (k : Nat) :
    Balanced limit held (r.drain schedule k) := by
  induction k generalizing r with
  | zero => exact h
  | succ k ih =>
      simp only [Run.drain]
      split
      · exact h
      · exact ih (h.step _)

/-- A settled run is in balance. -/
theorem Balanced.settle (h : Balanced limit held r) (schedule : Schedule) :
    Balanced limit held (r.settle schedule) := h.drain schedule _

theorem Balanced.submit (h : Balanced limit held r) (first : Nat) (jobs : List (Script ε ρ)) :
    Balanced limit held (r.submit first jobs) := by
  have hz : ∀ (js : List (Script ε ρ × Nat)),
      entered (js.map fun j => (j.2, Phase.starting j.1)) = 0 ∧
        promised (js.map fun j => (j.2, Phase.starting j.1)) = 0 := by
    intro js
    induction js with
    | nil => simp
    | cons j js ih => simpa using ih
  obtain ⟨he, hg⟩ := hz (jobs.zipIdx first)
  refine ⟨?_, ?_, ?_, h.active_le_peak, h.peak_le⟩
  · simpa [Run.submit, he] using h.active_eq
  · simpa [Run.submit, hg] using h.slots
  · simpa [Run.submit, hg] using h.line

theorem balanced_idle {p : Pool} (h : p.active ≤ p.limit) :
    Balanced p.limit p.active (idle p : Run ε ρ) :=
  ⟨rfl, by simp [idle]; omega, .inl rfl, Nat.le_refl _, h⟩

/-! ### The peak -/

@[simp] theorem active_grant (r : Run ε ρ) : r.grant.active = r.active := by
  unfold Run.grant
  split <;> rfl

@[simp] theorem peak_grant (r : Run ε ρ) : r.grant.peak = r.peak := by
  unfold Run.grant
  split <;> rfl

theorem peak_act (n : Nat) (phase : Phase ε ρ) (h : r.active ≤ r.peak) :
    (r.act n phase).peak = max r.peak (r.act n phase).active := by
  cases phase with
  | starting job =>
      simp only [Run.act]
      split
      · rfl
      · exact (Nat.max_eq_left h).symm
  | granted job =>
      simp only [Run.act]
      split <;> simp [Run.enter]
  | running rest =>
      cases rest with
      | finish result =>
          simp only [Run.act, advance, leave, active_grant, peak_grant]
          omega
      | emit event next => exact (Nat.max_eq_left h).symm
      | turn next => exact (Nat.max_eq_left h).symm

/-- A turn raises the peak exactly to the slots that are entered, where these pass it. -/
theorem peak_step (i : Nat) (h : r.active ≤ r.peak) :
    (r.step i).peak = max r.peak (r.step i).active := by
  rcases step_cases i r with he | ⟨n, phase, ready, -, he⟩
  · rw [he, Nat.max_eq_left h]
  · rw [he]
    exact peak_act n phase h

/-! ### Settled runs -/

/-- When no thread is ready and a slot is left, nobody waits for one. -/
theorem Balanced.waiting_eq_nil (h : Balanced limit held r) (hr : r.ready = []) (hh : held < limit) :
    r.waiting = [] := by
  have ha := h.active_eq
  have hs := h.slots
  have hl := h.line
  simp only [hr, entered_nil, promised_nil] at ha hs hl
  rcases hl with hl | hl | hl
  · exact hl
  · omega
  · omega

theorem Balanced.active_of_ready_nil (h : Balanced limit held r) (hr : r.ready = []) :
    r.active = held := by
  simpa [hr] using h.active_eq

end Run
end RouteScribe
