import Mathlib.Data.List.Count
import Mathlib.Data.List.Dedup
import RouteScribe.Proofs.Pool.Fair
import RouteScribe.Proofs.Survey.Faithful
import RouteScribe.Proofs.Survey.Timing

/-! # The slots of a survey

`SlotsKept` says of a moment of a survey that the accesses in flight belong to no more files than the
pool has slots, that each file does everything in its slot and keeps it until all its accesses have
ended, that the slot then goes on to the next file in line, and that a file that waits has begun none
of its calls or all of them.  `slots_kept` proves it of every moment of every survey, with any times
and whichever files have the turns, and says what the peak of a fair survey is.

An access is in flight because some place of the list has begun it and has not ended it
(`Run.Accounts.exists_countP_lt`); such a place has told something and not everything, so it is in
a slot (`Run.Accounts.inSlot`), and of those there are no more than the pool allows
(`Run.Balanced`). -/

namespace RouteScribe
namespace Survey

open Access (begun ended inFlight)

/-- What holds at a moment of a survey of claimed files, in a pool of so many slots. -/
structure SlotsKept (s : Setting) (claimed : List (List Char)) (limit : Nat)
    (r : Run SurveyEvent (Except FileFault Unit)) : Prop where
  /-- The pool counts the files in slots, and they are not more than its limit. -/
  counted : r.active = Run.entered r.ready ∧ r.active ≤ limit
  /-- A slot that is given back goes on to the next file: a file is in line only while no slot is free
  or one has been handed to a file that has not entered it yet. -/
  refilled : r.free + r.active + Run.promised r.ready = limit ∧
    (r.waiting = [] ∨ r.free = 0 ∨ 0 < Run.promised r.ready)
  /-- The accesses in flight do not belong to more files than there are slots. -/
  few : ((inFlight r.events).map Access.file).dedup.length ≤ limit
  /-- What a file does in the next turn, it does in its slot. -/
  inside : ∀ i n, (r.step i).told n ≠ r.told n → r.InSlot n ∧ (r.step i).InSlot n
  /-- A file that has been opened keeps its slot until all its accesses have ended. -/
  keeps : ∀ n file, claimed[n]? = some file → .read file ∈ begun (r.told n) →
    (∃ a ∈ accesses s file, a ∉ ended (r.told n)) → r.InSlot n
  /-- A file that waits has begun none of its calls, or all of them. -/
  together : ∀ n file rest, claimed[n]? = some file → (n, .running (.turn rest)) ∈ r.ready →
    AllOrNone s file (r.told n)

variable {s : Setting} {τ : Timing} {claimed : List (List Char)} {file : List Char} {n : Nat}
  {r : Run SurveyEvent (Except FileFault Unit)}

/-! ### A single file -/

theorem begun_timedScript_perm (total i : Nat) :
    (begun (timedScript s τ total i file).events).Perm (accesses s file) :=
  begun_slowScript_perm

theorem ended_timedScript_perm (total i : Nat) :
    (ended (timedScript s τ total i file).events).Perm (accesses s file) :=
  ended_slowScript_perm

theorem atRest_timedScript (total i : Nat) :
    (timedScript s τ total i file).AtRest (AllOrNone s file) [] := by
  have hs : AllOrNone { s with describer := τ.describer i } file = AllOrNone s file := rfl
  rw [← hs, timedScript]
  exact atRest_slowScript

/-- A file with an access that is begun more often than it is ended is in its slot, and the access
is one of its own. -/
theorem inSlot_of_count_lt (ha : r.Accounts (timedScripts s τ claimed))
    (hf : claimed[n]? = some file) {a : Access}
    (hc : (ended (r.told n)).count a < (begun (r.told n)).count a) :
    r.InSlot n ∧ a.file = file := by
  have hj := timedScripts_get? s τ hf
  have hmem : a ∈ begun (r.told n) := List.count_pos_iff.mp (Nat.zero_lt_of_lt hc)
  have hin : r.InSlot n := by
    refine ha.inSlot hj ?_ ?_
    · intro h
      rw [h] at hmem
      exact List.not_mem_nil hmem
    · intro h
      rw [h, (begun_timedScript_perm _ _).count_eq, (ended_timedScript_perm _ _).count_eq] at hc
      exact Nat.lt_irrefl _ hc
  refine ⟨hin, ?_⟩
  obtain ⟨later, he⟩ := ha.events_of_inSlot hin hj
  have hb : begun (timedScript s τ claimed.length n file).events =
      begun (r.told n) ++ begun later := by
    rw [he, begun, List.filterMap_append]
    rfl
  exact file_of_mem_accesses ((begun_timedScript_perm _ _).mem_iff.mp
    (hb ▸ List.mem_append_left _ hmem))

/-- An access that is in flight belongs to a file in its slot. -/
theorem exists_inSlot (ha : r.Accounts (timedScripts s τ claimed)) {a : Access}
    (h : a ∈ inFlight r.events) : ∃ n, claimed[n]? = some a.file ∧ r.InSlot n := by
  have hc : (ended r.events).count a < (begun r.events).count a := by
    have hpos := List.count_pos_iff.mpr h
    rw [inFlight, List.count_diff] at hpos
    omega
  simp only [begun, ended, List.count_filterMap] at hc
  obtain ⟨n, hn, hlt⟩ := ha.exists_countP_lt hc
  rw [length_timedScripts] at hn
  have hf := List.getElem?_eq_getElem hn
  obtain ⟨hin, hfile⟩ := inSlot_of_count_lt ha hf (a := a)
    (by simpa only [begun, ended, List.count_filterMap] using hlt)
  exact ⟨n, hfile ▸ hf, hin⟩

/-! ### All files -/

/-- The files in slots. -/
def slotFiles (claimed : List (List Char)) (r : Run SurveyEvent (Except FileFault Unit)) :
    List (List Char) :=
  (r.ready.filter fun t => t.2.isRunning).filterMap fun t => claimed[t.1]?

theorem length_slotFiles_le (claimed : List (List Char)) :
    (slotFiles claimed r).length ≤ Run.entered r.ready := by
  rw [Run.entered, List.countP_eq_length_filter]
  exact List.length_filterMap_le _ _

theorem file_mem_slotFiles (ha : r.Accounts (timedScripts s τ claimed)) {a : Access}
    (h : a ∈ inFlight r.events) : a.file ∈ slotFiles claimed r := by
  obtain ⟨n, hf, rest, hm⟩ := exists_inSlot ha h
  exact List.mem_filterMap.mpr ⟨_, List.mem_filter.mpr ⟨hm, rfl⟩, hf⟩

theorem SlotsKept.of_accounts {limit : Nat} (ha : r.Accounts (timedScripts s τ claimed))
    (hb : r.Balanced limit 0) : SlotsKept s claimed limit r := by
  have hcount : r.active = Run.entered r.ready := by rw [hb.active_eq, Nat.zero_add]
  have hlimit : r.active ≤ limit := Nat.le_trans hb.active_le_peak hb.peak_le
  refine ⟨⟨hcount, hlimit⟩, ⟨hb.slots, hb.line⟩, ?_, fun _ _ => Run.inSlot_of_told_ne, ?_, ?_⟩
  · have hsub : ((inFlight r.events).map Access.file).dedup ⊆ slotFiles claimed r := by
      intro file hfile
      obtain ⟨a, hm, rfl⟩ := List.mem_map.mp (List.mem_dedup.mp hfile)
      exact file_mem_slotFiles ha hm
    calc
      ((inFlight r.events).map Access.file).dedup.length ≤ (slotFiles claimed r).length :=
        (List.subperm_of_subset (List.nodup_dedup _) hsub).length_le
      _ ≤ Run.entered r.ready := length_slotFiles_le claimed
      _ = r.active := hcount.symm
      _ ≤ limit := hlimit
  · rintro n file hf hread ⟨a, hm, hne⟩
    refine ha.inSlot (timedScripts_get? s τ hf) ?_ ?_
    · intro h
      rw [h] at hread
      exact List.not_mem_nil hread
    · intro h
      rw [h] at hne
      exact hne ((ended_timedScript_perm _ _).mem_iff.mpr hm)
  · intro n file rest hf hm
    exact ha.atRest (timedScripts_get? s τ hf) (atRest_timedScript _ _) hm

/-- In a fair survey, only the file whose turn it is can have begun some of its calls and not the
others. -/
theorem allOrNone_after (p : Pool) (s : Setting) (τ : Timing) (hf : claimed[n]? = some file)
    (k : Nat) :
    let r := (Run.start p (timedScripts s τ claimed)).after k
    AllOrNone s file (r.told n) ∨ ∃ phase, r.ready.head? = some (n, phase) := by
  have ha := (Run.accounts_start p (timedScripts s τ claimed)).passes (Run.passes_after k _)
  exact (Run.orderly_after p _ k).atRest ha (Or.inl rfl) (timedScripts_get? s τ hf)
    (atRest_timedScript _ _)

/-- A survey in a pool takes as many slots as there are, or as there are files for. -/
theorem peak_runTimed {pool : Pool} (hp : pool.active ≤ pool.limit) (s : Setting) (τ : Timing)
    (files : List (List Char)) :
    (runTimed s τ pool files .fair).pool.peak =
      max pool.peak (min pool.limit (pool.active + (Claims.ofFiles files).files.length)) := by
  have hj : ∀ job ∈ timedScripts s τ (Claims.ofFiles files).files, job.Pauses := by
    intro job hm
    obtain ⟨⟨file, i⟩, -, rfl⟩ := List.mem_map.mp hm
    trivial
  have h := Run.peak_settle_fair hp hj
  rw [length_timedScripts] at h
  rw [← h]
  rfl

/-- **A survey works on at most as many files at once as its pool has slots.**  A pool of any limit
that allows a slot can be made, and at every moment of a survey in it, after any other surveys, the
slots are kept; in a fair survey the calls of a file begin in one turn.  The first fair survey in the
pool takes as many slots as there are, or one for each claimed file. -/
theorem slots_kept {limit : Int} (hl : 1 ≤ limit) (s : Setting) (τ : Timing)
    (files : List (List Char)) :
    ∃ pool, Pool.make limit = .ok pool ∧
      let claimed := (Claims.ofFiles files).files
      (∀ earlier : List Task,
        let start := Run.start (poolAfter pool earlier) (timedScripts s τ claimed)
        (∀ r, start.Passes r → SlotsKept s claimed limit.toNat r) ∧
        ∀ k n file, claimed[n]? = some file → AllOrNone s file ((start.after k).told n) ∨
          ∃ phase, (start.after k).ready.head? = some (n, phase)) ∧
      (runTimed s τ pool files .fair).pool.peak = min limit.toNat claimed.length := by
  obtain ⟨pool, hmake, hp⟩ := Pool.exists_make hl
  refine ⟨pool, hmake, ?_, ?_⟩
  · intro earlier
    have hlt := active_poolAfter hp earlier
    have hactive : (poolAfter pool earlier).active = 0 := by
      rw [active_poolAfter_eq hp, Pool.active_make hmake]
    have hlimit : (poolAfter pool earlier).limit = limit.toNat := by
      rw [limit_poolAfter, Pool.limit_make hmake]
    refine ⟨?_, fun k n file hf => allOrNone_after _ s τ hf k⟩
    intro r hr
    have hb := ((Run.balanced_idle (Nat.le_of_lt hlt)).submit 0 _).passes hr
    rw [hactive, hlimit] at hb
    exact SlotsKept.of_accounts ((Run.accounts_start _ _).passes hr) hb
  · rw [peak_runTimed (Nat.le_of_lt hp), Pool.limit_make hmake, Pool.active_make hmake,
      Pool.peak_make hmake, Nat.zero_max, Nat.zero_add]

/-- Three files in a pool of two slots, the reading of each a turn longer than the one before. -/
theorem slots_kept_three_files :
    let s : Setting :=
      { disk := ⟨.directory (["a", "b", "c"].map fun name => (name.toList, .directory
          [("route.js".toList, .file ("export const GET".toList.map fun c => c.toNat.toUInt8))])),
          []⟩
        root := ⟨.root, []⟩
        describer := ⟨[], fun _ => ⟨1, .ok default, none⟩⟩ }
    let τ : Timing := ⟨fun i => i, fun _ => s.describer⟩
    let files := ["a/route.js".toList, "b/route.js".toList, "c/route.js".toList]
    ∃ pool, Pool.make 2 = .ok pool ∧ (runTimed s τ pool files .fair).pool.peak = 2 ∧
      ∀ schedule k,
        let r := (Run.start pool (timedScripts s τ files)).drain schedule k
        ((inFlight r.events).map Access.file).dedup.length ≤ 2 := by
  intro s τ files
  obtain ⟨pool, hp, h, hpeak⟩ := slots_kept (by decide : (1 : Int) ≤ 2) s τ files
  have hclaimed : (Claims.ofFiles files).files = files := by decide +kernel
  rw [hclaimed] at h hpeak
  exact ⟨pool, hp, hpeak, fun schedule k => ((h []).1 _ (Run.passes_drain schedule k _)).few⟩

end Survey
end RouteScribe
