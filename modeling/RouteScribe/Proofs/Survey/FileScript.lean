import Mathlib.Data.List.Perm.Basic
import RouteScribe.Proofs.Files.Reading
import RouteScribe.Proofs.Lists
import RouteScribe.Survey.FileScript

/-! # One file, one thing after the other

The script of a file makes its calls all at the same time, and each of them ends in the round of its
turns.  Taken together the rounds hold what happens when each call is made and waited for before the
next one (`rounds_perm`), so the script reports the events of that order, `fileEvents`, in some
order (`events_fileScript_perm`).  It ends well unless the file has a name that no file can have
(`result_fileScript`). -/

namespace RouteScribe
namespace Survey

variable {s : Setting} {index total : Nat} {file : List Char}

/-- The events of a call that is waited for. -/
def callEvents (s : Setting) (file : List Char) (c : RouteQuery × Description) :
    List SurveyEvent :=
  .callBegun file c.1 c.2.request :: endEvents s file c.1 c.2.outcome

/-- The events after a file has been read, one call after the other. -/
def readEvents (s : Setting) (index total : Nat) (file : List Char) :
    Except ReadFault (List Char) → List SurveyEvent
  | .error fault => unreadEvents file fault
  | .ok source =>
    match exportedMethods source with
    | [] => emptyEvents file
    | methods =>
      openingEvent file methods :: (calls s file methods).flatMap (callEvents s file) ++
        [closingEvent index total file methods]

/-- The events of a file, one call after the other. -/
def fileEvents (s : Setting) (index total : Nat) (file : List Char) : List SurveyEvent :=
  .readBegun file :: .readEnded file ::
    readEvents s index total file (s.disk.readText (s.root.join (Path.ofChars file)))

/-! ### The rounds of the calls -/

theorem flatMap_round {α : Type} (xs : List α) (turns k left : Nat) :
    (List.range' k left).flatMap (fun j => if turns = j then xs else []) =
      if k ≤ turns ∧ turns < k + left then xs else [] := by
  induction left generalizing k with
  | zero => exact (if_neg (by omega)).symm
  | succ left ih =>
      rw [List.range'_succ, List.flatMap_cons, ih]
      by_cases h : turns = k
      · rw [if_pos h, if_neg (by omega), if_pos (by omega), List.append_nil]
      · by_cases hk : k ≤ turns ∧ turns < k + (left + 1)
        · rw [if_neg h, if_pos hk, if_pos (by omega), List.nil_append]
        · rw [if_neg h, if_neg hk, if_neg (by omega), List.nil_append]

/-- The rounds up to the longest call hold the events of all calls. -/
theorem rounds_perm (s : Setting) (file : List Char) {cs : List (RouteQuery × Description)} {n : Nat}
    (hn : ∀ c ∈ cs, c.2.turns ≤ n) :
    (firstRound s file cs ++ (List.range' 1 n).flatMap (laterRound s file cs)).Perm
      (cs.flatMap (callEvents s file)) := by
  have hl : ((List.range' 1 n).flatMap (laterRound s file cs)).Perm
      (cs.flatMap fun c => (List.range' 1 n).flatMap fun k =>
        if c.2.turns = k then endEvents s file c.1 c.2.outcome else []) := by
    clear hn
    induction cs with
    | nil => simp [laterRound]
    | cons c cs ih =>
        rw [List.flatMap_cons]
        refine .trans (.symm ?_) (ih.append_left _)
        exact List.flatMap_append_perm _ _ _
  refine (hl.append_left _).trans ((List.flatMap_append_perm _ _ _).trans ?_)
  apply List.Perm.flatMap_left
  intro c hc
  have hturns := hn c hc
  rw [flatMap_round]
  unfold callEvents
  dsimp only
  by_cases h0 : c.2.turns = 0
  · rw [if_pos h0, if_neg (by omega), List.append_nil]
  · rw [if_neg h0, if_pos (by omega)]
    exact .refl _

theorem events_laterRounds {ρ : Type} (cs : List (RouteQuery × Description))
    (after : Script SurveyEvent ρ) (left k : Nat) :
    (laterRounds s file cs after left k).events =
      (List.range' k left).flatMap (laterRound s file cs) ++ after.events := by
  induction left generalizing k with
  | zero => rfl
  | succ left ih =>
      rw [laterRounds, Script.events, Script.events_emitAll, ih, List.range'_succ,
        List.flatMap_cons, List.append_assoc]

theorem result_laterRounds {ρ : Type} (cs : List (RouteQuery × Description))
    (after : Script SurveyEvent ρ) (left k : Nat) :
    (laterRounds s file cs after left k).result = after.result := by
  induction left generalizing k with
  | zero => rfl
  | succ left ih => rw [laterRounds, Script.result, Script.result_emitAll, ih]

theorem turns_le_longest {cs : List (RouteQuery × Description)} {c : RouteQuery × Description}
    (h : c ∈ cs) : c.2.turns ≤ longest cs := by
  have hmem : c.2.turns ∈ cs.map fun c => c.2.turns := List.mem_map.mpr ⟨c, h, rfl⟩
  exact le_foldl_max hmem 0

/-- The calls made all at the same time have the events that they have one after the other. -/
theorem events_callScript_perm {ρ : Type} (cs : List (RouteQuery × Description))
    (after : Script SurveyEvent ρ) :
    (callScript s file cs after).events.Perm
      (cs.flatMap (callEvents s file) ++ after.events) := by
  rw [callScript, Script.events_emitAll, events_laterRounds, ← List.append_assoc]
  exact (rounds_perm s file fun _ h => turns_le_longest h).append_right _

/-! ### The whole script -/

theorem events_readScript_perm {r : Except ReadFault (List Char)}
    (h : ∀ p, r ≠ .error (.unreachable ⟨.nullCharacter, p⟩)) :
    (readScript s index total file r).events.Perm (readEvents s index total file r) := by
  unfold readScript
  split
  · next p => exact absurd rfl (h p)
  · rw [Script.events_emitAll]
    simp [Script.events, readEvents]
  · next source =>
      cases hm : exportedMethods source with
      | nil =>
          simp only [hm, readEvents, Script.events_emitAll, Script.events, List.append_nil]
          exact .refl _
      | cons m ms =>
          simp only [hm, readEvents, Script.events, List.cons_append]
          refine .cons _ ((events_callScript_perm _ _).trans ?_)
          rw [Script.events_pause]
          exact .refl _

theorem result_readScript {r : Except ReadFault (List Char)}
    (h : ∀ p, r ≠ .error (.unreachable ⟨.nullCharacter, p⟩)) :
    (readScript s index total file r).result = .ok () := by
  unfold readScript
  split
  · next p => exact absurd rfl (h p)
  · exact Script.result_emitAll _ _
  · split
    · exact Script.result_emitAll _ _
    · rw [Script.result, Script.result, callScript, Script.result_emitAll, result_laterRounds,
        Script.result_pause]
      rfl

section usable

variable (hs : s.root.NulFree) (hf : '\x00' ∉ file)
include hs hf

theorem events_fileScript_perm :
    (fileScript s index total file).events.Perm (fileEvents s index total file) := by
  have hr := Disk.readText_ne_null (d := s.disk) (hs.join (Path.nulFree_ofChars hf))
  exact .cons _ (.cons _ (events_readScript_perm hr))

theorem result_fileScript : (fileScript s index total file).result = .ok () :=
  result_readScript (Disk.readText_ne_null (hs.join (Path.nulFree_ofChars hf)))

end usable

end Survey
end RouteScribe
