import Mathlib.Data.List.Infix
import RouteScribe.Console.Style

/-! # Removing control sequences

A text is `Clean` if no control sequence begins anywhere in it; these are the texts that stay as
they are when control sequences are removed (`length_plain_eq_iff`, `Clean.plain_eq`).  No sequence
goes across a character that neither goes on with a sequence nor ends one, so a text can be cut
before such a character (`plain_append`), and the sequences of a style leave nothing behind
(`plain_styled`). -/

namespace RouteScribe
namespace Style

variable {c : Char} {s t : List Char}

/-- No control sequence begins anywhere in the text. -/
def Clean (s : List Char) : Prop := ∀ t ∈ s.tails, sequenceLength? t = none

instance (s : List Char) : Decidable (Clean s) :=
  inferInstanceAs (Decidable (∀ t ∈ s.tails, sequenceLength? t = none))

theorem clean_cons_iff : Clean (c :: s) ↔ sequenceLength? (c :: s) = none ∧ Clean s := by
  simp [Clean]

theorem clean_nil : Clean [] := by simp [Clean, sequenceLength?]

/-! ### Lengths -/

theorem length_takeWhile_lt {rest ds : List Char} {d : Char}
    (h : rest.dropWhile isParameter = d :: ds) :
    (rest.takeWhile isParameter).length < rest.length := by
  have hall := congrArg List.length (rest.takeWhile_append_dropWhile (p := isParameter))
  rw [List.length_append, h, List.length_cons] at hall
  omega

theorem sequenceLength?_le {n : Nat} (h : sequenceLength? s = some n) : n ≤ s.length := by
  unfold sequenceLength? at h
  split at h
  · next rest =>
      split at h
      · next c cs hd =>
          split at h
          · cases h
            have hlt := length_takeWhile_lt hd
            simp only [List.length_cons]
            omega
          · cases h
      · cases h
  · cases h

theorem plainFrom_sublist (skip : Nat) (s : List Char) : (plainFrom skip s).Sublist s := by
  induction s generalizing skip with
  | nil => cases skip <;> exact .slnil
  | cons c s ih =>
      cases skip with
      | succ skip => exact (ih skip).cons c
      | zero =>
          rw [plainFrom]
          split
          · exact (ih _).cons c
          · exact (ih 0).cons_cons c

theorem plain_sublist (s : List Char) : (plain s).Sublist s := plainFrom_sublist 0 s

/-- The text stays as long as it is exactly if no control sequence is in it. -/
theorem length_plain_eq_iff : (plain s).length = s.length ↔ Clean s := by
  induction s with
  | nil => exact iff_of_true rfl clean_nil
  | cons c s ih =>
      rw [clean_cons_iff, ← ih, plain, plainFrom]
      cases hseq : sequenceLength? (c :: s) with
      | none => simp [plain]
      | some n =>
          have hle := (plainFrom_sublist (n - 1) s).length_le
          refine iff_of_false ?_ (by simp)
          simp only [List.length_cons]
          omega

theorem Clean.plain_eq (h : Clean s) : plain s = s :=
  (plain_sublist s).eq_of_length (length_plain_eq_iff.mpr h)

theorem clean_of_not_mem (h : '\x1b' ∉ s) : Clean s := by
  intro t ht
  cases t with
  | nil => rfl
  | cons c t =>
      have hc : c ≠ '\x1b' := fun hc =>
        h (hc ▸ ((List.mem_tails _ _).mp ht).subset List.mem_cons_self)
      unfold sequenceLength?
      split
      · next heq => exact absurd (List.cons.inj heq).1 hc
      · rfl

/-! ### Cutting a text -/

/-- The character neither goes on with a control sequence nor ends one. -/
structure Stops (c : Char) : Prop where
  no_bracket : c ≠ '['
  no_parameter : isParameter c = false
  no_letter : c.isAlpha = false

theorem stops_blank : Stops ' ' := ⟨by decide, by decide, by decide⟩

theorem stops_escape : Stops '\x1b' := ⟨by decide, by decide, by decide⟩

/-- What comes behind such a character does not belong to a sequence before it. -/
theorem sequenceLength?_append (hc : Stops c) (hs : s ≠ []) (t : List Char) :
    sequenceLength? (s ++ c :: t) = sequenceLength? s := by
  obtain ⟨a, s, rfl⟩ := List.exists_cons_of_ne_nil hs
  by_cases ha : a = '\x1b'
  · subst ha
    cases s with
    | nil => simp [sequenceLength?, hc.no_bracket]
    | cons b rest =>
        by_cases hb : b = '['
        · subst hb
          simp only [List.cons_append, sequenceLength?]
          rw [List.dropWhile_append, List.takeWhile_append]
          cases hd : rest.dropWhile isParameter with
          | nil => simp [hc.no_parameter, hc.no_letter]
          | cons d ds => simp [(length_takeWhile_lt hd).ne]
        · simp [sequenceLength?, hb]
  · simp [sequenceLength?, ha]

theorem plainFrom_append (hc : Stops c) (t : List Char) {skip : Nat} (h : skip ≤ s.length) :
    plainFrom skip (s ++ c :: t) = plainFrom skip s ++ plain (c :: t) := by
  induction s generalizing skip with
  | nil =>
      obtain rfl : skip = 0 := Nat.le_zero.mp h
      rfl
  | cons d s ih =>
      cases skip with
      | succ skip => exact ih (Nat.le_of_succ_le_succ h)
      | zero =>
          rw [List.cons_append, plainFrom, plainFrom, ← List.cons_append,
            sequenceLength?_append hc (List.cons_ne_nil d s)]
          cases hseq : sequenceLength? (d :: s) with
          | none => exact congrArg (d :: ·) (ih (Nat.zero_le _))
          | some n =>
              have hle := sequenceLength?_le hseq
              exact ih (by simp only [List.length_cons] at hle; omega)

/-- A text is cut before such a character. -/
theorem plain_append (hc : Stops c) (s t : List Char) :
    plain (s ++ c :: t) = plain s ++ plain (c :: t) := plainFrom_append hc t (Nat.zero_le _)

theorem plain_cons (h : c ≠ '\x1b') (t : List Char) : plain (c :: t) = c :: plain t := by
  rw [plain, plainFrom]
  simp [sequenceLength?, h, plain]

theorem plainFrom_of_length (s t : List Char) : plainFrom s.length (s ++ t) = plain t := by
  induction s with
  | nil => rfl
  | cons c s ih => exact ih

/-- The control sequence of a number leaves nothing behind. -/
theorem plain_sequence_append {code : List Char} (h : code.all isParameter = true)
    (t : List Char) : plain (sequence code ++ t) = plain t := by
  have hall : ∀ c ∈ code, isParameter c = true := List.all_eq_true.mp h
  have hcons : sequence code ++ t = '\x1b' :: ('[' :: (code ++ ['m']) ++ t) := by
    simp [sequence, introducer]
  have hlength : sequenceLength? ('\x1b' :: ('[' :: (code ++ ['m']) ++ t)) =
      some (code.length + 3) := by
    simp only [List.cons_append, List.append_assoc, List.nil_append, sequenceLength?]
    rw [List.dropWhile_append_of_pos hall, List.takeWhile_append_of_pos hall]
    simp [isParameter, List.dropWhile, List.takeWhile]
  rw [hcons, plain, plainFrom, hlength]
  have hskip : code.length + 2 = ('[' :: (code ++ ['m'])).length := by simp
  change plainFrom (code.length + 2) _ = _
  rw [hskip]
  exact plainFrom_of_length _ t

theorem plain_sequences_append (p : Properties) (t : List Char) :
    plain (p.sequences ++ t) = plain t := by
  have hone (b : Bool) {code : List Char} (h : code.all isParameter = true) (t : List Char) :
      plain ((if b then sequence code else []) ++ t) = plain t := by
    cases b
    · rfl
    · exact plain_sequence_append h t
  have hcolor (o : Option Color) (t : List Char) :
      plain ((o.elim [] fun c => sequence c.code) ++ t) = plain t := by
    cases o with
    | none => rfl
    | some c => exact plain_sequence_append (by cases c <;> rfl) t
  rw [Properties.sequences, List.append_assoc, List.append_assoc, List.append_assoc, hcolor,
    hone _ rfl, hone _ rfl, hone _ rfl]

/-- The sequences of a style leave nothing behind. -/
theorem plain_styled (p : Properties) (s : List Char) : plain (styled p s) = plain s := by
  have hreset : plain (sequence ['0']) = [] := rfl
  have hcut : plain (s ++ sequence ['0']) = plain s ++ plain (sequence ['0']) :=
    plain_append stops_escape s ['[', '0', 'm']
  rw [styled, List.append_assoc, plain_sequences_append, hcut, hreset, List.append_nil]

end Style
end RouteScribe
