import RouteScribe.Proofs.Text.Case
import RouteScribe.Text.Blank
import RouteScribe.Text.Word

/-! # The spellings of a letter

Where case is ignored, a letter of ASCII stands for its two forms and, for three letters, for a few
characters beyond ASCII that share its lower case form (`mem_spellings_of_sameLetter`).  The
spellings of different letters are different (`letterOf_of_sameLetter`), and none of them is a blank.

In lower case the spelling of a word becomes the word, unless one of three letters beyond ASCII stands
in it (`lower_of_sameWord`); these leave a character beyond ASCII there (`exists_beyond_of_mem`). -/

namespace RouteScribe

namespace AlongList

/-- What holds of all members of a list is decided along the list, also for a type whose values can be
gone through. -/
scoped instance (priority := high) decidableForall {α : Type} {p : α → Prop} [DecidablePred p]
    (l : List α) : Decidable (∀ x ∈ l, p x) := List.decidableBAll p l

scoped instance (priority := high) decidableExists {α : Type} {p : α → Prop} [DecidablePred p]
    (l : List α) : Decidable (∃ x ∈ l, p x) := List.decidableBEx p l

end AlongList

open AlongList

/-! ### Where a case mapping comes from -/

/-- The code points that shifted spans can lead to `t`. -/
def origins (shifts : List Shift) (t : Nat) : List Nat :=
  t :: shifts.filterMap fun s =>
    if s.target ≤ t ∧ t - s.target ≤ s.last - s.first then some (s.first + (t - s.target)) else none

theorem mem_origins_shiftBy (shifts : List Shift) (n : Nat) :
    n ∈ origins shifts (shiftBy shifts n) := by
  unfold shiftBy
  cases hs : shifts.find? (·.covers n) with
  | none => exact List.mem_cons_self
  | some s =>
      have hcovers := List.find?_some hs
      simp only [Shift.covers, Bool.and_eq_true, decide_eq_true_eq] at hcovers
      obtain ⟨⟨hfirst, hlast⟩, -⟩ := hcovers
      refine List.mem_cons_of_mem _ (List.mem_filterMap.mpr ⟨s, List.mem_of_find?_eq_some hs, ?_⟩)
      dsimp only
      rw [if_pos (by omega)]
      exact congrArg some (by omega)

/-- What has `d` as its lower case form is among the origins of `d`. -/
theorem mem_origins_of_lowerChar {c : Char} {t : Nat} (ht : t ≠ 0) (h : (lowerChar c).toNat = t) :
    c.toNat ∈ origins lowerShifts t := by
  have hshift : shiftBy lowerShifts c.toNat = t := by
    unfold lowerChar at h
    by_cases hv : (shiftBy lowerShifts c.toNat).isValidChar
    · rw [Char.ofNat, dif_pos hv] at h
      exact h
    · rw [Char.ofNat, dif_neg hv] at h
      exact absurd h.symm ht
  rw [← hshift]
  exact mem_origins_shiftBy lowerShifts c.toNat

/-! ### The spellings of a letter -/

/-- The characters beyond ASCII that stand for a letter. -/
def strangers (p : Char) : List Char :=
  match p.toLower with
  | 'i' => ['İ', 'ı']
  | 's' => ['ſ']
  | 'k' => ['\u212A']
  | _ => []

/-- The characters that stand for a letter where case is ignored. -/
def spellings (p : Char) : List Char := p.toLower :: p.toUpper :: strangers p

/-- The letters of ASCII. -/
def alphabet : List Char := "abcdefghijklmnopqrstuvwxyzABCDEFGHIJKLMNOPQRSTUVWXYZ".toList

/-- The lower case forms that count as that of a letter. -/
def lowerForms (p : Char) : List Nat :=
  (lowerChar p).toNat :: (caseMates.lookup (lowerChar p).toNat).getD []

theorem spellings_complete : ∀ p ∈ alphabet, isCased p = true ∧ 0 ∉ lowerForms p ∧
    ∀ t ∈ lowerForms p, ∀ n ∈ origins lowerShifts t, Char.ofNat n ∈ spellings p := by
  decide +kernel

variable {p c : Char}

theorem mem_spellings_of_sameLetter (hp : p ∈ alphabet) (h : sameLetter p c = true) :
    c ∈ spellings p := by
  obtain ⟨hcased, hzero, horigins⟩ := spellings_complete p hp
  have hform : (lowerChar c).toNat ∈ lowerForms p := by
    unfold sameLetter at h
    rw [if_pos hcased] at h
    simp only [Bool.or_eq_true, beq_iff_eq, List.contains_iff_mem] at h
    rcases h with h | h
    · rw [h]
      exact List.mem_cons_self
    · exact List.mem_cons_of_mem _ h
  have hne : (lowerChar c).toNat ≠ 0 := fun h => hzero (h ▸ hform)
  have hmem := horigins _ hform _ (mem_origins_of_lowerChar hne rfl)
  rwa [Char.ofNat_toNat] at hmem

/-- The letter that a character stands for, in lower case. -/
def letterOf : Char → Char
  | 'İ' | 'ı' => 'i'
  | 'ſ' => 's'
  | '\u212A' => 'k'
  | c => c.toLower

/-- No character stands for two letters. -/
theorem letterOf_of_sameLetter (hp : p ∈ alphabet) (h : sameLetter p c = true) :
    letterOf c = p.toLower := by
  have hall : ∀ p ∈ alphabet, ∀ c ∈ spellings p, letterOf c = p.toLower := by decide +kernel
  exact hall p hp c (mem_spellings_of_sameLetter hp h)

/-- What stands for a letter can stand inside a word, and is no blank. -/
theorem isWord_of_sameLetter (hp : p ∈ alphabet) (h : sameLetter p c = true) :
    isWord c = true ∧ isBlank c = false := by
  have hall : ∀ p ∈ alphabet, ∀ c ∈ spellings p, isWord c = true ∧ isBlank c = false := by
    decide +kernel
  exact hall p hp c (mem_spellings_of_sameLetter hp h)

/-- Letters beyond ASCII that do not become letters of ASCII in lower case. -/
def oddLetters : List Char := ['İ', 'ı', 'ſ']

/-- A letter is spelled in one of its two forms or, for some letters, beyond ASCII. -/
theorem lower_or_odd (hp : p ∈ alphabet) (hk : p.toLower ≠ 'k') (h : sameLetter p c = true) :
    lowerChar c = p.toLower ∧ c ≠ 'Σ' ∧ c ≠ 'İ' ∨ c ∈ oddLetters := by
  have hall : ∀ p ∈ alphabet, p.toLower ≠ 'k' → ∀ c ∈ spellings p,
      lowerChar c = p.toLower ∧ c ≠ 'Σ' ∧ c ≠ 'İ' ∨ c ∈ oddLetters := by
    decide +kernel
  exact hall p hp hk c (mem_spellings_of_sameLetter hp h)

/-! ### Words in lower case -/

section Lower

variable {w s before : List Char} (hw : ∀ p ∈ w, p ∈ alphabet ∧ p.toLower ≠ 'k')
include hw

/-- Without such letters, the spelling of a word has the lower case of the word. -/
theorem lowerAfter_of_sameWord (h : sameWord w s = true) (hodd : ∀ c ∈ s, c ∉ oddLetters) :
    lowerAfter before s = w.map Char.toLower := by
  induction w generalizing s before with
  | nil =>
      cases s with
      | nil => rfl
      | cons c s => cases h
  | cons p w ih =>
      cases s with
      | nil => cases h
      | cons c s =>
          rw [sameWord, Bool.and_eq_true] at h
          rw [List.forall_mem_cons] at hw hodd
          obtain ⟨hlower, hsigma, hdot⟩ := (lower_or_odd hw.1.1 hw.1.2 h.1).resolve_right hodd.1
          rw [lowerAfter, if_neg hsigma, if_neg hdot, hlower, ih hw.2 h.2 hodd.2]
          rfl

theorem lower_of_sameWord (h : sameWord w s = true) (hodd : ∀ c ∈ s, c ∉ oddLetters) :
    lower s = w.map Char.toLower :=
  lowerAfter_of_sameWord hw h hodd

end Lower

/-- In lower case such a letter leaves a character beyond ASCII. -/
theorem exists_beyond_of_mem {s : List Char} (before : List Char) (hc : c ∈ oddLetters) (hs : c ∈ s) :
    ∃ d ∈ lowerAfter before s, 128 ≤ d.toNat := by
  induction s generalizing before with
  | nil => cases hs
  | cons e s ih =>
      rw [lowerAfter]
      rcases List.mem_cons.mp hs with rfl | hs
      · have himage : ∀ c ∈ oddLetters, c ≠ 'Σ' ∧
            ∃ d ∈ if c = 'İ' then ['i', '\u0307'] else [lowerChar c], 128 ≤ d.toNat := by
          decide +kernel
        obtain ⟨hsigma, d, hd, hbeyond⟩ := himage c hc
        refine ⟨d, List.mem_append_left _ ?_, hbeyond⟩
        rwa [if_neg hsigma]
      · obtain ⟨d, hd, hbeyond⟩ := ih _ hs
        exact ⟨d, List.mem_append_right _ hd, hbeyond⟩

end RouteScribe
