import RouteScribe.Text.Case

/-! # Signs have no case

The case mappings lead to letters only, which stand behind the signs and digits of ASCII.  A sign in
a mapped text therefore stands in the text itself (`mem_of_mem_upper`, `mem_of_mem_lower`), and where
case is ignored a sign stands for nothing but itself (`eq_of_sameLetter`). -/

namespace RouteScribe

/-- The character stands before the letters of ASCII. -/
def IsSign (c : Char) : Prop := 0 < c.toNat ∧ c.toNat < 0x41

instance (c : Char) : Decidable (IsSign c) := inferInstanceAs (Decidable (_ ∧ _))

theorem shiftBy_lt {shifts : List Shift} {bound n : Nat} (h : ∀ s ∈ shifts, bound ≤ s.target)
    (hn : shiftBy shifts n < bound) : shiftBy shifts n = n := by
  unfold shiftBy at hn ⊢
  cases hs : shifts.find? (·.covers n) with
  | none => rfl
  | some s =>
      have hb := h s (List.mem_of_find?_eq_some hs)
      rw [hs] at hn
      dsimp only at hn
      omega

theorem eq_toNat_of_ofNat {n : Nat} {c : Char} (hc : IsSign c) (h : Char.ofNat n = c) :
    n = c.toNat := by
  by_cases hv : n.isValidChar
  · rw [← h, Char.ofNat, dif_pos hv]
    rfl
  · rw [← h, Char.ofNat, dif_neg hv] at hc
    exact absurd hc (by decide)

/-- The mapping of single characters leads to no sign but the sign itself. -/
theorem eq_of_shifted {shifts : List Shift} {c d : Char} (h : ∀ s ∈ shifts, 0x41 ≤ s.target)
    (hc : IsSign c) (he : Char.ofNat (shiftBy shifts d.toNat) = c) : d = c := by
  have hn := eq_toNat_of_ofNat hc he
  have hs := shiftBy_lt h (hn ▸ hc.2)
  exact Char.toNat_inj.mp (hs.symm.trans hn)

theorem eq_of_lowerChar {c d : Char} (hc : IsSign c) (h : lowerChar d = c) : d = c :=
  eq_of_shifted (by decide +kernel) hc h

theorem eq_of_mem_upperChar {c d : Char} (hc : IsSign c) (h : c ∈ upperChar d) : d = c := by
  have hlong : ∀ e ∈ longUpper, ∀ n ∈ e.2, 0x41 ≤ n := by decide +kernel
  unfold upperChar at h
  split at h
  · next ns hl =>
      obtain ⟨n, hn, he⟩ := List.mem_map.mp h
      obtain ⟨l₁, l₂, hl, -⟩ := List.lookup_eq_some_iff.mp hl
      have hb := hlong (d.toNat, ns) (by simp [hl]) n hn
      have := hc.2
      rw [eq_toNat_of_ofNat hc he] at hb
      omega
  · exact eq_of_shifted (by decide +kernel) hc (List.mem_singleton.mp h).symm

theorem mem_of_mem_upper {c : Char} {s : List Char} (hc : IsSign c) (h : c ∈ upper s) : c ∈ s := by
  obtain ⟨d, hd, h⟩ := List.mem_flatMap.mp h
  rwa [← eq_of_mem_upperChar hc h]

theorem mem_of_mem_lowerAfter {c : Char} {before s : List Char} (hc : IsSign c)
    (h : c ∈ lowerAfter before s) : c ∈ s := by
  induction s generalizing before with
  | nil => simp [lowerAfter] at h
  | cons d s ih =>
      rw [lowerAfter, List.mem_append] at h
      rcases h with h | h
      · refine List.mem_cons.mpr (.inl ?_)
        split at h
        · split at h
          · exact absurd hc (List.mem_singleton.mp h ▸ by decide)
          · exact absurd hc (List.mem_singleton.mp h ▸ by decide)
        · split at h
          · rcases List.mem_cons.mp h with rfl | h
            · exact absurd hc (by decide)
            · exact absurd hc (List.mem_singleton.mp h ▸ by decide)
          · exact (eq_of_lowerChar hc (List.mem_singleton.mp h).symm).symm
      · exact List.mem_cons_of_mem d (ih h)

theorem mem_of_mem_lower {c : Char} {s : List Char} (hc : IsSign c) (h : c ∈ lower s) : c ∈ s :=
  mem_of_mem_lowerAfter hc h

/-! ### Letters that stand for each other -/

theorem sameLetter_self (p : Char) : sameLetter p p = true := by
  unfold sameLetter
  split <;> simp

/-- A sign is its own lower case form. -/
theorem lowerChar_of_sign {c : Char} (hc : IsSign c) : lowerChar c = c := by
  have hfirst : ∀ s ∈ lowerShifts, 0x41 ≤ s.first := by decide +kernel
  have hnone : lowerShifts.find? (·.covers c.toNat) = none := by
    refine List.find?_eq_none.mpr fun s hs hcovers => ?_
    simp only [Shift.covers, Bool.and_eq_true, decide_eq_true_eq] at hcovers
    have hle := hfirst s hs
    have hlt := hc.2
    omega
  unfold lowerChar shiftBy
  rw [hnone]
  exact Char.ofNat_toNat c

/-- A sign stands for nothing but itself. -/
theorem eq_of_sameLetter {p c : Char} (hc : IsSign c) (h : sameLetter p c = true) : p = c := by
  have hmates : ∀ e ∈ caseMates, ∀ n ∈ e.2, 0x41 ≤ n := by decide +kernel
  unfold sameLetter at h
  split at h
  · simp only [lowerChar_of_sign hc, Bool.or_eq_true, beq_iff_eq, List.contains_iff_mem] at h
    rcases h with h | h
    · exact eq_of_lowerChar hc h.symm
    · cases hl : caseMates.lookup (lowerChar p).toNat with
      | none => simp [hl] at h
      | some ns =>
          obtain ⟨l₁, l₂, heq, -⟩ := List.lookup_eq_some_iff.mp hl
          have hle := hmates ((lowerChar p).toNat, ns) (by simp [heq]) c.toNat (by simpa [hl] using h)
          have hlt := hc.2
          omega
  · exact (beq_iff_eq.mp h).symm

end RouteScribe
