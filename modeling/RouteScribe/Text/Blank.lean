import RouteScribe.Text.Span

/-!
# Blanks

The characters that separate words and that trimming removes: the Unicode white space characters and
the four information separators U+001C to U+001F.  `trim` removes them on both sides.
-/

namespace RouteScribe

/-- The spans of blank code points. -/
def blankSpans : List (Nat × Nat) :=
  [(0x9, 0xd), (0x1c, 0x20), (0x85, 0x85), (0xa0, 0xa0), (0x1680, 0x1680), (0x2000, 0x200a),
    (0x2028, 0x2029), (0x202f, 0x202f), (0x205f, 0x205f), (0x3000, 0x3000)]

/-- A code point that counts as white space. -/
def isBlankCode (n : Nat) : Bool := inSpans blankSpans n

/-- A character that counts as white space. -/
def isBlank (c : Char) : Bool := isBlankCode c.toNat

/-- A character that is white space for Unicode, which leaves out the information separators. -/
def isSpace (c : Char) : Bool := isBlank c && !inSpans [(0x1c, 0x1f)] c.toNat

/-- The list without its longest front whose members satisfy `p`, and without its longest such
end. -/
def trimBy {α : Type} (p : α → Bool) (l : List α) : List α :=
  ((l.dropWhile p).reverse.dropWhile p).reverse

/-- Trimming leaves what begins and ends with members that do not satisfy `p`. -/
theorem trimBy_append {α : Type} {p : α → Bool} {a s b : List α} (ha : ∀ c ∈ a, p c = true)
    (hb : ∀ c ∈ b, p c = true) (hs : ∀ c, c ∈ s.head? ∨ c ∈ s.getLast? → p c = false) :
    trimBy p (a ++ (s ++ b)) = s := by
  have hkept {l : List α} (h : ∀ c ∈ l.head?, p c = false) : l.dropWhile p = l := by
    cases l with
    | nil => rfl
    | cons c l => exact List.dropWhile_cons_of_neg (by simp [h c rfl])
  have hrev : ∀ c ∈ b.reverse, p c = true := fun c hc => hb c (List.mem_reverse.mp hc)
  rw [trimBy, List.dropWhile_append_of_pos ha]
  cases s with
  | nil =>
      rw [List.nil_append, ← List.append_nil b, List.dropWhile_append_of_pos hb]
      rfl
  | cons c s =>
      have hfront : (c :: (s ++ b)).dropWhile p = c :: (s ++ b) :=
        hkept fun d hd => hs d (.inl hd)
      rw [List.cons_append, hfront, ← List.cons_append, List.reverse_append,
        List.dropWhile_append_of_pos hrev, hkept, List.reverse_reverse]
      intro d hd
      rw [List.head?_reverse] at hd
      exact hs d (.inr hd)

/-- The text without blanks at either end. -/
def trim (s : List Char) : List Char := trimBy isBlank s

/-- The text without blanks at its end. -/
def trimEnd (s : List Char) : List Char := (s.reverse.dropWhile isBlank).reverse

end RouteScribe
