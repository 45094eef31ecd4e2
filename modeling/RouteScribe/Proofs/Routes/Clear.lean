import Mathlib.Data.List.Infix
import RouteScribe.Proofs.Routes.Exports

/-! # Texts without an export

A text in which the word `export` does not stand in any case is `Clear`.  It exports nothing, and a
search that begins with this word passes over it (`Handler.Blind.leftmost?`).  Clear texts that are
parted by a character which is no letter of the word are clear together (`Clear.append`). -/

namespace RouteScribe

open Source

namespace Source

variable {s a b : List Char} {c : Char}

/-- The word `export` stands nowhere in the text, in any case. -/
def Clear (s : List Char) : Prop := ∀ w, w <:+: s → sameWord "export".toList w = false

theorem clear_iff : Clear s ↔ ∀ t, t <:+ s → word? "export".toList t = none := by
  constructor
  · intro h t ht
    cases hw : word? "export".toList t with
    | none => rfl
    | some r =>
        obtain ⟨x, rfl, hx⟩ := word?_eq_some_iff.mp hw
        rw [h x ((List.prefix_append x r).isInfix.trans ht.isInfix)] at hx
        cases hx
  · rintro h w ⟨front, back, rfl⟩
    refine Bool.eq_false_iff.mpr fun hw => ?_
    have hsuffix : w ++ back <:+ front ++ w ++ back := ⟨front, by rw [List.append_assoc]⟩
    have hnone := h _ hsuffix
    rw [word?_eq_some_iff.mpr ⟨w, rfl, hw⟩] at hnone
    cases hnone

instance (s : List Char) : Decidable (Clear s) :=
  decidable_of_iff (∀ t ∈ s.tails, word? "export".toList t = none) (by
    simp only [List.mem_tails]
    exact clear_iff.symm)

theorem clear_nil : Clear [] := clear_iff.mpr fun t ht => by
  rw [List.suffix_nil.mp ht]
  rfl

theorem clear_cons : Clear (c :: s) ↔ word? "export".toList (c :: s) = none ∧ Clear s := by
  rw [clear_iff, clear_iff]
  constructor
  · intro h
    exact ⟨h _ List.suffix_rfl, fun t ht => h t (ht.trans (List.suffix_cons c s))⟩
  · rintro ⟨hs, h⟩ t ht
    rcases List.suffix_cons_iff.mp ht with rfl | ht
    · exact hs
    · exact h t ht

/-- A text that is shorter than the word is clear. -/
theorem clear_of_length (h : s.length < 6) : Clear s := by
  refine clear_iff.mpr fun t ht => ?_
  cases hw : word? "export".toList t with
  | none => rfl
  | some r =>
      have hlen := length_le_of_word? hw
      have hle := ht.length_le
      have hsix : "export".toList.length = 6 := by decide
      omega

/-- The character is no letter of the word. -/
abbrev Parts (c : Char) : Prop := ∀ p ∈ "export".toList, sameLetter p c = false

theorem parts_of_sign (hc : IsSign c) : Parts c := fun p hp =>
  noLetter_of_sign hc p (mem_letters _ export_mem_words p hp)

theorem Divides.parts (hc : Divides c) : Parts c := fun p hp =>
  hc.noLetter p (mem_letters _ export_mem_words p hp)

/-- Two clear texts with such a character between them are clear. -/
theorem Clear.append (ha : Clear a) (hc : Parts c) (hb : Clear b) : Clear (a ++ c :: b) := by
  induction a with
  | nil =>
      rw [List.nil_append, clear_cons]
      exact ⟨word?_divided (a := []) hc, hb⟩
  | cons d a ih =>
      obtain ⟨hword, ha⟩ := clear_cons.mp ha
      have hnone : word? "export".toList (d :: a ++ c :: b) = none := by
        rw [word?_divided hc, hword]
        rfl
      exact clear_cons.mpr ⟨hnone, ih ha⟩

/-- No export begins where the word does not stand. -/
theorem exports_cons (h : word? "export".toList (c :: s) = none) : exports (c :: s) = exports s := by
  have hnone : exportHere? (c :: s) = none := by
    rw [exportHere?_eq, h]
    rfl
  exact exports_of_none hnone

theorem exports_of_clear (h : Clear s) : exports s = [] := by
  induction s with
  | nil => rfl
  | cons c s ih =>
      obtain ⟨hword, hs⟩ := clear_cons.mp h
      rw [exports_cons hword, ih hs]

end Source

/-! ### Searches that begin with the word -/

namespace Handler

variable {s : List Char} {c : Char}

/-- A search that sees nothing where the word `export` does not stand. -/
def Blind {β : Type} (here? : List Char → Option β) : Prop :=
  ∀ s, word? "export".toList s = none → here? s = none

theorem functionHere?_eq (name s : List Char) : functionHere? name s =
    (word? "export".toList s).bind fun s => (blanks? s).bind fun s =>
      (word? "function".toList (optionalWord "async".toList s)).bind fun s =>
        (named? name s).bind fun s => (char? '(' (skipBlanks s)).bind (params? functionBody?) := rfl

theorem arrowHere?_eq (name s : List Char) : arrowHere? name s =
    (word? "export".toList s).bind fun s => (blanks? s).bind fun s =>
      (oneOf? bindings s).bind fun s => (named? name s).bind fun s =>
        (char? '=' (skipBlanks s)).bind fun s =>
          (char? '(' (optionalWord "async".toList (skipBlanks s))).bind (params? arrowBody?) := rfl

theorem blind_functionHere? (name : List Char) : Blind (functionHere? name) := by
  intro s hs
  rw [functionHere?_eq, hs]
  rfl

theorem blind_arrowHere? (name : List Char) : Blind (arrowHere? name) := by
  intro s hs
  rw [arrowHere?_eq, hs]
  rfl

theorem leftmost?_cons {β : Type} (here? : List Char → Option β) (c : Char) (s : List Char) :
    leftmost? here? (c :: s) = (here? (c :: s)).or (leftmost? here? s) := by
  conv_lhs => unfold leftmost?
  cases here? (c :: s) <;> rfl

/-- Such a search passes over a clear text and the character behind it. -/
theorem Blind.leftmost? {β : Type} {here? : List Char → Option β} (h : Blind here?) (hs : Clear s)
    (hc : Parts c) (rest : List Char) :
    leftmost? here? (s ++ c :: rest) = Handler.leftmost? here? rest := by
  have hnone (a : List Char) (ha : word? "export".toList a = none) :
      here? (a ++ c :: rest) = none := by
    refine h _ ?_
    rw [word?_divided hc, ha]
    rfl
  induction s with
  | nil => rw [List.nil_append, leftmost?_cons, show here? (c :: rest) = none from hnone [] rfl,
      Option.none_or]
  | cons d s ih =>
      obtain ⟨hword, hs⟩ := clear_cons.mp hs
      have hhere : here? (d :: (s ++ c :: rest)) = none := hnone (d :: s) hword
      rw [List.cons_append, leftmost?_cons, hhere, Option.none_or]
      exact ih hs

end Handler

end RouteScribe
