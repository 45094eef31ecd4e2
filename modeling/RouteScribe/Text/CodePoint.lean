/-!
# Text with unpaired surrogates

A JSON escape may name half of a surrogate pair, so the strings of a document are lists of code
points, surrogates included.  `Text.chars?` recovers ordinary characters and fails exactly when a
surrogate is left: such a text has no UTF-8 form.
-/

namespace RouteScribe

/-- A Unicode scalar value, or the surrogate U+D800 + `u`. -/
inductive CodePoint where
  | scalar (c : Char)
  | surrogate (u : Fin 2048)
deriving DecidableEq, Repr

namespace CodePoint

/-- The number of a code point. -/
def code : CodePoint → Nat
  | scalar c => c.toNat
  | surrogate u => 0xD800 + u

instance : Coe Char CodePoint := ⟨scalar⟩

instance : Inhabited CodePoint := ⟨scalar ' '⟩

/-- The code point of a number below 0x110000. -/
def ofCode (n : Nat) : CodePoint :=
  if h : 0xD800 ≤ n ∧ n < 0xE000 then surrogate ⟨n - 0xD800, by omega⟩ else scalar (Char.ofNat n)

/-- The scalar value, if it is one. -/
def char? : CodePoint → Option Char
  | scalar c => some c
  | surrogate _ => none

/-- The character that stands for the code point where only characters can be shown. -/
def shown : CodePoint → Char
  | scalar c => c
  | surrogate _ => '\uFFFD'

end CodePoint

/-- The text of a document. -/
abbrev Text := List CodePoint

namespace Text

/-- Ordinary characters as text. -/
def ofChars (s : List Char) : Text := s.map .scalar

/-- A string as text. -/
def ofString (s : String) : Text := ofChars s.toList

instance : Coe String Text := ⟨ofString⟩

/-- The characters of a text without surrogates. -/
def chars? (t : Text) : Option (List Char) := t.mapM CodePoint.char?

/-- The text as a string, a replacement character standing for each surrogate. -/
def shown (t : Text) : String := String.ofList (t.map CodePoint.shown)

theorem chars?_ofChars (s : List Char) : chars? (ofChars s) = some s := by
  induction s with
  | nil => rfl
  | cons c s ih => simp_all [chars?, ofChars, CodePoint.char?]

end Text

end RouteScribe
