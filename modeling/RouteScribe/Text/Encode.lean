import RouteScribe.Text.CodePoint
import RouteScribe.Text.Utf8

/-!
# Text as bytes

`Text.encode` writes a text in UTF-8.  It fails exactly when the text holds a surrogate; the failure
names the first row of surrogates.
-/

namespace RouteScribe

/-- A row of surrogates: the number of the first one, its index, and how many they are. -/
structure Unencodable where
  code : Nat
  index : Nat
  count : Nat
deriving DecidableEq, Repr

/-- The words for a row of surrogates. -/
def Unencodable.message (u : Unencodable) : String :=
  let what :=
    if u.count = 1 then
      "character '\\u" ++ String.ofList (Nat.toDigits 16 u.code) ++ "' in position " ++
        toString u.index
    else "characters in position " ++ toString u.index ++ "-" ++ toString (u.index + u.count - 1)
  "'utf-8' codec can't encode " ++ what ++ ": surrogates not allowed"

namespace Text

/-- The code point is no surrogate. -/
def isScalar (c : CodePoint) : Bool := c.char?.isSome

/-- The first row of surrogates of a text. -/
def firstUnencodable? (t : Text) : Option Unencodable :=
  match t.dropWhile isScalar with
  | [] => none
  | c :: rest =>
    some ⟨c.code, (t.takeWhile isScalar).length, (rest.takeWhile fun d => !isScalar d).length + 1⟩

/-- The bytes of a text. -/
def encode (t : Text) : Except Unencodable (List UInt8) :=
  match t.firstUnencodable? with
  | some u => .error u
  | none => .ok (t.flatMap fun c => c.char?.elim [] String.utf8EncodeChar)

end Text

end RouteScribe
