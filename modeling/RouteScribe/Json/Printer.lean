import RouteScribe.Json.Basic

/-!
# Writing JSON

The indented form: two spaces a level, one item or member a line, empty containers closed at once.
Strings escape the quote, the backslash and the control characters; under `Escaping.ascii` also
everything outside printable ASCII, where a character beyond U+FFFF becomes a surrogate pair.
-/

namespace RouteScribe

/-- Which characters of a string are escaped. -/
inductive Escaping where
  /-- Only what the grammar demands. -/
  | minimal
  /-- Everything outside printable ASCII as well. -/
  | ascii
deriving DecidableEq, Repr

namespace Json

/-- A hexadecimal digit in lower case. -/
def hexChar (n : Nat) : Char := (Nat.digitChar n)

/-- Four hexadecimal digits. -/
def hex4 (n : Nat) : List Char :=
  [hexChar (n / 4096 % 16), hexChar (n / 256 % 16), hexChar (n / 16 % 16), hexChar (n % 16)]

/-- The escape of a 16-bit unit. -/
def unitEscape (n : Nat) : List Char := '\\' :: 'u' :: hex4 n

/-- The escape of a code point by one unit or by a surrogate pair. -/
def longEscape (n : Nat) : List Char :=
  if n < 0x10000 then unitEscape n
  else unitEscape (0xD800 + (n - 0x10000) / 0x400) ++ unitEscape (0xDC00 + (n - 0x10000) % 0x400)

/-- One code point inside a string. -/
def escaped (mode : Escaping) (c : CodePoint) : Text :=
  let n := c.code
  if c = '"' then ['\\', '"']
  else if c = '\\' then ['\\', '\\']
  else if c = '\n' then ['\\', 'n']
  else if c = '\r' then ['\\', 'r']
  else if c = '\t' then ['\\', 't']
  else if c = '\x08' then ['\\', 'b']
  else if c = '\x0c' then ['\\', 'f']
  else if n < 0x20 then Text.ofChars (unitEscape n)
  else if mode = .ascii && n > 0x7E then Text.ofChars (longEscape n)
  else [c]

/-- A string in quotes. -/
def quoted (mode : Escaping) (s : Text) : Text :=
  .scalar '"' :: (s.flatMap (escaped mode) ++ [.scalar '"'])

/-- Double precision numbers in JSON. -/
def realLayout : Binary64.Layout := ⟨false, "NaN", "Infinity", "-Infinity"⟩

/-- A number in JSON. -/
def numeral : Number → List Char
  | .integer n => (toString n).toList
  | .real x => realLayout.write x

/-- The start of a line at a level. -/
def newline (level : Nat) : Text :=
  .scalar '\n' :: List.replicate (2 * level) (.scalar ' ')

mutual

/-- A value in the indented form, inside `level` containers. -/
def render (mode : Escaping) (level : Nat) : Json → Text
  | .null => "null"
  | .bool true => "true"
  | .bool false => "false"
  | .num n => Text.ofChars (numeral n)
  | .str s => quoted mode s
  | .arr [] => "[]"
  | .arr (v :: vs) =>
    .scalar '[' :: (newline (level + 1) ++ render mode (level + 1) v ++
      renderItems mode (level + 1) vs ++ newline level ++ [.scalar ']'])
  | .obj [] => [.scalar '\x7b', .scalar '\x7d']
  | .obj ((k, v) :: ms) =>
    .scalar '\x7b' :: (newline (level + 1) ++ quoted mode k ++ [.scalar ':', .scalar ' '] ++
      render mode (level + 1) v ++ renderMembers mode (level + 1) ms ++ newline level ++
      [.scalar '\x7d'])

/-- The items behind the first one. -/
def renderItems (mode : Escaping) (level : Nat) : List Json → Text
  | [] => []
  | v :: vs =>
    .scalar ',' :: (newline level ++ render mode level v ++ renderItems mode level vs)

/-- The members behind the first one. -/
def renderMembers (mode : Escaping) (level : Nat) : List (Text × Json) → Text
  | [] => []
  | (k, v) :: ms =>
    .scalar ',' :: (newline level ++ quoted mode k ++ [.scalar ':', .scalar ' '] ++
      render mode level v ++ renderMembers mode level ms)

end

/-- The indented text of a value. -/
def indented (mode : Escaping) (v : Json) : Text := render mode 0 v

end Json

end RouteScribe
