import RouteScribe.Json.Basic
import RouteScribe.Yaml.Scalar

/-!
# Writing YAML

The block form of a JSON value: two columns a level, the items of a list in a member under its
name, empty containers in brackets.  A key that is empty, long or of several lines stands behind a
question mark, and its value behind a colon on the next line.
-/

namespace RouteScribe

namespace Yaml

/-- Double precision numbers in YAML. -/
def realLayout : Binary64.Layout := ⟨true, ".nan", ".inf", "-.inf"⟩

/-- A number in YAML. -/
def numeral : Number → List Char
  | .integer n => (toString n).toList
  | .real x => realLayout.write x

/-- Writes a word that is no string. -/
def writeWord (indent : Nat) (w : List Char) (p : Pen) : Pen :=
  writePlain ⟨indent + 2, true⟩ (Text.ofChars w) p

/-- Writes two brackets with nothing between them. -/
def writeBrackets (left right : Char) (p : Pen) : Pen := (p.markApart left).mark right

/-- Writes a key and the colon behind it, on a line of its own when it needs one. -/
def writeKey (indent : Nat) (k : Text) (p : Pen) : Pen :=
  let p := p.indent indent
  if isSimpleKey k then (writeString ⟨indent + 2, false⟩ k p).mark ':'
  else ((writeString ⟨indent + 2, true⟩ k (p.layoutMark '?')).indent indent).layoutMark ':'

mutual

/-- Writes a value inside a container at column `indent`. -/
def writeValue (indent : Nat) (inMember : Bool) : Json → Pen → Pen
  | .null, p => writeWord indent "null".toList p
  | .bool true, p => writeWord indent "true".toList p
  | .bool false, p => writeWord indent "false".toList p
  | .num n, p => writeWord indent (numeral n) p
  | .str s, p => writeString ⟨indent + 2, true⟩ s p
  | .arr [], p => writeBrackets '[' ']' p
  | .arr (v :: vs), p =>
    let column := if inMember && !p.inMargin then indent else indent + 2
    writeItems column vs (writeValue column false v ((p.indent column).layoutMark '-'))
  | .obj [], p => writeBrackets '\x7b' '\x7d' p
  | .obj ((k, v) :: ms), p =>
    writeMembers (indent + 2) ms (writeValue (indent + 2) true v (writeKey (indent + 2) k p))

/-- Writes the items of a list. -/
def writeItems (column : Nat) : List Json → Pen → Pen
  | [], p => p
  | v :: vs, p =>
    writeItems column vs (writeValue column false v ((p.indent column).layoutMark '-'))

/-- Writes the members of an object. -/
def writeMembers (column : Nat) : List (Text × Json) → Pen → Pen
  | [], p => p
  | (k, v) :: ms, p => writeMembers column ms (writeValue column true v (writeKey column k p))

end

/-- The text of an object. -/
def document : Fields → Text
  | [] => [.scalar '\x7b', .scalar '\x7d', .scalar '\n']
  | ms => ((writeMembers 0 ms {}).indent 0).text

end Yaml

end RouteScribe
