import RouteScribe.Assoc
import RouteScribe.Number.Basic
import RouteScribe.Text.CodePoint

/-!
# JSON values

Values with ordered members.  `Fields` is the list of the members of an object: a name is written
once, and writing it again replaces the value and keeps the place.
-/

namespace RouteScribe

/-- A JSON value. -/
inductive Json where
  | null
  | bool (b : Bool)
  | num (n : Number)
  | str (s : Text)
  | arr (items : List Json)
  | obj (members : List (Text × Json))
deriving Repr, Inhabited

/-- The members of an object in order. -/
abbrev Fields := List (Text × Json)

namespace Fields

/-- The value of a member. -/
def get? (fs : Fields) (name : Text) : Option Json := Assoc.get? fs name

/-- A member has this name. -/
def has (fs : Fields) (name : Text) : Bool := fs.any fun f => f.1 == name

/-- Writes a member: in its old place if the name is there, and else at the end. -/
def set (fs : Fields) (name : Text) (v : Json) : Fields := Assoc.set fs name v

/-- The members without those of this name. -/
def erase (fs : Fields) (name : Text) : Fields := fs.filter fun f => f.1 != name

/-- The members of a list of pairs: the last value of a name in the place of the first. -/
def ofPairs (ps : List (Text × Json)) : Fields := Assoc.ofPairs ps

end Fields

namespace Json

/-- An integer as a value. -/
def int (n : Int) : Json := .num (.integer n)

/-- A string as a value. -/
def string (s : String) : Json := .str (Text.ofString s)

/-- Everything but null, false, the zeros and the empty containers and strings. -/
def truthy : Json → Bool
  | null => false
  | bool b => b
  | num n => !n.isZero
  | str s => !s.isEmpty
  | arr items => !items.isEmpty
  | obj members => !members.isEmpty

mutual

/-- Levels of nesting: a value without items counts one. -/
def depth : Json → Nat
  | arr items => 1 + depthOfItems items
  | obj members => 1 + depthOfMembers members
  | _ => 1

/-- The depth of the deepest item. -/
def depthOfItems : List Json → Nat
  | [] => 0
  | v :: rest => max v.depth (depthOfItems rest)

/-- The depth of the deepest member. -/
def depthOfMembers : List (Text × Json) → Nat
  | [] => 0
  | (_, v) :: rest => max v.depth (depthOfMembers rest)

end

/-- The most digits of a whole number that is read or written. -/
def maxIntegerDigits : Nat := 4300

mutual

/-- A whole number in the value has too many digits to be read or written. -/
def hasLongInteger : Json → Bool
  | num (.integer n) => maxIntegerDigits < Binary64.digitCount n.natAbs
  | arr items => anyLongInteger items
  | obj members => anyMemberLongInteger members
  | _ => false

/-- One of the items has such a number. -/
def anyLongInteger : List Json → Bool
  | [] => false
  | v :: rest => v.hasLongInteger || anyLongInteger rest

/-- One of the members has such a number. -/
def anyMemberLongInteger : List (Text × Json) → Bool
  | [] => false
  | (_, v) :: rest => v.hasLongInteger || anyMemberLongInteger rest

end

end Json

end RouteScribe
