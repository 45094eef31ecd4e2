import RouteScribe.Assoc

/-!
# Environment variables

An environment binds names to texts.  A name is bound once.
-/

namespace RouteScribe

/-- Names and the texts they are bound to. -/
abbrev Environment := List (List Char × List Char)

namespace Environment

/-- The text that a name is bound to. -/
def get? (env : Environment) (name : List Char) : Option (List Char) := Assoc.get? env name

/-- The environment with a name bound to a text. -/
def bind (env : Environment) (name v : List Char) : Environment := Assoc.set env name v

/-- The text of a name, unless it is empty. -/
def nonempty? (env : Environment) (name : List Char) : Option (List Char) :=
  match env.get? name with
  | some (c :: rest) => some (c :: rest)
  | _ => none

end Environment

end RouteScribe
