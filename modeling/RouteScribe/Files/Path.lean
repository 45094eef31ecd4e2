import RouteScribe.Text.Split

/-!
# Paths

A path is the list of the names on the way to a file, from the root or from somewhere else.  Empty
names and single points are left out when a path is read, double points are kept.  Two leading
slashes are a root of their own; three or more count as one.  A name may have an ending, which its
last point cuts off (`FileName.cut`).
-/

namespace RouteScribe

/-- One name of a path. -/
abbrev FileName := List Char

namespace FileName

/-- What stands before the ending of a name, and the ending with its point.  They are parted at the
last point of the name, and there is no ending if this is its first or its last character. -/
def cut (n : FileName) : List Char × List Char :=
  let ending := (n.reverse.takeWhile (· != '.')).reverse
  let before := (n.reverse.dropWhile (· != '.')).tail.reverse
  if before.isEmpty || ending.isEmpty then (n, []) else (before, '.' :: ending)

end FileName

/-- Where a path starts. -/
inductive Anchor where
  | relative
  | root
  | doubleRoot
deriving DecidableEq, Repr, Inhabited

/-- The slashes of a start. -/
def Anchor.shown : Anchor → List Char
  | relative => []
  | root => ['/']
  | doubleRoot => ['/', '/']

/-- A path. -/
structure Path where
  anchor : Anchor
  names : List FileName
deriving DecidableEq, Repr, Inhabited

namespace Path

/-- The name of the directory above. -/
def up : FileName := ['.', '.']

/-- The start that a text has. -/
def anchorOf (s : List Char) : Anchor :=
  match (s.takeWhile (· == '/')).length with
  | 0 => .relative
  | 2 => .doubleRoot
  | _ => .root

/-- The names in a text. -/
def namesOf (s : List Char) : List FileName :=
  (pieces '/' s).filter fun n => !n.isEmpty && n != ['.']

/-- The path of a text. -/
def ofChars (s : List Char) : Path := ⟨anchorOf s, namesOf s⟩

/-- The path of a string. -/
def ofString (s : String) : Path := ofChars s.toList

/-- The text of a path; the empty relative path is a point. -/
def shown (p : Path) : List Char :=
  if p.anchor = .relative && p.names.isEmpty then ['.']
  else p.anchor.shown ++ joined ['/'] p.names

/-- The path without its last name. -/
def parent (p : Path) : Path := { p with names := p.names.dropLast }

/-- The path of what names lead to from a path. -/
def below (p : Path) (ns : List FileName) : Path := { p with names := p.names ++ ns }

/-- A path seen from another one. -/
def join (p q : Path) : Path :=
  if q.anchor = .relative then { p with names := p.names ++ q.names } else q

/-- A path with a point and an ending behind its text. -/
def withEnding (p : Path) (ending : List Char) : Path := ofChars (p.shown ++ '.' :: ending)

/-- The names of an absolute path with the steps upwards taken, as far as the root allows. -/
def climbed : List FileName → List FileName → List FileName
  | done, [] => done
  | done, n :: rest => if n = up then climbed done.dropLast rest else climbed (done ++ [n]) rest

/-- The absolute path of a path in a working directory, with the steps upwards taken. -/
def resolve (here : List FileName) (p : Path) : Path :=
  match p.anchor with
  | .relative => ⟨.root, climbed here p.names⟩
  | a => ⟨a, climbed [] p.names⟩

end Path

end RouteScribe
