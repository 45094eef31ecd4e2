import RouteScribe.OpenApi.Dump

/-!
# How deep a program can go

Reading a JSON text, searching a directory and dumping a document each take room on the stack for
every level, and each fails where no room is left.  How much there is depends on what the program is
doing when it begins, so a search for a listing and one for a document have limits of their own.
-/

namespace RouteScribe

/-- What a program has room for. -/
structure Limits where
  /-- The levels of a JSON text that can be read. -/
  reading : Nat
  /-- The levels of directories that can be searched for a document. -/
  searching : Nat
  /-- The levels of directories that can be searched for a listing. -/
  listing : Nat
  /-- What dumps documents. -/
  dumper : Dumper

/-- What there is room for on a stack of a thousand calls. -/
def Limits.usual : Limits :=
  { reading := 960, searching := 950, listing := 970, dumper := .ofLimit 259 }

end RouteScribe
