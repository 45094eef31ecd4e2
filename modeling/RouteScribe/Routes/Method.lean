import RouteScribe.Text.Blank
import RouteScribe.Text.Case
import RouteScribe.Text.Order
import RouteScribe.Text.Word

/-!
# The methods of a route file

A route file answers a method when it exports something under the method's name.  `exportedMethods`
finds the exports by their form: the word `export`, perhaps `async`, a word that declares, and a
method's name that ends there, all words in any case and parted by blanks.
-/

namespace RouteScribe

/-- The name of a method in lower case. -/
abbrev Method := List Char

namespace Method

/-- The methods in their order. -/
def known : List Method :=
  ["get", "post", "put", "patch", "delete", "options", "head"].map String.toList

/-- The place of a method in the order; unknown methods come last. -/
def rank (m : Method) : Nat := known.idxOf m

/-- The order of methods: known ones by their place, others behind them by their names. -/
def le (m n : Method) : Bool := if m.rank = n.rank then textLe m n else m.rank < n.rank

/-- The methods in order. -/
def sort (ms : List Method) : List Method := ms.mergeSort fun m n => le m n

end Method

namespace Source

/-- The text behind a word in any case. -/
def word? : List Char → List Char → Option (List Char)
  | [], s => some s
  | _ :: _, [] => none
  | p :: ps, c :: s => if sameLetter p c then word? ps s else none

/-- The text behind one blank or more. -/
def blanks? : List Char → Option (List Char)
  | [] => none
  | c :: s => if isBlank c then some (s.dropWhile isBlank) else none

/-- The text without the blanks at its start. -/
def skipBlanks (s : List Char) : List Char := s.dropWhile isBlank

/-- The text behind a word and blanks, or the text itself where the word is missing. -/
def optionalWord (w s : List Char) : List Char := ((word? w s).bind blanks?).getD s

/-- The text behind one of some words. -/
def oneOf? (ws : List (List Char)) (s : List Char) : Option (List Char) :=
  ws.findSome? fun w => word? w s

/-- No word goes on at the start of the text. -/
def wordEnds : List Char → Bool
  | [] => true
  | c :: _ => !isWord c

/-- The words that declare something. -/
def declarations : List (List Char) := ["function", "const", "let", "var"].map String.toList

/-- The names of the methods as they are written in exports. -/
def methodNames : List (List Char) := Method.known.map upper

/-- The name of a method at the start of a text, and the text behind it. -/
def methodName? (s : List Char) : Option (List Char × List Char) :=
  methodNames.findSome? fun name =>
    (word? name s).bind fun rest =>
      if wordEnds rest then some (s.take name.length, rest) else none

/-- The name of a method that is exported at the start of a text, and the text behind the name. -/
def exportHere? (s : List Char) : Option (List Char × List Char) := do
  let s ← word? "export".toList s
  let s ← blanks? s
  let s ← oneOf? declarations (optionalWord "async".toList s)
  let s ← blanks? s
  methodName? s

/-- The names of methods that a text exports, from the left.  An export begins behind the end of the
one before it; `skip` characters belong to that one still. -/
def exportsFrom : Nat → List Char → List (List Char)
  | _, [] => []
  | skip + 1, _ :: rest => exportsFrom skip rest
  | 0, c :: rest =>
    match exportHere? (c :: rest) with
    | some (name, behind) => name :: exportsFrom (rest.length - behind.length) rest
    | none => exportsFrom 0 rest

/-- The names of methods that a text exports, as they are written. -/
def exports (s : List Char) : List (List Char) := exportsFrom 0 s

end Source

/-- The methods that a source text exports, each once, in order. -/
def exportedMethods (source : List Char) : List Method :=
  Method.sort ((Source.exports source).map lower).eraseDups

end RouteScribe
