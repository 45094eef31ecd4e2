import RouteScribe.Routes.Method
import RouteScribe.Text.Split

/-!
# The handler of a method

`Handler.find?` cuts the handler of one method out of a source text: an exported function, or an
exported arrow function under the method's name.  Parameters end at the first closing parenthesis
behind which a body opens, and a body ends at the first line that begins with a closing brace.  A
handler with an empty body counts as none.
-/

namespace RouteScribe

/-- The parameters and the body of a handler. -/
structure Handler where
  params : List Char
  body : List Char
deriving DecidableEq, Repr

namespace Handler

open Source

/-- The text behind a name that blanks precede.  A name may begin with blanks itself, so it is also
looked for among them. -/
def named? (name : List Char) : List Char → Option (List Char)
  | [] => none
  | c :: rest =>
    if isBlank c then
      match named? name rest with
      | some s => some s
      | none => word? name rest
    else none

/-- The text behind a character. -/
def char? (p : Char) : List Char → Option (List Char)
  | [] => none
  | c :: s => if c = p then some s else none

/-- The text up to the first line that begins with a closing brace. -/
def body? : List Char → Option (List Char)
  | '\n' :: '\x7d' :: _ => some []
  | c :: rest => (body? rest).map (c :: ·)
  | [] => none

/-- The body of a function behind its parameters: blanks, perhaps a type behind a colon, and the
brace that opens the body. -/
def functionBody? (s : List Char) : Option (List Char) :=
  match skipBlanks s with
  | '\x7b' :: rest => body? rest
  | ':' :: rest => (char? '\x7b' (rest.dropWhile (· != '\x7b'))).bind body?
  | _ => none

/-- The body behind an arrow. -/
def behindArrow? (s : List Char) : Option (List Char) := do
  let s ← char? '=' s
  let s ← char? '>' s
  let s ← char? '\x7b' (skipBlanks s)
  body? s

/-- The body of an arrow function behind its parameters: blanks, perhaps a type behind a colon, the
arrow, and the brace that opens the body. -/
def arrowBody? (s : List Char) : Option (List Char) :=
  match skipBlanks s with
  | ':' :: rest => behindArrow? (rest.dropWhile (· != '='))
  | rest => behindArrow? rest

/-- The parameters up to the first closing parenthesis behind which there is a body, and that
body. -/
def params? (tail? : List Char → Option (List Char)) : List Char → Option Handler
  | [] => none
  | c :: rest =>
    let further := (params? tail? rest).map fun h => { h with params := c :: h.params }
    if c = ')' then
      match tail? rest with
      | some body => some ⟨[], body⟩
      | none => further
    else further

/-- An exported function of the name at the start of a text. -/
def functionHere? (name s : List Char) : Option Handler := do
  let s ← word? "export".toList s
  let s ← blanks? s
  let s ← word? "function".toList (optionalWord "async".toList s)
  let s ← named? name s
  let s ← char? '(' (skipBlanks s)
  params? functionBody? s

/-- The words that bind a name. -/
def bindings : List (List Char) := ["const", "let", "var"].map String.toList

/-- An exported arrow function of the name at the start of a text. -/
def arrowHere? (name s : List Char) : Option Handler := do
  let s ← word? "export".toList s
  let s ← blanks? s
  let s ← oneOf? bindings s
  let s ← named? name s
  let s ← char? '=' (skipBlanks s)
  let s ← char? '(' (optionalWord "async".toList (skipBlanks s))
  params? arrowBody? s

/-- The leftmost place of a text at which a search succeeds. -/
def leftmost? {β : Type} (here? : List Char → Option β) : List Char → Option β
  | [] => none
  | c :: rest =>
    match here? (c :: rest) with
    | some b => some b
    | none => leftmost? here? rest

/-- The handler, unless its body is empty. -/
def nonempty? (h : Handler) : Option Handler := if h.body.isEmpty then none else some h

/-- The handler of a method's name in a source text. -/
def find? (name source : List Char) : Option Handler :=
  match (leftmost? (functionHere? name) source).bind nonempty? with
  | some h => some h
  | none => (leftmost? (arrowHere? name) source).bind nonempty?

/-- The handler in its standard form. -/
def shown (name : List Char) (h : Handler) : List Char :=
  "export async function ".toList ++ name ++ ['('] ++ trim h.params ++ [')', ' ', '\x7b'] ++
    h.body ++ ['\n', '\x7d']

end Handler

/-- The handler of a method in a source text, in its standard form. -/
def handlerSource? (source method : List Char) : Option (List Char) :=
  let name := upper method
  (Handler.find? name source).map (Handler.shown name)

end RouteScribe
