import RouteScribe.Files.Path
import RouteScribe.Text.Blank

/-!
# API paths

A route file `users/[id]/route.ts` answers the API path `/users/{id}`.  `apiPath` makes this path;
`selects` compares it with a pattern, which names one path or, with `/*` at its end, a path and
everything below it.
-/

namespace RouteScribe

namespace Route

/-- A bracket that opens here closes again behind at least one character. -/
def opensName (rest : List Char) : Bool := rest.head? != some ']' && rest.contains ']'

/-- The text with braces for the brackets around each name, from inside a name or outside. -/
def bracedFrom : Bool → List Char → List Char
  | _, [] => []
  | true, c :: rest =>
    if c = ']' then '\x7d' :: bracedFrom false rest else c :: bracedFrom true rest
  | false, c :: rest =>
    if c = '[' && opensName rest then '\x7b' :: bracedFrom true rest
    else c :: bracedFrom false rest

/-- The text with braces for the brackets around each name. -/
def braced (s : List Char) : List Char := bracedFrom false s

/-- The text with slashes for backslashes. -/
def withSlashes (s : List Char) : List Char := s.map fun c => if c = '\\' then '/' else c

/-- The directory of a route file. -/
def directory (file : List Char) : List Char := (Path.ofChars (withSlashes file)).parent.shown

/-- The API path of a route file. -/
def apiPath (file : List Char) : List Char :=
  let path := '/' :: trimBy (· == '/') (braced (directory file))
  if path = ['/', '.'] then ['/'] else path

/-- The patterns of a list with commas: blanks around a pattern do not count, and nor do blank
patterns. -/
def patterns (value : List Char) : List (List Char) :=
  ((pieces ',' value).map trim).filter fun p => !p.isEmpty

/-- The text without one slash at its end, unless it is the slash alone. -/
def withoutSlash (s : List Char) : List Char :=
  if s.length > 1 && s.getLast? == some '/' then s.dropLast else s

/-- A pattern that covers everything below a path. -/
def coversBelow (pattern : List Char) : Bool := ['/', '*'].isSuffixOf pattern

/-- The pattern selects the API path. -/
def selects (pattern path : List Char) : Bool :=
  if coversBelow pattern then
    let above := pattern.dropLast
    path == above.dropLast || above.isPrefixOf path
  else withoutSlash path == withoutSlash pattern

/-- The files that a list of patterns selects; no patterns select all. -/
def select (patterns : List (List Char)) (files : List (List Char)) : List (List Char) :=
  if patterns.isEmpty then files
  else files.filter fun f => patterns.any fun p => selects p (apiPath f)

end Route

end RouteScribe
