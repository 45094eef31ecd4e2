import RouteScribe.Files.Disk
import RouteScribe.Settings.Environment
import RouteScribe.Text.Blank
import RouteScribe.Text.Case

/-!
# Files with environment variables

A file binds one name a line, `NAME=value`.  The word `export` may stand before the name, and name
and value may stand in quotes; quoted values reach over line ends and have escapes.  A value
without quotes ends at a comment.  `${NAME}` and `${NAME:-default}` in a value stand for the value
of a variable.  A line that cannot be read is passed over with a warning.

`EnvFile.load` binds the variables of the usual files of a directory, first come first served:
variables that are set already stay as they are.
-/

namespace RouteScribe

namespace EnvFile

/-! ### Reading lines -/

/-- A blank that does not end the line. -/
def isInlineBlank (c : Char) : Bool := isBlank c && c != '\n'

/-- The text without blanks of the same line at its start. -/
def skipInline (s : List Char) : List Char := s.dropWhile isInlineBlank

/-- The text behind the word `export` and blanks, or the text itself. -/
def skipExport (s : List Char) : List Char :=
  if "export".toList.isPrefixOf s then
    match s.drop "export".length with
    | c :: rest => if isInlineBlank c then skipInline rest else s
    | [] => s
  else s

/-- A character of a name without quotes. -/
def isNameChar (c : Char) : Bool := c != '=' && c != '#' && !isBlank c

/-- A name at the start of a text, and the text behind it.  A comment has no name. -/
def name? : List Char → Option (Option (List Char) × List Char)
  | '#' :: rest => some (none, '#' :: rest)
  | '\'' :: rest =>
    match cutAt '\'' rest with
    | (c :: name, some behind) => some (some (c :: name), behind)
    | _ => none
  | s => if (s.takeWhile isNameChar).isEmpty then none
      else some (some (s.takeWhile isNameChar), s.dropWhile isNameChar)

/-- The text up to a quote that no backslash precedes, and the text behind it. -/
def toOpenQuote? (quote : Char) : List Char → Option (List Char × List Char)
  | [] => none
  | '\\' :: c :: rest =>
    if c = quote then (toOpenQuote? quote rest).map fun (s, behind) => ('\\' :: c :: s, behind)
    else (toOpenQuote? quote (c :: rest)).map fun (s, behind) => ('\\' :: s, behind)
  | c :: rest =>
    if c = quote then some ([], rest)
    else (toOpenQuote? quote rest).map fun (s, behind) => (c :: s, behind)

/-- The text up to the last quote, and the text behind it. -/
def toLastQuote? (quote : Char) : List Char → Option (List Char × List Char)
  | [] => none
  | c :: rest =>
    match toLastQuote? quote rest with
    | some (s, behind) => some (c :: s, behind)
    | none => if c = quote then some ([], rest) else none

/-- What stands between quotes: up to the first quote that no backslash precedes, and where there is
none, up to the last quote of all. -/
def quotedValue? (quote : Char) (s : List Char) : Option (List Char × List Char) :=
  match toOpenQuote? quote s with
  | some r => some r
  | none => toLastQuote? quote s

/-- The escapes between single quotes. -/
def singleEscapes : List (Char × Char) := [('\\', '\\'), ('\'', '\'')]

/-- The escapes between double quotes. -/
def doubleEscapes : List (Char × Char) :=
  [('\\', '\\'), ('\'', '\''), ('"', '"'), ('a', '\x07'), ('b', '\x08'), ('f', '\x0c'),
    ('n', '\n'), ('r', '\r'), ('t', '\t'), ('v', '\x0b')]

/-- The text with its escapes replaced by what they stand for. -/
def unescaped (escapes : List (Char × Char)) : List Char → List Char
  | [] => []
  | '\\' :: c :: rest =>
    match escapes.lookup c with
    | some d => d :: unescaped escapes rest
    | none => '\\' :: unescaped escapes (c :: rest)
  | c :: rest => c :: unescaped escapes rest

/-- The text up to a comment: blanks and a number sign. -/
def withoutComment : List Char → List Char
  | [] => []
  | c :: rest =>
    if isBlank c && (rest.dropWhile isBlank).head? == some '#' then [] else c :: withoutComment rest

/-- A value at the start of a text, and the text behind it. -/
def value? : List Char → Option (List Char × List Char)
  | '\'' :: rest => (quotedValue? '\'' rest).map fun (v, s) => (unescaped singleEscapes v, s)
  | '"' :: rest => (quotedValue? '"' rest).map fun (v, s) => (unescaped doubleEscapes v, s)
  | s => some (trimEnd (withoutComment (s.takeWhile (· != '\n'))), s.dropWhile (· != '\n'))

/-- The text behind a comment at its start, or the text itself. -/
def skipComment (s : List Char) : List Char :=
  match skipInline s with
  | '#' :: rest => rest.dropWhile (· != '\n')
  | _ => s

/-- The text behind the end of the line, if nothing else comes first. -/
def lineEnd? (s : List Char) : Option (List Char) :=
  match skipInline s with
  | [] => some []
  | '\n' :: rest => some rest
  | _ => none

/-- What stands on a line. -/
inductive Statement where
  | nothing
  | binding (name : List Char) (value : Option (List Char))
  | invalid
deriving DecidableEq, Repr

/-- A line that cannot be read from some place on: the text behind its end. -/
def givenUp (s : List Char) : Statement × List Char :=
  (.invalid, (s.dropWhile (· != '\n')).drop 1)

/-- The end of a statement. -/
def closed (name value : Option (List Char)) (s : List Char) : Statement × List Char :=
  match lineEnd? (skipComment s) with
  | none => givenUp (skipComment s)
  | some behind =>
    match name with
    | some name => (.binding name value, behind)
    | none => (.nothing, behind)

/-- The statement at the start of a text, and the text behind it. -/
def statement (s : List Char) : Statement × List Char :=
  match s.dropWhile isBlank with
  | [] => (.nothing, [])
  | s =>
    let s := skipExport s
    match name? s with
    | none => givenUp s
    | some (name, s) =>
      match skipInline s with
      | '=' :: rest =>
        match value? (skipInline rest) with
        | none => givenUp (skipInline rest)
        | some (value, s) => closed name (some value) s
      | s => closed name none s

/-- The number of line ends in a text. -/
def lineEnds (s : List Char) : Nat := s.count '\n'

/-- The statements of a text, each with the number of the line on which it starts; `room` bounds
their number. -/
def statementsFrom : Nat → Nat → List Char → List (Nat × Statement)
  | _, _, [] => []
  | 0, _, _ => []
  | room + 1, line, s =>
    let (st, rest) := statement s
    (line, st) :: statementsFrom room (line + (lineEnds s - lineEnds rest)) rest

/-- The statements of a text. -/
def statements (s : List Char) : List (Nat × Statement) := statementsFrom s.length 1 s

/-- The bindings of a text. -/
def bindings (s : List Char) : List (List Char × Option (List Char)) :=
  (statements s).filterMap fun (_, st) =>
    match st with
    | .binding name value => some (name, value)
    | _ => none

/-- The lines that cannot be read. -/
def invalidLines (s : List Char) : List Nat :=
  (statements s).filterMap fun (line, st) => if st = .invalid then some line else none

/-! ### Variables in values -/

/-- A variable in a value. -/
structure Reference where
  name : List Char
  default : Option (List Char)
deriving DecidableEq, Repr

/-- A character of a variable's name. -/
def isReferenceChar (c : Char) : Bool := c != '\x7d' && c != ':'

/-- The variable at the start of a text, and the number of its characters. -/
def reference? : List Char → Option (Reference × Nat)
  | '$' :: '\x7b' :: rest =>
    let name := rest.takeWhile isReferenceChar
    match rest.dropWhile isReferenceChar with
    | '\x7d' :: _ => some (⟨name, none⟩, name.length + 3)
    | ':' :: '-' :: rest =>
      match cutAt '\x7d' rest with
      | (default, some _) => some (⟨name, some default⟩, name.length + default.length + 5)
      | _ => none
    | _ => none
  | _ => none

/-- The text with what its variables stand for; the next `skip` characters belong to a variable. -/
def expandFrom (meaning : Reference → List Char) : Nat → List Char → List Char
  | _, [] => []
  | skip + 1, _ :: rest => expandFrom meaning skip rest
  | 0, c :: rest =>
    match reference? (c :: rest) with
    | some (r, n) => meaning r ++ expandFrom meaning (n - 1) rest
    | none => c :: expandFrom meaning 0 rest

/-- The variables in a value; the next `skip` characters belong to one. -/
def referencesFrom : Nat → List Char → List Reference
  | _, [] => []
  | skip + 1, _ :: rest => referencesFrom skip rest
  | 0, c :: rest =>
    match reference? (c :: rest) with
    | some (r, n) => r :: referencesFrom (n - 1) rest
    | none => referencesFrom 0 rest

/-- The names of the variables that a text binds or refers to. -/
def mentioned (s : List Char) : List (List Char) :=
  (bindings s).flatMap fun (name, value) =>
    name :: (referencesFrom 0 (value.getD [])).map fun r => r.name

/-- Values of the names that a file has bound so far; a name without a value is there too. -/
abbrev Values := List (List Char × Option (List Char))

/-- What a variable stands for: its value in the environment, its value in the file so far, its
default, or nothing. -/
def meaning (env : Environment) (values : Values) (r : Reference) : List Char :=
  match env.get? r.name with
  | some v => v
  | none =>
    match Assoc.get? values r.name with
    | some v => v.getD []
    | none => r.default.getD []

/-- The values of bindings with their variables replaced. -/
def expanded (env : Environment) (bs : List (List Char × Option (List Char))) : Values :=
  bs.foldl (fun values (name, value) =>
    Assoc.set values name (value.map (expandFrom (meaning env values) 0))) []

/-! ### Loading files -/

/-- Why a file cannot be loaded. -/
inductive LoadError where
  | unread (fault : ReadFault)
  | nullCharacter
  | badName
deriving DecidableEq, Repr

/-- The words for a failed loading. -/
def LoadError.message : LoadError → List Char
  | unread fault => fault.message
  | nullCharacter => "embedded null byte".toList
  | badName => "illegal environment variable name".toList

/-- Binds a name unless it is bound already or has no value. -/
def bindNew (env : Environment) (name : List Char) (value : Option (List Char)) :
    Except LoadError Environment :=
  match env.get? name, value with
  | none, some v =>
    if name.contains '\x00' || v.contains '\x00' then .error .nullCharacter
    else if name.contains '=' then .error .badName
    else .ok (env.bind name v)
  | _, _ => .ok env

/-- Binds the names of a file's text. -/
def bindText (env : Environment) (s : List Char) : Except LoadError Environment :=
  (expanded env (bindings s)).foldlM (fun env (name, value) => bindNew env name value) env

/-- The variable that turns the loading off. -/
def switchName : List Char := "PYTHON_DOTENV_DISABLED".toList

/-- The words that turn the loading off. -/
def switchWords : List (List Char) := ["1", "true", "t", "yes", "y"].map String.toList

/-- The loading is turned off. -/
def isOff (env : Environment) : Bool :=
  (env.get? switchName).any fun v => switchWords.any fun w => sameWord w v

/-- The usual files in the order in which they are loaded. -/
def usualNames : List (List Char) :=
  [".env", ".env.local", ".env.development", ".env.dev"].map String.toList

/-- Files that have been found, the environment, and the lines that could not be read. -/
structure Loaded where
  names : List (List Char) := []
  env : Environment
  invalid : List Nat := []

/-- Loads a file of a directory if it is there. -/
def loadOne (d : Disk) (dir : Path) (l : Loaded) (name : List Char) :
    Except LoadError Unit × Loaded :=
  let path := dir.join (Path.ofChars name)
  match d.isFile path with
  | .error f => (.error (.unread (.unreachable f)), l)
  | .ok false => (.ok (), l)
  | .ok true =>
    if isOff l.env then (.ok (), { l with names := l.names ++ [name] })
    else
      match d.readText path with
      | .error f => (.error (.unread f), l)
      | .ok s =>
        let l := { l with invalid := l.invalid ++ invalidLines s }
        match bindText l.env s with
        | .error e => (.error e, l)
        | .ok env => (.ok (), { l with names := l.names ++ [name], env })

/-- Loads files of a directory in turn; the first error ends the loading. -/
def loadFrom (d : Disk) (dir : Path) : List (List Char) → Loaded → Except LoadError Unit × Loaded
  | [], l => (.ok (), l)
  | name :: names, l =>
    match loadOne d dir l name with
    | (.ok (), l) => loadFrom d dir names l
    | (.error e, l) => (.error e, l)

/-- Loads the usual files of a directory. -/
def load (d : Disk) (dir : Path) (env : Environment) : Except LoadError Unit × Loaded :=
  loadFrom d dir usualNames { env }

/-- The warning about a line that cannot be read. -/
def warning (line : Nat) : List Char :=
  "python-dotenv could not parse statement starting at line ".toList ++ Nat.toDigits 10 line

end EnvFile

end RouteScribe
