import RouteScribe.Text.Quoted
import RouteScribe.Text.Similar
import RouteScribe.Text.Split

/-!
# Options of a command

An option has a long name, perhaps a letter, and takes a value or none.  `Options.parse` splits the
arguments of a command into settings of options and everything else.  A value stands behind an
equals sign, behind the letter, or in the next argument; two dashes end the options.
-/

namespace RouteScribe

namespace CommandLine

/-- What an option takes. -/
inductive Takes where
  | text
  | path
  /-- A whole number, at least one. -/
  | count
  | nothing
deriving DecidableEq, Repr

/-- An option. -/
structure CommandOption where
  long : String
  letter : Option Char
  takes : Takes
  about : String
deriving Repr

namespace CommandOption

/-- The long name with its dashes. -/
def longName (o : CommandOption) : List Char := '-' :: '-' :: o.long.toList

/-- The names of an option, the short one first. -/
def names (o : CommandOption) : List (List Char) :=
  (o.letter.toList.map fun c => ['-', c]) ++ [o.longName]

end CommandOption

/-- What is wrong with arguments. -/
inductive UsageError where
  | noSuchOption (name : List Char) (similar : List (List Char))
  | needsArgument (name : List Char)
  | takesNoValue (name : List Char)
  | unexpected (arguments : List (List Char))
  | noSuchCommand (name : List Char) (similar : List (List Char))
  | missingCommand
  /-- The value of an option is no whole number. -/
  | noNumber (names : List (List Char)) (value : List Char)
  /-- The value of an option is below one. -/
  | belowOne (names : List (List Char)) (value : Int)
deriving DecidableEq, Repr

namespace UsageError

/-- The names of an option, each between quotes. -/
def named (names : List (List Char)) : List Char :=
  joined " / ".toList (names.map fun n => '\'' :: (n ++ ['\'']))

/-- The hint at similar options. -/
def similarOptions : List (List Char) → List Char
  | [] => []
  | [name] => " Did you mean ".toList ++ name ++ ['?']
  | names => " (Possible options: ".toList ++ joined ", ".toList names ++ [')']

/-- The hint at similar commands. -/
def similarCommands : List (List Char) → List Char
  | [] => []
  | [name] => " Did you mean ".toList ++ quoted name ++ ['?']
  | names => " (Did you mean one of: ".toList ++ joined ", ".toList (names.map quoted) ++ ['?', ')']

/-- The words for wrong arguments. -/
def message : UsageError → List Char
  | noSuchOption name similar => "No such option: ".toList ++ name ++ similarOptions similar
  | needsArgument name => "Option ".toList ++ quoted name ++ " requires an argument.".toList
  | takesNoValue name => "Option ".toList ++ quoted name ++ " does not take a value.".toList
  | unexpected arguments =>
    (if arguments.length = 1 then "Got unexpected extra argument (" else
      "Got unexpected extra arguments (").toList ++ joined [' '] arguments ++ [')']
  | noSuchCommand name similar =>
    "No such command ".toList ++ quoted name ++ ['.'] ++ similarCommands similar
  | missingCommand => "Missing command.".toList
  | noNumber names value =>
    "Invalid value for ".toList ++ named names ++ ": ".toList ++ quoted value ++
      " is not a valid integer range.".toList
  | belowOne names value =>
    "Invalid value for ".toList ++ named names ++ ": ".toList ++ (toString value).toList ++
      " is not in the range x>=1.".toList

/-- The usage of the command is shown before the message. -/
def showsUsage : UsageError → Bool
  | needsArgument _ => false
  | takesNoValue _ => false
  | _ => true

end UsageError

/-- A setting: an option by its long name, with its value if it takes one. -/
structure Setting where
  option : String
  value : Option (List Char)
deriving DecidableEq, Repr

/-- Settings, and the arguments that are no options. -/
structure Parsed where
  settings : List Setting := []
  rest : List (List Char) := []
deriving Repr

namespace Parsed

/-- The value of the last setting of an option. -/
def value? (p : Parsed) (option : String) : Option (List Char) :=
  ((p.settings.filter fun s => s.option = option).getLast?).bind fun s => s.value

/-- The option is set. -/
def has (p : Parsed) (option : String) : Bool := p.settings.any fun s => s.option = option

end Parsed

/-- What an argument with options means: the settings in it, and an option that still waits for its
value in the next argument, with the name it was given under. -/
structure Reading where
  settings : List Setting := []
  pending : Option (List Char × CommandOption) := none

namespace Options

/-- The option of a long name. -/
def ofLong? (os : List CommandOption) (name : List Char) : Option CommandOption :=
  os.find? fun o => o.longName = name

/-- The option of a letter. -/
def ofLetter? (os : List CommandOption) (c : Char) : Option CommandOption :=
  os.find? fun o => o.letter = some c

/-- Reads the letters behind a dash.  The first option that takes a value takes the rest. -/
def readLetters (os : List CommandOption) : List Char → Except UsageError Reading
  | [] => .ok {}
  | c :: rest =>
    match ofLetter? os c with
    | none => .error (.noSuchOption ['-', c] [])
    | some o =>
      if o.takes = .nothing then
        match readLetters os rest with
        | .error e => .error e
        | .ok r => .ok { r with settings := ⟨o.long, none⟩ :: r.settings }
      else if rest.isEmpty then .ok ⟨[], some (['-', c], o)⟩
      else .ok ⟨[⟨o.long, some rest⟩], none⟩

/-- The names that are similar to an unknown one. -/
def similar (os : List CommandOption) (name : List Char) : List (List Char) :=
  similarTo name (os.map CommandOption.longName)

/-- Reads an argument that begins with a dash. -/
def read (os : List CommandOption) (argument : List Char) : Except UsageError Reading :=
  let (name, value) := cutAt '=' argument
  match ofLong? os name with
  | some o =>
    match value with
    | some v =>
      if o.takes = .nothing then .error (.takesNoValue name) else .ok ⟨[⟨o.long, some v⟩], none⟩
    | none =>
      if o.takes = .nothing then .ok ⟨[⟨o.long, none⟩], none⟩ else .ok ⟨[], some (name, o)⟩
  | none =>
    if ['-', '-'].isPrefixOf argument then .error (.noSuchOption name (similar os name))
    else readLetters os (argument.drop 1)

/-- The argument holds options. -/
def isOption (argument : List Char) : Bool := argument.head? == some '-' && argument.length > 1

/-- Splits arguments.  `mixed` tells whether options may follow other arguments. -/
def parse (os : List CommandOption) (mixed : Bool) :
    List (List Char) → Parsed → Except UsageError Parsed
  | [], p => .ok p
  | a :: rest, p =>
    if a = ['-', '-'] then .ok { p with rest := p.rest ++ rest }
    else if isOption a then
      match read os a with
      | .error e => .error e
      | .ok ⟨settings, none⟩ => parse os mixed rest { p with settings := p.settings ++ settings }
      | .ok ⟨settings, some (name, o)⟩ =>
        match rest with
        | [] => .error (.needsArgument name)
        | v :: rest =>
          parse os mixed rest { p with settings := p.settings ++ settings ++ [⟨o.long, some v⟩] }
    else if mixed then parse os mixed rest { p with rest := p.rest ++ [a] }
    else .ok { p with rest := p.rest ++ a :: rest }

end Options

end CommandLine

end RouteScribe
