import RouteScribe.CommandLine.Option

/-!
# Help texts

The help of a command: its usage, what it does, its options and its commands.  Texts are set in
lines of 78 columns; the notes on options stand in a column of their own, behind the names or
below them when those are too long.
-/

namespace RouteScribe

namespace CommandLine

namespace Help

/-- The columns of a line. -/
def width : Nat := 78

/-- The most columns for the names of options before their notes move to the next line. -/
def maxNames : Nat := 30

/-- The blanks behind a column. -/
def gap : Nat := 2

/-- A piece of a text that a line may end behind: a word, or the part of a word up to a hyphen
between letters. -/
def cutHyphens : List Char → List (List Char)
  | a :: b :: '-' :: c :: d :: rest =>
    if a.isAlpha && b.isAlpha && c.isAlpha && d.isAlpha then
      [a, b, '-'] :: cutHyphens (c :: d :: rest)
    else
      match cutHyphens (b :: '-' :: c :: d :: rest) with
      | p :: ps => (a :: p) :: ps
      | [] => [[a]]
  | a :: rest =>
    match cutHyphens rest with
    | p :: ps => (a :: p) :: ps
    | [] => [[a]]
  | [] => []

/-- The pieces of a text, blanks among them. -/
def chunks (s : List Char) : List (List Char) :=
  (s.splitBy fun a b => (a == ' ') == (b == ' ')).flatMap fun p =>
    if p.head? == some ' ' then [p] else cutHyphens p

/-- A piece of blanks. -/
def isGap (p : List Char) : Bool := p.head? == some ' '

/-- The line without blanks at its end. -/
def closed (line : List Char) : List Char := (line.reverse.dropWhile (· == ' ')).reverse

/-- Fills lines of a width with pieces; a line does not begin with blanks. -/
def fill (columns : Nat) : List Char → List (List Char) → List (List Char)
  | line, [] => if line.isEmpty then [] else [closed line]
  | line, p :: ps =>
    if line.isEmpty then fill columns (if isGap p then [] else p) ps
    else if line.length + p.length ≤ columns then fill columns (line ++ p) ps
    else closed line :: fill columns (if isGap p then [] else p) ps

/-- The lines of a text in a width. -/
def wrap (columns : Nat) (s : List Char) : List (List Char) := fill columns [] (chunks s)

/-- Blanks at the start of a line. -/
def blanks (n : Nat) : List Char := List.replicate n ' '

/-- A text with a margin of two blanks. -/
def paragraph (s : List Char) : List (List Char) :=
  (wrap (width - gap) s).map fun l => blanks gap ++ l

/-- The width of the first column of a list of pairs. -/
def firstColumn (rows : List (List Char × List Char)) : Nat :=
  min ((rows.map fun r => r.1.length).foldl max 0) maxNames + gap

/-- A pair of names and notes in two columns. -/
def row (first : Nat) (names notes : List Char) : List (List Char) :=
  let lines := wrap (max (width - first - gap) 10) notes
  let margin := blanks (first + gap)
  if names.length + gap ≤ first then
    (blanks gap ++ names ++ blanks (first - names.length) ++ lines.headD []) ::
      lines.tail.map fun l => margin ++ l
  else (blanks gap ++ names) :: lines.map fun l => margin ++ l

/-- Pairs in two columns under a heading. -/
def titled (heading : String) (rows : List (List Char × List Char)) : List (List Char) :=
  [] :: heading.toList :: rows.flatMap fun r => row (firstColumn rows) r.1 r.2

end Help

namespace CommandOption

/-- The word for the value of an option. -/
def valueWord (o : CommandOption) : List Char :=
  match o.takes with
  | .text => " TEXT".toList
  | .path => " PATH".toList
  | .count => " INTEGER RANGE".toList
  | .nothing => []

/-- The names of an option and the word for its value. -/
def heading (o : CommandOption) : List Char := joined ", ".toList o.names ++ o.valueWord

/-- The notes on an option; a number shows its bound. -/
def notes (o : CommandOption) : List Char :=
  o.about.toList ++ if o.takes = .count then "  [x>=1]".toList else []

/-- The option that shows the help. -/
def showHelp : CommandOption := ⟨"help", none, .nothing, "Show this message and exit."⟩

end CommandOption

/-- A command: its name, what it does, and its options. -/
structure Command where
  name : String
  about : String
  options : List CommandOption

namespace Command

/-- The options of a command with the one for its help. -/
def allOptions (c : Command) : List CommandOption := c.options ++ [.showHelp]

end Command

namespace Help

/-- The usage of a command. -/
def usage (path arguments : String) : List Char :=
  ("Usage: " ++ path ++ " " ++ arguments).toList

/-- The help of a command. -/
def ofCommand (program : String) (c : Command) : List (List Char) :=
  usage (program ++ " " ++ c.name) "[OPTIONS]" :: [] :: paragraph c.about.toList ++
    titled "Options:" (c.allOptions.map fun o => (o.heading, o.notes))

/-- The first words of a description, as far as they fit. -/
def short (room : Nat) (about : List Char) : List Char :=
  if about.length ≤ room then about
  else
    let words := pieces ' ' about
    let fits (n : Nat) : Bool := (joined [' '] (words.take n)).length + 3 ≤ room
    joined [' '] (words.take (((List.range words.length).filter fits).getLastD 0)) ++ "...".toList

/-- The help of a program with commands. -/
def ofProgram (program : String) (about : String) (commands : List Command) :
    List (List Char) :=
  let room := width - 6 - (commands.map fun c => c.name.length).foldl max 0
  usage program "[OPTIONS] COMMAND [ARGS]..." :: [] :: paragraph about.toList ++
    titled "Options:" [(CommandOption.showHelp.heading, CommandOption.showHelp.notes)] ++
    titled "Commands:" (commands.map fun c => (c.name.toList, short room c.about.toList))

/-- What is shown about wrong arguments: the usage and how to get help, where they are shown, and
the message. -/
def error (path arguments : String) (e : UsageError) : List (List Char) :=
  (if e.showsUsage then
    [usage path arguments, ("Try '" ++ path ++ " --help' for help.").toList, []]
  else []) ++ ["Error: ".toList ++ e.message]

end Help

end CommandLine

end RouteScribe
