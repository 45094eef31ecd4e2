import RouteScribe.CommandLine.Commands
import RouteScribe.Settings.EnvFile

/-!
# What a call touches

Before a call is carried out its arguments tell which directory it searches and which file it may
write, and the files with environment variables tell which variables count.  Nothing outside this
scope has a part in the call.
-/

namespace RouteScribe

namespace CommandLine

/-- The command of a call and the settings of its options, unless the arguments are wrong. -/
def settings? (arguments : List (List Char)) : Option (Command × Parsed) := do
  let p ← (Options.parse [.showHelp] false arguments {}).toOption
  match p.rest with
  | [] => none
  | name :: rest =>
    let c ← command? name
    let q ← (Options.parse c.allOptions true rest {}).toOption
    some (c, q)

/-- The directory that a call searches. -/
def searched? (arguments : List (List Char)) : Option Path := do
  let (_, p) ← settings? arguments
  (pathOf ((p.value? "dir").getD usualDir)).toOption

/-- The file that a call may write. -/
def target? (arguments : List (List Char)) : Option Path := do
  let (c, p) ← settings? arguments
  guard (c.name = generateCommand.name)
  let c ← (GenerateCall.ofParsed [] p).toOption
  some (c.outputFile.withEnding (lower c.format))

/-- The variables that count when the texts of some environment files are loaded. -/
def variableNames (registry : Registry) (texts : List (List Char)) : List (List Char) :=
  EnvFile.switchName :: GenerateCall.providerVariable :: GenerateCall.modelVariable ::
    (registry.map fun e => e.2.keyVariable) ++ texts.flatMap EnvFile.mentioned

end CommandLine

end RouteScribe
