import RouteScribe.CommandLine.Commands
import RouteScribe.Generation.Pipeline
import RouteScribe.Settings.EnvFile

/-!
# Running the program

`run` carries out a call of the program: it finds the command, loads the files with environment
variables, reads the arguments of the command and does what it says.  The exit code is 0 when all
went well, 1 when the command fails, and 2 when the arguments are wrong.  A `Crash` is a failure
that is not reported as a message.
-/

namespace RouteScribe

namespace CommandLine

/-- A call of the program and what it works with. -/
structure Invocation where
  arguments : List (List Char)
  env : Environment
  disk : Disk
  clock : List Number
  color : Bool
  registry : Registry
  answer : ModelRequest → ModelReply
  delay : RouteQuery → Nat := fun _ => 0
  schedule : Schedule := .fair
  limits : Limits := .usual
  remarks : Remarks := .none

/-- A failure that no message reports. -/
inductive Crash where
  | envFile (error : EnvFile.LoadError)
  | nullPath
  | search (error : Route.DiscoveryError)
  | generation (error : GenerationError)
deriving DecidableEq, Repr

/-- The words for a crash. -/
def Crash.message : Crash → List Char
  | envFile error => error.message
  | nullPath => "embedded null byte".toList
  | search error => error.message
  | generation error => error.message

/-- A call that has ended. -/
structure Finished where
  exitCode : Nat
  output : Log.Output
  crash : Option Crash := none
  disk : Disk
  requests : List ModelRequest := []

namespace Invocation

/-- The console for the messages of a call. -/
def console (i : Invocation) (verbose : Bool) : Log.Console :=
  { level := if verbose then .debug else .info, color := i.color }

/-- Lines on one of the streams. -/
def lines (i : Invocation) (toErr : Bool) (ls : List (List Char)) : Log.Output :=
  (i.console false).written toErr ls

/-- A call that ends with lines on one of the streams. -/
def said (i : Invocation) (exitCode : Nat) (toErr : Bool) (ls : List (List Char)) : Finished :=
  { exitCode, output := i.lines toErr ls, disk := i.disk }

/-- What a generation in a call works with. -/
def workplace (i : Invocation) : Workplace :=
  { registry := i.registry, clock := i.clock, disk := i.disk, answer := i.answer, delay := i.delay
    schedule := i.schedule, limits := i.limits, remarks := i.remarks }

/-- A command that fails with a message. -/
def failed (i : Invocation) (before : Log.Output) (message : List Char) : Finished :=
  { exitCode := 1, output := before.append (i.lines true ["Error: ".toList ++ message])
    disk := i.disk }

/-- A call that crashes. -/
def crashed (i : Invocation) (before : Log.Output) (crash : Crash) : Finished :=
  { exitCode := 1, output := before, crash := some crash, disk := i.disk }

end Invocation

/-! ### Making a document -/

/-- The failure is reported by a message. -/
def isReported : GenerationError → Bool
  | .configuration _ => true
  | .discovery error => error != .tooDeep
  | .setup (.choice _) => true
  | .writing (.noFile fault) => fault.kind != .nullCharacter
  | _ => false

/-- Carries out a call of `generate`. -/
def GenerateCall.run (i : Invocation) (env : Environment) (c : GenerateCall) : Finished :=
  match c.options? i.registry env i.disk.here with
  | none => i.failed {} noServers.toList
  | some o =>
    let g := generate i.workplace o
    let shown := (i.console c.verbose).printAll g.entries
    let ended (f : Finished) : Finished := { f with disk := g.disk, requests := g.requests }
    match g.outcome with
    | .ok _ => ended ⟨0, shown, none, i.disk, []⟩
    | .error e =>
      ended (if isReported e then i.failed shown e.message else i.crashed shown (.generation e))

/-! ### Showing the routes -/

/-- What the table says about the methods of a file, and the warning about a file that cannot be
read. -/
def methodsCell (d : Disk) (dir : Path) (file : List Char) : List Char × List Log.Entry :=
  match d.readText (dir.join (Path.ofChars file)) with
  | .error fault =>
    ("(unreadable)".toList,
      [.line .warn ("Cannot read \"".toList ++ file ++ "\": ".toList ++ fault.message) none])
  | .ok source =>
    match exportedMethods source with
    | [] => (['-'], [])
    | methods => (Survey.listed (methods.map upper), [])

/-- The row of a file in the table of routes. -/
def routeRow (d : Disk) (dir : Path) (file : List Char) : Log.Row :=
  [("path".toList, Route.apiPath file), ("methods".toList, (methodsCell d dir file).1),
    ("file".toList, file)]

/-- The messages about the routes of files. -/
def routeEntries (d : Disk) (dir : Path) (files : List (List Char)) : List Log.Entry :=
  (files.flatMap fun f => (methodsCell d dir f).2) ++
    [.table (["path", "methods", "file"].map String.toList) (files.map (routeRow d dir))]

/-- The route files that a call of `list-routes` selects, with room for so many levels of
directories. -/
def ListCall.files (c : ListCall) (room : Nat) (d : Disk) :
    Except Route.DiscoveryError (List (List Char)) :=
  (Route.locate room d c.dir).map (Route.select (GenerateCall.patterns c.routes))

/-- The failed search for a listing is reported by a message. -/
def isReportedSearch : Route.DiscoveryError → Bool
  | .notDirectory _ => true
  | .unreadable _ _ => true
  | _ => false

/-- Carries out a call of `list-routes`. -/
def ListCall.run (i : Invocation) (c : ListCall) : Finished :=
  match c.files i.limits.listing i.disk with
  | .error e => if isReportedSearch e then i.failed {} e.message else i.crashed {} (.search e)
  | .ok [] => i.said 0 false ["No matching route files found.".toList]
  | .ok files =>
    let shown := (i.console false).printAll (routeEntries i.disk c.dir files)
    let count := ("Found " ++ toString files.length ++ " route files.").toList
    { exitCode := 0, output := shown.append (i.lines false [count]), disk := i.disk }

/-! ### Finding the command -/

namespace Invocation

/-- The help of the program. -/
def programHelp : List (List Char) := Help.ofProgram program aboutProgram commands

/-- Wrong arguments of the program itself. -/
def misused (i : Invocation) (e : UsageError) : Finished :=
  i.said 2 true (Help.error program "[OPTIONS] COMMAND [ARGS]..." e)

/-- Wrong arguments of a command. -/
def misusedBy (i : Invocation) (c : Command) (e : UsageError) : Finished :=
  i.said 2 true (Help.error (program ++ " " ++ c.name) "[OPTIONS]" e)

/-- A call that is not carried out. -/
def refused (i : Invocation) (c : Command) : CallError → Finished
  | .usage e => i.misusedBy c e
  | .nullPath => i.crashed {} .nullPath

/-- Carries out what has been read, unless arguments are left. -/
def carryOut {α : Type} (i : Invocation) (c : Command) (p : Parsed) (call : Except CallError α)
    (run : α → Finished) : Finished :=
  match call with
  | .error e => i.refused c e
  | .ok call => if p.rest.isEmpty then run call else i.misusedBy c (.unexpected p.rest)

/-- Runs a command with its arguments. -/
def runCommand (i : Invocation) (env : Environment) (c : Command) (arguments : List (List Char)) :
    Finished :=
  match Options.parse c.allOptions true arguments {} with
  | .error e => i.misusedBy c e
  | .ok p =>
    if p.has "help" then i.said 0 false (Help.ofCommand program c)
    else if c.name = generateCommand.name then
      i.carryOut c p (GenerateCall.ofParsed env p) (GenerateCall.run i env)
    else i.carryOut c p (ListCall.ofParsed p) (ListCall.run i)

/-- The warnings about lines of environment files. -/
def warnings (ls : List Nat) : Log.Output :=
  ⟨[], ls.flatMap fun l => EnvFile.warning l ++ ['\n']⟩

/-- Loads the environment files of the working directory and runs a command. -/
def runLoaded (i : Invocation) (c : Command) (arguments : List (List Char)) : Finished :=
  match EnvFile.load i.disk ⟨.root, i.disk.here⟩ i.env with
  | (.error e, l) => i.crashed (warnings l.invalid) (.envFile e)
  | (.ok (), l) =>
    let f := i.runCommand l.env c arguments
    { f with output := (warnings l.invalid).append f.output }

/-- The answer to a name that is no command.  It may be meant as an option of the program. -/
def noCommand (i : Invocation) (name : List Char) (arguments : List (List Char)) : Finished :=
  match Options.parse [.showHelp] false (name :: arguments) {} with
  | .error e => i.misused e
  | .ok p =>
    if p.has "help" then i.said 0 false programHelp
    else i.misused (.noSuchCommand name (similarTo name (commands.map fun c => c.name.toList)))

/-- Runs the program. -/
def run (i : Invocation) : Finished :=
  if i.arguments.isEmpty then i.said 2 true programHelp
  else
    match Options.parse [.showHelp] false i.arguments {} with
    | .error e => i.misused e
    | .ok p =>
      if p.has "help" then i.said 0 false programHelp
      else
        match p.rest with
        | [] => i.misused .missingCommand
        | name :: arguments =>
          match command? name with
          | some c => i.runLoaded c arguments
          | none => i.noCommand name arguments

end Invocation

end CommandLine

end RouteScribe
