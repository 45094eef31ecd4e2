import RouteScribe.CommandLine.Run
import RouteScribe.CommandLine.Scope
import RouteScribe.Json.Printer
import RouteScribe.Json.Reader
import RouteScribe.Providers.Exchange

/-!
# The program

The outermost layer.  It takes from the system what a call touches, runs the call, and gives its
output and the files it has written to the system.

A model is reached through the standard input: the requests of the call are written to the file that
`ROUTE_SCRIBE_REQUESTS` names, and the replies are read from the standard input, one JSON object on
each line in the order of the requests.
-/

namespace RouteScribe

namespace Program

/-! ### What the system holds -/

/-- The path of a list of names as the system writes it. -/
def pathText (names : List FileName) : String := String.ofList ('/' :: joined ['/'] names)

/-- A file of this name counts with its bytes. -/
def counts (name : FileName) : Bool :=
  Route.isRouteFileName name || EnvFile.usualNames.contains name

/-- A file at a place, with its bytes if they count. -/
def fileAt (place : String) (name : FileName) : IO (Option FileTree) := do
  if !counts name then return some (.file [])
  let .ok bytes ← (IO.FS.readBinFile place).toBaseIO | return none
  return some (.file bytes.toList)

/-- The text is too long for a path of the system. -/
def isTooLong (place : String) : Bool := place.utf8ByteSize > Path.maxBytes

/-- What stands at a place under a name, where so many bytes are left for the paths below it.  A link
to a directory is passed over, so that no directory is met twice.  What stands at a place that is too
long for the system cannot be seen; it counts as an empty directory, at which every search for the
place stops. -/
def treeAt : Nat → String → FileName → IO (Option FileTree)
  | 0, _, _ => return some (.directory [])
  | left + 1, place, name => do
    if isTooLong place then return some (.directory [])
    let .ok path ← (IO.FS.realPath place).toBaseIO | return none
    if !(← path.isDir) then return ← fileAt place name
    if toString path != place then return none
    let .ok found ← path.readDir.toBaseIO | return some (.directory [])
    let entries ← found.toList.filterMapM fun e => do
      let name := e.fileName.toList
      return (← treeAt left (toString e.path) name).map fun t => (name, t)
    return some (.directory entries)

/-- The tree with what stands at one place, if anything does. -/
def withPlace (t : FileTree) (names : List FileName) : IO FileTree := do
  if (t.get? names).isSome then return t
  let .ok path ← (IO.FS.realPath (pathText names)).toBaseIO | return t
  if ← path.isDir then return t.put names (.directory [])
  let file ← fileAt (pathText names) (names.getLastD [])
  return (file.map (t.put names)).getD t

/-- The tree with what stands on the way to a path and at its end. -/
def withWay (here : List FileName) (t : FileTree) (p : Path) : IO FileTree := do
  let start := if p.anchor = .relative then here else []
  (List.range (p.names.length + 1)).foldlM
    (fun t n => withPlace t (Path.climbed start (p.names.take n))) t

open CommandLine in
/-- The files and directories that a call touches. -/
def diskFor (here : List FileName) (arguments : List (List Char)) : IO Disk := do
  let ways := ⟨.root, here⟩ :: (EnvFile.usualNames.map fun n => ⟨.relative, [n]⟩) ++
    (searched? arguments).toList ++ (target? arguments).toList
  let t ← ways.foldlM (withWay here) (.directory [])
  let some p := searched? arguments | return ⟨t, here⟩
  let names := (p.resolve here).names
  let .ok root ← (IO.FS.realPath (pathText names)).toBaseIO | return ⟨t, here⟩
  -- A name takes a byte at least, so the places are too long before the bytes are used up.
  let found ← treeAt (Path.maxBytes + 1) (toString root) []
  return ⟨(found.map (t.put names)).getD t, here⟩

/-- The variables that count for a disk. -/
def environmentFor (d : Disk) : IO Environment := do
  let texts := EnvFile.usualNames.filterMap fun n => (d.readText ⟨.relative, [n]⟩).toOption
  (CommandLine.variableNames Registry.builtin texts).filterMapM fun name => do
    return (← IO.getEnv (String.ofList name)).map fun v => (name, v.toList)

/-- The reading of the clock in seconds. -/
def now : IO Number := do
  return .real (.ofDecimal false (← IO.monoMsNow) (-3))

/-! ### Talking to a model -/

/-- Writes the requests where they are asked for. -/
def writeRequests (requests : List ModelRequest) : IO Unit := do
  let some file ← IO.getEnv "ROUTE_SCRIBE_REQUESTS" | return
  IO.FS.writeFile file
    (Text.shown (Json.indented .ascii (.arr (requests.map ModelRequest.toJson))) ++ "\n")

/-- Reads the reply to each request. -/
def readReplies (requests : List ModelRequest) : IO (List (ModelRequest × ModelReply)) := do
  let input ← IO.getStdin
  requests.mapM fun r => do
    let line ← input.getLine
    return (r, match Json.read Limits.usual.reading (Text.ofString line) with
      | .ok v => ModelReply.ofJson v
      | .error _ => .missing)

/-! ### What a call leaves behind -/

/-- Writes the files that a call has changed. -/
def writeChanges (before after : FileTree) : IO Unit := do
  let old := before.files
  for (names, bytes) in after.files do
    unless old.contains (names, bytes) do
      IO.FS.createDirAll (pathText names.dropLast)
      IO.FS.writeBinFile (pathText names) ⟨bytes.toArray⟩

/-- Carries out a call and answers its exit code. -/
def carryOut (arguments : List (List Char)) : IO UInt32 := do
  let here := (Path.ofString (toString (← IO.currentDir))).names
  let disk ← diskFor here arguments
  let call : CommandLine.Invocation :=
    { arguments, disk, clock := [], registry := Registry.builtin, answer := fun _ => .missing
      env := ← environmentFor disk, color := ← (← IO.getStdout).isTty }
  let started ← now
  let requests := call.run.requests
  writeRequests requests
  let replies ← readReplies requests
  let f := { call with clock := [started, ← now], answer := ModelReply.among replies }.run
  writeChanges disk.tree f.disk.tree
  IO.print (String.ofList f.output.out)
  IO.eprint (String.ofList f.output.err)
  if let some crash := f.crash then IO.eprintln (String.ofList crash.message)
  return f.exitCode.toUInt32

end Program

end RouteScribe

/-- Runs the program with its arguments. -/
def main (arguments : List String) : IO UInt32 :=
  RouteScribe.Program.carryOut (arguments.map String.toList)
