import RouteScribe.Generation.Options
import RouteScribe.Limits
import RouteScribe.OpenApi.Assemble
import RouteScribe.OpenApi.Write
import RouteScribe.Providers.Setup
import RouteScribe.Routes.Discovery
import RouteScribe.Survey.Run

/-!
# Generating a document

`generate` finds the route files, sets up what describes them, surveys them, assembles a document
from what was found, and writes it.  Wrong options and a missing directory are errors.  When there is
nothing to write the answer is no file, and the messages say why.
-/

namespace RouteScribe

/-- Why a generation fails. -/
inductive GenerationError where
  | configuration (error : ConfigurationError)
  | discovery (error : Route.DiscoveryError)
  | setup (error : SetupError)
  | concurrency (error : Pool.BadLimit)
  /-- A route file has a name that no file can have. -/
  | fileName (fault : FileFault)
  | writing (error : WriteError)
deriving DecidableEq, Repr

/-- The words for a failed generation. -/
def GenerationError.message : GenerationError → List Char
  | configuration error => error.message
  | discovery error => error.message
  | setup error => error.message
  | concurrency error => error.message.toList
  | fileName fault => fault.message
  | writing error => error.message

/-- A generation that has ended: the file that was written or why it failed, the messages, the disk,
the route files that were opened, the calls in the order in which they began, what these asked a
model, and the document that was to be written. -/
structure Generated where
  outcome : Except GenerationError (Option Path)
  entries : List Log.Entry
  disk : Disk
  reads : List (List Char) := []
  queries : List RouteQuery := []
  requests : List ModelRequest := []
  document : Option Document := none

/-- What a generation works with: the known providers, the readings of a clock, the disk, a model
that answers after a while, what describes the routes when it is not that model, the order in which
the files are worked on, how deep the program can go, and what it remarks about wrong replies. -/
structure Workplace where
  registry : Registry
  clock : List Number
  disk : Disk
  answer : ModelRequest → ModelReply
  delay : RouteQuery → Nat := fun _ => 0
  describer : Option Describer := none
  schedule : Schedule := .fair
  limits : Limits := .usual
  remarks : Remarks := .none

namespace Workplace

/-- A reading of the clock, which shows zero when nothing is left. -/
def reading (w : Workplace) (n : Nat) : Number := w.clock.getD n (.real (.zero false))

/-- What describes the routes: a describer that is at hand, or else the chosen provider, which has to
be set up. -/
def describerFor (w : Workplace) (o : GeneratorOptions) : Except SetupError Describer :=
  match w.describer with
  | some d => .ok d
  | none =>
    (w.registry.create o.provider o.key o.model).map fun ready =>
      ready.client.describer ready.name w.disk w.limits.reading w.remarks w.answer w.delay

end Workplace

namespace Generation

open Log (Entry)

/-- The messages before the route files are looked for. -/
def opening (o : GeneratorOptions) (p : Provider) : List Entry :=
  [.header "Generating OpenAPI specs...".toList,
    .line .info "Configuration:".toList (some (.obj [
      ("provider", .str (Text.ofChars o.provider)),
      ("model", .str (Text.ofChars (p.model o.model))),
      ("format", .str (Text.ofChars o.format))])),
    .separator]

/-- There are no route files. -/
def noFiles (o : GeneratorOptions) : Entry :=
  .line .warn ("No route files found in directory \"".toList ++ o.dir.shown ++ ['"']) none

/-- The patterns select no route file. -/
def noneSelected (patterns : List (List Char)) : Entry :=
  .line .error ("No matching route files found for routes: ".toList ++ Survey.listed patterns) none

/-- The number of a count. -/
def counted (n : Nat) : List Char := Nat.toDigits 10 n

/-- The survey has found no operation. -/
def nothingFound (r : SurveyResult) : Entry :=
  if r.failed = 0 then
    .line .warn "No HTTP method handlers found in the selected route files".toList none
  else
    .line .error ("Failed to generate OpenAPI specs: ".toList ++ counted r.failed ++
      " route(s) failed. Please check the logs for details.".toList) none

/-- The table of the paths that were found. -/
def summary (r : SurveyResult) : List Entry :=
  [.separator, .line .log "Routes processed:".toList none,
    .table ["path".toList, "methods".toList] (r.paths.map fun (path, item) =>
      [("path".toList, path),
        ("methods".toList, Survey.listed (Method.sort (item.map Prod.fst)))])]

/-- The messages when the document has been written. -/
def closing (r : SurveyResult) (path : Path) : List Entry :=
  .separator ::
    if r.failed = 0 then
      [.line .success "SUCCESS! OpenAPI specs generated at".toList none, .highlight path.shown]
    else
      [.line .error (counted r.failed ++ " route(s) failed, ".toList ++ counted r.succeeded ++
          " succeeded".toList) none,
        .line .warn "The OpenAPI spec may be incomplete. Please check the logs for details.".toList
          (some (.str (Text.ofChars path.shown)))]

/-- The document of a survey. -/
def document (o : GeneratorOptions) (r : SurveyResult) : Document :=
  .assemble r.pathMap o.info o.servers

/-- Writes what a survey has found. -/
def finish (w : Workplace) (o : GeneratorOptions) (entries : List Entry) (e : Survey.Ended) :
    Generated :=
  let r := e.result
  if r.paths.isEmpty then
    ⟨.ok none, entries ++ [nothingFound r], w.disk, e.reads, e.queries, e.requests, none⟩
  else
    let entries := entries ++ summary r
    let document := document o r
    match document.write w.limits.dumper w.disk o.outputFile o.format with
    | (.error error, disk) =>
      ⟨.error (.writing error), entries, disk, e.reads, e.queries, e.requests, some document⟩
    | (.ok path, disk) =>
      ⟨.ok (some path), entries ++ closing r path, disk, e.reads, e.queries, e.requests,
        some document⟩

/-- Surveys the selected files and writes what is found. -/
def survey (w : Workplace) (o : GeneratorOptions) (entries : List Entry)
    (files : List (List Char)) : Generated :=
  match w.describerFor o with
  | .error error => { outcome := .error (.setup error), entries, disk := w.disk }
  | .ok describer =>
    match Pool.make o.concurrency with
    | .error error => { outcome := .error (.concurrency error), entries, disk := w.disk }
    | .ok pool =>
      let e := Survey.run ⟨w.disk, o.dir, describer⟩ pool files w.schedule
      let entries := entries ++ e.entries
      match e.outcome with
      | .error fault =>
        ⟨.error (.fileName fault), entries, w.disk, e.reads, e.queries, e.requests, none⟩
      | .ok () =>
        let elapsed := (w.reading 1).sub (w.reading 0)
        finish w o
          (entries ++ [.separator, Log.elapsedLine "Generation completed".toList elapsed]) e

end Generation

/-- Generates a document. -/
def generate (w : Workplace) (o : GeneratorOptions) : Generated :=
  match w.registry.check o.provider o.key o.format with
  | .error error => { outcome := .error (.configuration error), entries := [], disk := w.disk }
  | .ok (p, _) =>
    let entries := Generation.opening o p
    match Route.locate w.limits.searching w.disk o.dir with
    | .error error => { outcome := .error (.discovery error), entries, disk := w.disk }
    | .ok [] => { outcome := .ok none, entries := entries ++ [Generation.noFiles o], disk := w.disk }
    | .ok found =>
      match Route.select (o.routes.getD []) found with
      | [] =>
        { outcome := .ok none, entries := entries ++ [Generation.noneSelected (o.routes.getD [])]
          disk := w.disk }
      | files => Generation.survey w o entries files

end RouteScribe
