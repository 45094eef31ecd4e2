import RouteScribe.CommandLine.Help
import RouteScribe.Generation.Options
import RouteScribe.Providers.Registry
import RouteScribe.Routes.ApiPath
import RouteScribe.Settings.Servers
import RouteScribe.Text.Case
import RouteScribe.Text.Digit

/-!
# The commands

The program has two commands: `generate` makes a document, `list-routes` shows the routes.  Their
options are described here, and `GenerateCall.ofParsed` and `ListCall.ofParsed` read the settings of
a call.
-/

namespace RouteScribe

namespace CommandLine

/-- The name of the program. -/
def program : String := "main"

/-- What the program does. -/
def aboutProgram : String :=
  "API Doc Agent - generate OpenAPI specs from Next.js API routes using LLM models."

/-- The directory that is searched when none is given. -/
def usualDir : List Char := "./app/api".toList

/-- The most digits of a number that is read. -/
def maxDigits : Nat := 4300

/-- The option with the directory. -/
def dirOption : CommandOption := ⟨"dir", none, .path, "Directory containing API routes."⟩

/-- The option with the number of files that are processed at once. -/
def countOption : CommandOption :=
  ⟨"concurrency", some 'c', .count, "Maximum number of route files processed at once."⟩

/-- The command that makes a document. -/
def generateCommand : Command :=
  { name := "generate"
    about := "Generate an OpenAPI spec from the route files in --dir."
    options := [
      dirOption,
      ⟨"output-file", some 'o', .path, "Output file path without extension."⟩,
      ⟨"format", some 'f', .text, "Output format (yaml, json, html)."⟩,
      ⟨"routes", none, .text, "Comma-separated routes to process (e.g. /users,/products/*)."⟩,
      ⟨"title", some 't', .text, "Title for the OpenAPI spec."⟩,
      ⟨"version", some 'v', .text, "Version for the OpenAPI spec."⟩,
      ⟨"description", some 'd', .text, "Description for the OpenAPI spec."⟩,
      ⟨"servers", none, .text,
        "Comma-separated servers as url|description pairs. Default: http://localhost:3000/api."⟩,
      ⟨"provider", some 'p', .text, "LLM provider (anthropic, openai)."⟩,
      ⟨"model", some 'm', .text, "LLM model (defaults to the provider's default model)."⟩,
      ⟨"api-key", some 'k', .text,
        "LLM provider API key (defaults to the provider's environment variable)."⟩,
      countOption,
      ⟨"verbose", none, .nothing, "Show debug output."⟩] }

/-- The command that shows the routes. -/
def listCommand : Command :=
  { name := "list-routes"
    about := "List discovered routes and their HTTP methods without calling an LLM."
    options := [
      dirOption,
      ⟨"routes", none, .text, "Comma-separated routes to include (e.g. /users,/products/*)."⟩] }

/-- The commands in order. -/
def commands : List Command := [generateCommand, listCommand]

/-- The command of a name. -/
def command? (name : List Char) : Option Command := commands.find? fun c => c.name.toList = name

/-- Why a call is not carried out: wrong arguments, or a path with the character NUL. -/
inductive CallError where
  | usage (error : UsageError)
  | nullPath
deriving DecidableEq, Repr

/-- The number in a setting, if it is a whole one. -/
def wholeNumber? (value : List Char) : Option Int :=
  if (value.filter fun c => (digitValue? c).isSome).length > maxDigits then none
  else readInteger? value

/-- The number of a setting that has to be at least one. -/
def countOf (o : CommandOption) (value : List Char) : Except UsageError Int :=
  match wholeNumber? value with
  | none => .error (.noNumber o.names value)
  | some n => if n < 1 then .error (.belowOne o.names n) else .ok n

/-- The path of a setting. -/
def pathOf (value : List Char) : Except CallError Path :=
  if value.contains '\x00' then .error .nullPath else .ok (Path.ofChars value)

/-- A call of `generate`. -/
structure GenerateCall where
  dir : Path
  outputFile : Path
  format : List Char
  routes : Option (List Char)
  info : Info
  servers : Option (List Char)
  provider : List Char
  model : Option (List Char)
  key : Option (List Char)
  concurrency : Int
  verbose : Bool

namespace GenerateCall

/-- The variable with the provider when no option names one. -/
def providerVariable : List Char := "LLM_PROVIDER".toList

/-- The variable with the model when no option names one. -/
def modelVariable : List Char := "LLM_MODEL".toList

/-- Reads a call. -/
def ofParsed (env : Environment) (p : Parsed) : Except CallError GenerateCall := do
  let concurrency ← match p.value? "concurrency" with
    | some v => (countOf countOption v).mapError .usage
    | none => .ok Pool.usualLimit
  let dir ← pathOf ((p.value? "dir").getD usualDir)
  let outputFile ← pathOf ((p.value? "output-file").getD "openapi".toList)
  let text (option : String) : Option Text := (p.value? option).map Text.ofChars
  .ok
    { dir, outputFile, concurrency
      format := (p.value? "format").getD "yaml".toList
      routes := p.value? "routes"
      info := ⟨text "title", text "version", text "description"⟩
      servers := p.value? "servers"
      provider := ((p.value? "provider").orElse fun _ =>
        env.nonempty? providerVariable).getD defaultProviderName
      model := (p.value? "model").orElse fun _ => env.nonempty? modelVariable
      key := p.value? "api-key"
      verbose := p.has "verbose" }

/-- The patterns of a call; blank ones count as none. -/
def patterns (value : Option (List Char)) : List (List Char) := (value.map Route.patterns).getD []

/-- The options of a call, made in a working directory.  Without any server in the list that was
given there are none. -/
def options? (c : GenerateCall) (registry : Registry) (env : Environment) (here : List FileName) :
    Option GeneratorOptions := do
  let servers ← match c.servers with
    | some line => Server.parse? line
    | none => some Server.usual
  let routes := patterns c.routes
  some
    { dir := c.dir.resolve here
      outputFile := c.outputFile.resolve here
      format := lower c.format
      provider := c.provider
      model := c.model
      key := registry.resolveKey env c.provider c.key
      routes := if routes.isEmpty then none else some routes
      info := some c.info
      servers := some servers
      concurrency := c.concurrency }

end GenerateCall

/-- A call of `list-routes`. -/
structure ListCall where
  dir : Path
  routes : Option (List Char)

/-- Reads a call. -/
def ListCall.ofParsed (p : Parsed) : Except CallError ListCall := do
  let dir ← pathOf ((p.value? "dir").getD usualDir)
  .ok ⟨dir, p.value? "routes"⟩

end CommandLine

end RouteScribe
