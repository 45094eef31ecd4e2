import RouteScribe.Files.Path
import RouteScribe.OpenApi.Check
import RouteScribe.Pool.Basic
import RouteScribe.Text.Digit

/-!
# Options of a generation

Everything that one run needs to know.  `GeneratorOptions.check` reads options from data; a missing
one takes its default.
-/

namespace RouteScribe

/-- The provider when none is chosen. -/
def defaultProviderName : List Char := "anthropic".toList

/-- The options of a run. -/
structure GeneratorOptions where
  dir : Path := Path.ofString "app/api"
  outputFile : Path := Path.ofString "openapi"
  format : List Char := "yaml".toList
  provider : List Char := defaultProviderName
  model : Option (List Char) := none
  key : Option (List Char) := none
  routes : Option (List (List Char)) := none
  info : Option Info := none
  servers : Option (List Server) := none
  concurrency : Int := Pool.usualLimit

namespace Check

/-- The text without a point and the zeros behind it at its end. -/
def withoutZeros (s : List Char) : List Char :=
  match cutAt '.' s with
  | (whole, some zeros) => if zeros.all (· == '0') then whole else s
  | (_, none) => s

/-- A whole number, also given by a truth value, by a number without a fraction or in words. -/
def integer : Json → Checked Int
  | .bool b => .ok (if b then 1 else 0)
  | .num (.integer n) => .ok n
  | .num (.real x) =>
    if !x.isFinite then .fail .infiniteInteger
    else
      match x.toInt? with
      | some n => .ok n
      | none => .fail .fractionalInteger
  | .str s =>
    match s.chars? with
    | none => .fail .unclearInteger
    | some cs =>
      let cs := withoutZeros (trimBy isSpace cs)
      if cs.all fun c => c.toNat < 0x80 then
        match readInteger? cs with
        | some n => .ok n
        | none => .fail .unclearInteger
      else .fail .unclearInteger
  | _ => .fail .notInteger

/-- A text of characters. -/
def chars (v : Json) : Checked (List Char) := (text v).map fun s => (Text.shown s).toList

/-- A path. -/
def path : Json → Checked Path
  | .str s => .ok (Path.ofChars (Text.shown s).toList)
  | _ => .fail .notPath

end Check

namespace GeneratorOptions

/-- A field with a value for when it is missing. -/
def field {α : Type} (fs : Fields) (name : String) (absent : α) (inner : Json → Checked α) :
    Checked α :=
  Check.defaulted fs ⟨name, none⟩ absent inner

/-- Reads a value as options. -/
def check : Json → Checked GeneratorOptions :=
  let usual : GeneratorOptions := {}
  Check.closedModel "GeneratorOptions" fun fs =>
    .seq (.seq (.seq (.seq (.seq (.seq (.seq (.seq (.seq ((field fs "dir" usual.dir Check.path).map
      fun dir outputFile format provider model key routes info servers concurrency =>
        { dir, outputFile, format, provider, model, key, routes, info, servers, concurrency })
      (field fs "output_file" usual.outputFile Check.path))
      (field fs "format" usual.format Check.chars))
      (field fs "provider" usual.provider Check.chars))
      (field fs "model" usual.model (Check.optional Check.chars)))
      (field fs "api_key" usual.key (Check.optional Check.chars)))
      (field fs "routes" usual.routes (Check.optional (Check.listOf Check.chars))))
      (field fs "info" usual.info (Check.optional Info.check)))
      (field fs "servers" usual.servers (Check.optional (Check.listOf Server.check))))
      (field fs "concurrency" usual.concurrency Check.integer)

end GeneratorOptions

end RouteScribe
