import RouteScribe.OpenApi.Render
import RouteScribe.Providers.Model
import RouteScribe.Settings.Environment
import RouteScribe.Text.Order

/-!
# Providers

A provider gives access to the models of one vendor.  The registry knows providers by name; at the
start it holds two of them.  `Registry.check` tells whether a run has a known provider, a key and a
known format.
-/

namespace RouteScribe

/-- What is known of a provider. -/
structure Provider where
  defaultModel : List Char
  /-- The environment variable with the key; empty when there is none. -/
  keyVariable : List Char
  /-- What stands before a slash in the full names of the models; empty when nothing does. -/
  vendor : List Char
  params : Fields
deriving Inhabited

namespace Provider

/-- The parameters of every request, unless a provider says otherwise. -/
def defaultParams : Fields :=
  [("max_tokens", Json.int 1000), ("top_p", .num (.real (.ofDecimal false 8 (-1))))]

/-- The full name of a model. -/
def fullName (p : Provider) (model : List Char) : List Char :=
  let front := p.vendor ++ ['/']
  if p.vendor.isEmpty || front.isPrefixOf model then model else front ++ model

/-- The model that is used: the given one, or the default when none or an empty one is given. -/
def model (p : Provider) (given : Option (List Char)) : List Char :=
  match given with
  | some (c :: rest) => c :: rest
  | _ => p.defaultModel

/-- Access to a model with a key. -/
def client (p : Provider) (key : Option (List Char)) (given : Option (List Char)) : ModelClient :=
  { model := p.fullName (p.model given), key := key, params := p.params }

/-- The key in the environment. -/
def key? (p : Provider) (env : Environment) : Option (List Char) :=
  if p.keyVariable.isEmpty then none else env.get? p.keyVariable

end Provider

/-- What is wrong with the choice of provider, key and format. -/
inductive ConfigurationError where
  | unknownProvider (name : List Char) (available : List (List Char))
  | missingKey (keyVariable : List Char)
  | unknownFormat (name : List Char)
deriving DecidableEq, Repr

/-- The words for a wrong choice. -/
def ConfigurationError.message : ConfigurationError → List Char
  | unknownProvider name available =>
    "Invalid provider \"".toList ++ name ++ "\". Available providers: \"".toList ++
      joined " | ".toList available ++ ['"']
  | missingKey name =>
    "API key is required. Please set the ".toList ++ name ++
      " environment variable or use the --api-key option.".toList
  | unknownFormat name =>
    "Invalid format \"".toList ++ name ++ "\". Available formats: ".toList ++
      joined " | ".toList (OutputFormat.all.map fun f => '"' :: (f.name.toList ++ ['"']))

/-- The known providers by name. -/
abbrev Registry := List (List Char × Provider)

namespace Registry

/-- The providers at the start. -/
def builtin : Registry :=
  [("anthropic".toList,
      { defaultModel := "claude-3-5-sonnet-latest".toList
        keyVariable := "ANTHROPIC_API_KEY".toList
        vendor := "anthropic".toList
        params := Provider.defaultParams }),
    ("openai".toList,
      { defaultModel := "gpt-4o-mini".toList
        keyVariable := "OPENAI_API_KEY".toList
        vendor := "openai".toList
        params := Fields.set Provider.defaultParams "response_format"
          (.obj [("type", Json.string "json_object")]) })]

/-- The provider of a name. -/
def get? (r : Registry) (name : List Char) : Option Provider := Assoc.get? r name

/-- Takes a provider in under a name, in the place of one of the same name. -/
def register (r : Registry) (name : List Char) (p : Provider) : Registry := Assoc.set r name p

/-- Takes a provider out. -/
def unregister (r : Registry) (name : List Char) : Registry := r.filter fun e => e.1 != name

/-- A provider of the name is there. -/
def has (r : Registry) (name : List Char) : Bool := (r.get? name).isSome

/-- The names of the providers in order. -/
def names (r : Registry) : List (List Char) := (r.map Prod.fst).mergeSort fun a b => textLe a b

/-- The provider of a name, or the error that there is none. -/
def find (r : Registry) (name : List Char) : Except ConfigurationError Provider :=
  match r.get? name with
  | some p => .ok p
  | none => .error (.unknownProvider name r.names)

/-- The key of a provider in the environment; an unknown provider has none. -/
def key? (r : Registry) (env : Environment) (name : List Char) : Option (List Char) :=
  (r.get? name).bind fun p => p.key? env

/-- The key for a run: a given one that is not empty, or that of the provider. -/
def resolveKey (r : Registry) (env : Environment) (name : List Char) (given : Option (List Char)) :
    Option (List Char) :=
  match given with
  | some (c :: rest) => some (c :: rest)
  | _ => r.key? env name

/-- The provider and the format of a run, or the first thing that is wrong: the provider, the key,
the format. -/
def check (r : Registry) (name : List Char) (key : Option (List Char)) (format : List Char) :
    Except ConfigurationError (Provider × OutputFormat) := do
  let p ← r.find name
  if (key.getD []).isEmpty then .error (.missingKey p.keyVariable)
  else
    match OutputFormat.ofName? (Text.ofChars format) with
    | some f => .ok (p, f)
    | none => .error (.unknownFormat format)

end Registry

end RouteScribe
