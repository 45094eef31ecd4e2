import RouteScribe.Providers.Registry

/-!
# Setting up a provider

`Registry.create` looks a provider up and sets it up with a key and a model.  Its client is made of
the model, the key and the parameters of its requests, all of them told apart by their names, so a
provider whose parameters take a name of the client's own is known and cannot be set up.
`Registry.defaultModel` and `Registry.keyVariable` answer what is known of a provider, and
`Registry.validate` tells what is wrong with a choice by the listed names.
-/

namespace RouteScribe

/-- What a client has names for besides the parameters of its requests. -/
inductive ClientPart where
  | model
  | key
  /-- The client itself. -/
  | self
deriving DecidableEq, Repr

namespace ClientPart

/-- The name of a part. -/
def word : ClientPart → String
  | model => "model"
  | key => "api_key"
  | self => "self"

/-- The part whose name a parameter takes: the first of the model and the key in the order of the
parameters, and else the client itself. -/
def taken? (params : Fields) : Option ClientPart :=
  (params.findSome? fun f => [model, key].find? fun part => f.1 = part.word).or
    (if params.has self.word then some self else none)

end ClientPart

/-- Why a provider is not set up. -/
inductive SetupError where
  | choice (error : ConfigurationError)
  /-- A parameter has the name of a part of the client. -/
  | nameTaken (part : ClientPart)
deriving DecidableEq, Repr

/-- The words for a provider that is not set up. -/
def SetupError.message : SetupError → List Char
  | choice error => error.message
  | nameTaken .self => "LlmClient.__init__() got multiple values for argument 'self'".toList
  | nameTaken part =>
    "api_doc_agent.llm.LlmClient() got multiple values for keyword argument '".toList ++
      part.word.toList ++ "'".toList

/-- A provider with a key and a model. -/
structure ReadyProvider where
  name : List Char
  /-- The model, with or without its vendor. -/
  model : List Char
  client : ModelClient
deriving Inhabited

namespace Registry

/-- The default model of a provider. -/
def defaultModel (r : Registry) (name : List Char) : Except ConfigurationError (List Char) :=
  (r.find name).map (·.defaultModel)

/-- The environment variable with the key for a provider. -/
def keyVariable (r : Registry) (name : List Char) : Except ConfigurationError (List Char) :=
  (r.find name).map (·.keyVariable)

/-- The first thing that is wrong with a choice, if anything is: the provider is not listed, the key
is missing, or the format is unknown. -/
def validate (r : Registry) (name : List Char) (key : Option (List Char)) (format : List Char) :
    Except ConfigurationError Unit :=
  if name ∈ r.names then
    if (key.getD []).isEmpty then do
      let keyVariable ← r.keyVariable name
      .error (.missingKey keyVariable)
    else if (OutputFormat.ofName? (Text.ofChars format)).isSome then .ok ()
    else .error (.unknownFormat format)
  else .error (.unknownProvider name r.names)

/-- Sets a provider up with a key and a model. -/
def create (r : Registry) (name : List Char) (key : Option (List Char))
    (given : Option (List Char)) : Except SetupError ReadyProvider := do
  let p ← (r.find name).mapError .choice
  match ClientPart.taken? p.params with
  | some part => .error (.nameTaken part)
  | none => .ok ⟨name, p.model given, p.client key given⟩

end Registry

end RouteScribe
