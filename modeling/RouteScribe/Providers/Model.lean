import RouteScribe.Json.Basic

/-!
# Requests to a model

What is sent to a language model, and what comes back.  A reply without content counts as empty.
-/

namespace RouteScribe

/-- Who speaks in a message. -/
inductive Role where
  | system
  | user
deriving DecidableEq, Repr

/-- The word for a role. -/
def Role.word : Role → String
  | system => "system"
  | user => "user"

/-- One message of a request. -/
structure Message where
  role : Role
  content : Text
deriving DecidableEq, Repr

/-- A request to a model. -/
structure ModelRequest where
  model : List Char
  key : Option (List Char)
  params : Fields
  messages : List Message
deriving Inhabited

/-- What a model answers. -/
inductive ModelReply where
  | content (text : Option Text)
  | failure (message : List Char)

/-- The text of a reply, or the message of its failure. -/
def ModelReply.text : ModelReply → Except (List Char) Text
  | content text => .ok (text.getD [])
  | failure message => .error message

/-- A model with the key and the parameters for its requests. -/
structure ModelClient where
  model : List Char
  key : Option (List Char)
  params : Fields
deriving Inhabited

/-- The request with a question and, unless they are empty, instructions before it. -/
def ModelClient.request (c : ModelClient) (instructions : Option Text) (question : Text) :
    ModelRequest :=
  let instructions : List Message :=
    match instructions with
    | some (h :: t) => [⟨.system, h :: t⟩]
    | _ => []
  { model := c.model, key := c.key, params := c.params
    messages := instructions ++ [⟨.user, question⟩] }

end RouteScribe
