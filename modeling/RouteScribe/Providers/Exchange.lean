import RouteScribe.Providers.Model

/-!
# Requests and replies as JSON values

How requests are handed to whatever reaches a model, and how its replies come back: an object with
the content, which may be null, or with the words for an error.
-/

namespace RouteScribe

/-- A message as a JSON value. -/
def Message.toJson (m : Message) : Json :=
  .obj [("role", Json.string m.role.word), ("content", .str m.content)]

/-- A request as a JSON value, without its key. -/
def ModelRequest.toJson (r : ModelRequest) : Json :=
  .obj [("model", .str (Text.ofChars r.model)), ("params", .obj r.params),
    ("messages", .arr (r.messages.map Message.toJson))]

namespace ModelReply

/-- The reply of a JSON value.  What is no object has no content. -/
def ofJson : Json → ModelReply
  | .obj fs =>
    match Fields.get? fs "error", Fields.get? fs "content" with
    | some (.str message), _ => .failure (Text.shown message).toList
    | _, some (.str words) => .content (some words)
    | _, _ => .content none
  | _ => .content none

/-- The reply where none has come. -/
def missing : ModelReply := .failure "no reply".toList

/-- The reply to a request among replies to requests. -/
def among (replies : List (ModelRequest × ModelReply)) (r : ModelRequest) : ModelReply :=
  ((replies.find? fun e => e.1.messages = r.messages).map (·.2)).getD missing

end ModelReply

end RouteScribe
