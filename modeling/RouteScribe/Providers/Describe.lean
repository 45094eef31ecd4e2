import RouteScribe.Files.Disk
import RouteScribe.Providers.Model
import RouteScribe.Providers.Prompt
import RouteScribe.Reply
import RouteScribe.Routes.Handler

/-!
# Describing a route

The handler of one method is cut out of its file and sent to a model, and the reply is read as an
operation.  `RouteQuery.request` is the part before the model answers, `readReply` the part behind
it, and `RouteQuery.ask` the whole.
-/

namespace RouteScribe

/-- One method of one route file; the route is the form in which the two are shown. -/
structure RouteQuery where
  path : Path
  method : Method
  route : List Char
deriving DecidableEq, Repr

/-- Why a route is not described. -/
inductive DescribeError where
  | unread (fault : ReadFault)
  | noHandler (query : RouteQuery)
  | modelFailed (message : List Char)
  | badReply (error : ReplyError)
deriving Repr

/-- The words for a failed description, with remarks about what is wrong in a reply. -/
def DescribeError.message (remarks : Remarks) : DescribeError → List Char
  | unread fault => fault.message
  | noHandler query =>
    "Could not find implementation for ".toList ++ query.route ++ " in file: ".toList ++
      query.path.shown
  | modelFailed message => message
  | badReply error => (error.message remarks).toList

namespace Prompt

/-- The question about a handler. -/
def question (route handler : List Char) : List Char :=
  "Generate the OpenAPI operation for the Next.js API route \"".toList ++ route ++
    "\".\n\n```typescript\n".toList ++ handler ++ "\n```".toList

end Prompt

/-- What the model is asked about a route. -/
def RouteQuery.request (q : RouteQuery) (disk : Disk) (client : ModelClient) :
    Except DescribeError ModelRequest := do
  let source ← (disk.readText q.path).mapError .unread
  match handlerSource? source q.method with
  | none => .error (.noHandler q)
  | some handler =>
    .ok (client.request (some Prompt.instructions) (Text.ofChars (Prompt.question q.route handler)))

/-- The operation in a model's reply, which can be read to a depth. -/
def readReply (room : Nat) (reply : ModelReply) : Except DescribeError Operation := do
  let text ← reply.text.mapError .modelFailed
  (Operation.ofReply room text).mapError .badReply

/-- Asks a model about a route: the request that is made, if the handler is found, and the operation
that comes of it. -/
def RouteQuery.ask (q : RouteQuery) (disk : Disk) (client : ModelClient) (room : Nat)
    (answer : ModelRequest → ModelReply) : Option ModelRequest × Except DescribeError Operation :=
  match q.request disk client with
  | .error e => (none, .error e)
  | .ok request => (some request, readReply room (answer request))

end RouteScribe
