import RouteScribe.Json.Reader
import RouteScribe.OpenApi.Check
import RouteScribe.Text.Blank

/-!
# Operations from model replies

A model is asked for a JSON object and may wrap it in prose or in a fenced block.  `Reply.jsonPart`
finds the object; `Operation.ofReply` reads it, fills in what is missing, and checks it.

The part is, in this order: the object of the first fenced block that holds exactly one text from
an opening brace to a closing brace; the text from the first opening brace to the last closing
brace; the whole reply without blanks around it.
-/

namespace RouteScribe

/-- Why a reply gives no operation. -/
inductive ReplyError where
  | notJson (fault : JsonFault)
  | notObject
  | notOperation (data : InvalidData)
deriving Repr

/-- The words for a failed reply, with remarks about what is wrong in it.  A fault that is not of the
grammar speaks for itself. -/
def ReplyError.message (remarks : Remarks) : ReplyError → String
  | notJson fault =>
    if fault.isSyntax then "Model response is not valid JSON: " ++ fault.message else fault.message
  | notObject => "Model response is not a JSON object"
  | notOperation data =>
    "Model response does not describe an operation: " ++ data.message remarks

namespace Reply

/-- A blank of a reply. -/
def isBlank (c : CodePoint) : Bool := isBlankCode c.code

/-- The mark of a fenced block. -/
def fence : List Char := "```".toList

/-- The text starts, blanks aside, with a fence. -/
def closes (s : Text) : Bool := (Json.after? fence (s.dropWhile isBlank)).isSome

/-- The text up to the first closing brace that a fence follows. -/
def upToFence? : Text → Option Text
  | [] => none
  | c :: rest =>
    if c = '\x7d' && closes rest then some [c] else (upToFence? rest).map (c :: ·)

/-- The object of a fenced block that opens here. -/
def fencedHere? (s : Text) : Option Text := do
  let s ← Json.after? fence s
  let s := (Json.after? "json".toList s).getD s
  match s.dropWhile isBlank with
  | c :: rest => if c = '\x7b' then (upToFence? rest).map (c :: ·) else none
  | [] => none

/-- The object of the first fenced block that holds one. -/
def fenced? : Text → Option Text
  | [] => none
  | c :: rest =>
    match fencedHere? (c :: rest) with
    | some s => some s
    | none => fenced? rest

/-- The text up to its last closing brace. -/
def upToLastBrace? (s : Text) : Option Text :=
  match s.reverse.dropWhile (· != CodePoint.scalar '\x7d') with
  | [] => none
  | front => some front.reverse

/-- The text from the first opening to the last closing brace. -/
def braced? (s : Text) : Option Text :=
  match s.dropWhile (· != CodePoint.scalar '\x7b') with
  | [] => none
  | rest => upToLastBrace? rest

/-- The part of a reply that should be a JSON object. -/
def jsonPart (s : Text) : Text :=
  match fenced? s with
  | some t => t
  | none =>
    match braced? s with
    | some t => t
    | none => trimBy isBlank s

end Reply

namespace Operation

/-- The summary of an operation without one. -/
def defaultSummary : Json := Json.string "API endpoint"

/-- The description of an operation without one. -/
def defaultDescription : Json := Json.string "No description available"

/-- The responses of an operation without any. -/
def defaultResponses : Json :=
  .obj [("200", .obj [("description", Json.string "Successful response")])]

/-- The value of a member if it is truthy, and else the default. -/
def orDefault (fs : Fields) (name : Text) (default : Json) : Json :=
  match fs.get? name with
  | some v => if v.truthy then v else default
  | none => default

/-- The members of a reply with summary, description and responses filled in, and without parameters
that say nothing. -/
def completed (fs : Fields) : Fields :=
  let fs := fs.set "summary" (orDefault fs "summary" defaultSummary)
  let fs := fs.set "description" (orDefault fs "description" defaultDescription)
  let fs := fs.set "responses" (orDefault fs "responses" defaultResponses)
  match fs.get? "parameters" with
  | some v => if v.truthy then fs else fs.erase "parameters"
  | none => fs

/-- The operation that a reply describes, where the reader has room for so many open containers. -/
def ofReply (room : Nat) (reply : Text) : Except ReplyError Operation :=
  match Json.read room (Reply.jsonPart reply) with
  | .error fault => .error (.notJson fault)
  | .ok (.obj fs) =>
    match Checked.titled "Operation" check (.obj (completed fs)) with
    | .ok o => .ok o
    | .error data => .error (.notOperation data)
  | .ok _ => .error .notObject

end Operation

end RouteScribe
