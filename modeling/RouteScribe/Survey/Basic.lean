import RouteScribe.Console.Log
import RouteScribe.OpenApi.Basic
import RouteScribe.Providers.Describe

/-!
# Surveys of route files

A survey describes every method of every route file.  What happens in it is told by events;
`SurveyResult.ofEvents` collects from them the operations, the failures and the files without
methods.
-/

namespace RouteScribe

/-- A route or a file that gave no operation. -/
structure RouteFailure where
  route : List Char
  file : List Char
  error : List Char
deriving DecidableEq, Repr

/-- What happens in a survey. -/
inductive SurveyEvent where
  | readBegun (file : List Char)
  | readEnded (file : List Char)
  /-- A call begins; it asks a model the request, if there is one. -/
  | callBegun (file : List Char) (query : RouteQuery) (request : Option ModelRequest)
  | callEnded (file : List Char) (query : RouteQuery)
  | noted (entry : Log.Entry)
  | failed (failure : RouteFailure)
  /-- The file has no methods. -/
  | skipped (file : List Char)
  | described (path : List Char) (method : Method) (operation : Operation)

/-- What a survey has found. -/
structure SurveyResult where
  paths : List (List Char × List (Method × Operation)) := []
  failures : List RouteFailure := []
  succeeded : Nat := 0
  skipped : List (List Char) := []

namespace SurveyResult

/-- Takes in an operation and leaves the other methods of the path as they are. -/
def insert (paths : List (List Char × List (Method × Operation))) (path : List Char)
    (method : Method) (operation : Operation) : List (List Char × List (Method × Operation)) :=
  Assoc.set paths path (Assoc.set ((Assoc.get? paths path).getD []) method operation)

/-- Takes in an event. -/
def add (r : SurveyResult) : SurveyEvent → SurveyResult
  | .failed failure => { r with failures := r.failures ++ [failure] }
  | .skipped file => { r with skipped := r.skipped ++ [file] }
  | .described path method operation =>
    { r with paths := insert r.paths path method operation, succeeded := r.succeeded + 1 }
  | _ => r

/-- The paths in order, and the methods of each in theirs. -/
def sorted (paths : List (List Char × List (Method × Operation))) :
    List (List Char × List (Method × Operation)) :=
  (paths.mergeSort fun p q => textLe p.1 q.1).map fun (path, item) =>
    (path, item.mergeSort fun m n => Method.le m.1 n.1)

/-- What the events of a survey amount to. -/
def ofEvents (es : List SurveyEvent) : SurveyResult :=
  let r := es.foldl add {}
  { r with paths := sorted r.paths }

/-- The number of failures. -/
def failed (r : SurveyResult) : Nat := r.failures.length

/-- The operations as they stand in a document. -/
def pathMap (r : SurveyResult) : PathMap :=
  r.paths.map fun (path, item) =>
    (Text.ofChars path, item.map fun (m, o) => (Text.ofChars m, o))

end SurveyResult

namespace SurveyEvent

/-- The message of an event. -/
def message? : SurveyEvent → Option Log.Entry
  | noted e => some e
  | _ => none

/-- The file that is opened. -/
def read? : SurveyEvent → Option (List Char)
  | readBegun file => some file
  | _ => none

/-- The query of a call that begins. -/
def query? : SurveyEvent → Option RouteQuery
  | callBegun _ q _ => some q
  | _ => none

/-- The request that a model is asked. -/
def request? : SurveyEvent → Option ModelRequest
  | callBegun _ _ request => request
  | _ => none

end SurveyEvent

end RouteScribe
