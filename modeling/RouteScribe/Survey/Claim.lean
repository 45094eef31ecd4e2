import RouteScribe.Routes.ApiPath
import RouteScribe.Survey.Basic

/-!
# Claiming API paths

Two files can have one API path.  The first one listed owns it; a later one of another name is a
failure.
-/

namespace RouteScribe

namespace Survey

/-- Files that may be read, the owners of the paths so far, and what happened on the way. -/
structure Claims where
  owners : List (List Char × List Char) := []
  files : List (List Char) := []
  events : List SurveyEvent := []

/-- The events about a file whose path has another owner. -/
def duplicateEvents (file path owner : List Char) : List SurveyEvent :=
  [.noted (.line .warn ("Skipping \"".toList ++ file ++ "\": ".toList ++ path ++
      " is already handled by \"".toList ++ owner ++ ['"']) none),
    .failed ⟨path, file, "duplicate of \"".toList ++ owner ++ ['"']⟩]

namespace Claims

/-- Claims the path of a file. -/
def add (c : Claims) (file : List Char) : Claims :=
  let path := Route.apiPath file
  match Assoc.get? c.owners path with
  | none => { c with owners := Assoc.set c.owners path file, files := c.files ++ [file] }
  | some owner =>
    if owner = file then { c with files := c.files ++ [file] }
    else { c with events := c.events ++ duplicateEvents file path owner }

/-- Claims the paths of files in the order of the list. -/
def ofFiles (files : List (List Char)) : Claims := files.foldl add {}

end Claims

end Survey

end RouteScribe
