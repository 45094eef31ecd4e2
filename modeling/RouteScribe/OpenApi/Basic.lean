import RouteScribe.Json.Basic

/-!
# OpenAPI documents

The parts of an OpenAPI 3.0 document that the generator knows by name.  An operation and a parameter
also hold members of their own choice, in the order in which they were given.
-/

namespace RouteScribe

/-- Where a parameter is found in a request. -/
inductive Place where
  | query
  | path
  | header
  | body
  | cookie
deriving DecidableEq, Repr, Inhabited

namespace Place

/-- All places in their order. -/
def all : List Place := [query, path, header, body, cookie]

/-- The word for a place. -/
def word : Place → String
  | query => "query"
  | path => "path"
  | header => "header"
  | body => "body"
  | cookie => "cookie"

/-- The place of a word. -/
def ofText? (t : Text) : Option Place := all.find? fun p => Text.ofString p.word = t

theorem ofText?_word (p : Place) : ofText? (Text.ofString p.word) = some p := by
  cases p <;> decide

end Place

/-- One parameter of an operation.  A missing example is null. -/
structure Parameter where
  name : Text
  place : Place
  required : Bool
  description : Option Text
  schema : Option Fields
  sample : Json
  samples : Option Fields
  extra : Fields
deriving Inhabited

/-- What is said about one method of one path. -/
structure Operation where
  summary : Text
  description : Text
  parameters : Option (List Parameter)
  requestBody : Option Fields
  responses : Option Fields
  tags : Option (List Text)
  extra : Fields
deriving Inhabited

/-- The operations of one path by method. -/
abbrev PathItem := List (Text × Operation)

/-- The items of a document by path. -/
abbrev PathMap := List (Text × PathItem)

/-- Title, version and description of an interface. -/
structure Info where
  title : Option Text
  version : Option Text
  description : Option Text
deriving Inhabited

/-- A server that answers requests. -/
structure Server where
  url : Text
  description : Option Text
deriving DecidableEq, Repr, Inhabited

/-- A whole document. -/
structure Document where
  openapi : Text
  info : Info
  servers : List Server
  paths : PathMap
deriving Inhabited

end RouteScribe
