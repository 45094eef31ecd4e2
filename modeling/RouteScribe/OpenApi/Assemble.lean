import RouteScribe.OpenApi.Basic

/-!
# Assembling a document

Collected operations become a document of version 3.0.0.  An information field that is missing or
empty takes a default.
-/

namespace RouteScribe

/-- The version of the documents. -/
def openapiVersion : Text := "3.0.0"

namespace Info

/-- The title of a document without one. -/
def defaultTitle : Text := "Next.js API"

/-- The version of an interface without one. -/
def defaultVersion : Text := "1.0.0"

/-- The description of a document without one. -/
def defaultDescription : Text := "Automatically generated API documentation for Next.js routes"

/-- The text, or the default where it is missing or empty. -/
def orDefault (t : Option Text) (default : Text) : Option Text :=
  match t with
  | some (c :: rest) => some (c :: rest)
  | _ => some default

/-- The information with the defaults filled in. -/
def completed (i : Option Info) : Info :=
  let i := i.getD ⟨none, none, none⟩
  { title := orDefault i.title defaultTitle
    version := orDefault i.version defaultVersion
    description := orDefault i.description defaultDescription }

end Info

/-- The document of the collected operations. -/
def Document.assemble (paths : PathMap) (info : Option Info) (servers : Option (List Server)) :
    Document :=
  { openapi := openapiVersion
    info := Info.completed info
    servers := servers.getD []
    paths }

end RouteScribe
