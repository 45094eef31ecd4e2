import RouteScribe.OpenApi.Page
import RouteScribe.Yaml.Printer

/-!
# Rendering a document

A document is rendered as YAML, as JSON or as a page, always from its strict dump.  The name of the
format comes from outside, so an unknown one is an error and not excluded by a type.
-/

namespace RouteScribe

/-- A format in which documents are rendered. -/
inductive OutputFormat where
  | yaml
  | json
  | html
deriving DecidableEq, Repr

namespace OutputFormat

/-- All formats in the order in which they are offered. -/
def all : List OutputFormat := [yaml, json, html]

/-- The name of a format. -/
def name : OutputFormat → String
  | yaml => "yaml"
  | json => "json"
  | html => "html"

/-- The format of a name. -/
def ofName? (name : Text) : Option OutputFormat := all.find? fun f => Text.ofString f.name = name

end OutputFormat

/-- Why a document is not rendered. -/
inductive RenderError where
  | unknownFormat (name : Text)
  | noDump (reason : DumpError)
deriving DecidableEq, Repr

/-- The words for a failed rendering. -/
def RenderError.message : RenderError → String
  | unknownFormat name => "Unsupported output format: " ++ name.shown
  | noDump reason => reason.message

namespace Document

/-- The members of the value that a document is rendered from. -/
def members (d : Document) (dumper : Dumper) : Except DumpError Fields :=
  (d.source dumper).map fun
    | .obj ms => ms
    | _ => []

/-- The text of a document in a format. -/
def renderAs (d : Document) (dumper : Dumper) : OutputFormat → Except DumpError Text
  | .yaml => (d.members dumper).map Yaml.document
  | .json => (d.source dumper).map (Json.indented .minimal)
  | .html => Page.ofDocument dumper d

/-- The text of a document in the format of a name. -/
def render (d : Document) (dumper : Dumper) (format : Text) : Except RenderError Text :=
  match OutputFormat.ofName? format with
  | some f => (d.renderAs dumper f).mapError .noDump
  | none => .error (.unknownFormat format)

end Document

end RouteScribe
