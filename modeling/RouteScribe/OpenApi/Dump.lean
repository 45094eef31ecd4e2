import RouteScribe.OpenApi.Basic
import RouteScribe.Text.Encode

/-!
# Documents as JSON values

`dump` writes a part of a document as a JSON value under the OpenAPI names.  In the full form every
field is there and a missing one is null.  In the strict form, which documents are rendered from,
null fields and null extra members are left out, and numbers that JSON does not know become null;
nulls inside free values stay.

Strict dumps are made by a library, which refuses some documents: it goes only so deep, and it needs
an encoding for the names inside a document.  `Dumper` says what is relied on.  In the full form a
free value is handed over as it is, so there is nothing to refuse.  A document with a whole number of
more than 4300 digits has a dump but no text.
-/

namespace RouteScribe

/-- What a dump keeps. -/
inductive DumpForm where
  | full
  | strict
deriving DecidableEq, Repr

/-- Why a document has no dump, or no text. -/
inductive DumpError where
  /-- It is nested too deep for the library, in the words of the library. -/
  | tooDeep (words : String)
  /-- A member name holds surrogates. -/
  | surrogateName (row : Unencodable)
  /-- A whole number has too many digits to be written. -/
  | longInteger
deriving DecidableEq, Repr

namespace DumpError

/-- The words for a failed dump. -/
def message : DumpError → String
  | tooDeep words => words
  | surrogateName row => row.message
  | longInteger =>
    "Exceeds the limit (4300 digits) for integer string conversion; use " ++
      "sys.set_int_max_str_digits() to increase the limit"

end DumpError

namespace Text

/-- The text with three replacement characters, one for each byte, for each surrogate. -/
def mended (t : Text) : Text :=
  t.flatMap fun
    | .scalar c => [.scalar c]
    | .surrogate _ => List.replicate 3 (.scalar '\uFFFD')

end Text

namespace Json

mutual

/-- The value with null in the place of each number that JSON does not know. -/
def strict : Json → Json
  | arr vs => arr (strictItems vs)
  | obj ms => obj (strictMembers ms)
  | num (.real x) => if x.isFinite then num (.real x) else null
  | v => v

/-- So it is in all items. -/
def strictItems : List Json → List Json
  | [] => []
  | v :: vs => v.strict :: strictItems vs

/-- So it is in all members. -/
def strictMembers : List (Text × Json) → List (Text × Json)
  | [] => []
  | (k, v) :: ms => (k, v.strict) :: strictMembers ms

end

mutual

/-- The surrogates in the first member name that has some. -/
def unencodableName? : Json → Option Unencodable
  | arr vs => unencodableNameOfItems? vs
  | obj ms => unencodableNameOfMembers? ms
  | _ => none

/-- So it is in the items. -/
def unencodableNameOfItems? : List Json → Option Unencodable
  | [] => none
  | v :: vs => v.unencodableName?.or (unencodableNameOfItems? vs)

/-- So it is in the members. -/
def unencodableNameOfMembers? : List (Text × Json) → Option Unencodable
  | [] => none
  | (k, v) :: ms =>
    (k.firstUnencodable?.or v.unencodableName?).or (unencodableNameOfMembers? ms)

end

/-- A free value in a form. -/
def dump : DumpForm → Json → Json
  | .full, v => v
  | .strict, v => v.strict

end Json

namespace Dump

/-- A field of an object: its name, whether it has a value, and the dump of the value. -/
structure Field where
  name : String
  present : Bool
  value : Json

/-- A field that always has a value. -/
def always (name : String) (value : Json) : Field := ⟨name, true, value⟩

/-- A field whose value may be missing. -/
def field {α : Type} (name : String) (f : α → Json) : Option α → Field
  | some a => ⟨name, true, f a⟩
  | none => ⟨name, false, .null⟩

/-- A field that holds a free value; null counts as missing. -/
def free (form : DumpForm) (name : String) (v : Json) : Field :=
  ⟨name, !(v matches .null), v.dump form⟩

/-- An object of free values. -/
def dictionary (form : DumpForm) (fs : Fields) : Json := (Json.obj fs).dump form

/-- A list of parts. -/
def list {α : Type} (f : α → Json) (as : List α) : Json := .arr (as.map f)

/-- The members that fields become.  The strict form leaves out those without a value. -/
def members (form : DumpForm) (fields : List (Text × Field)) : Fields :=
  (fields.filter fun f => form == .full || f.2.present).map fun f => (f.1, f.2.value)

/-- An object from its fields and extra members. -/
def object (form : DumpForm) (fields : List Field) (extra : Fields) : Json :=
  .obj (members form (fields.map fun f => (Text.ofString f.name, f)) ++
    members form (extra.map fun m => (m.1, free form "" m.2)))

/-- A map of parts by name.  The strict form replaces surrogates in the names, and names that become
equal share the first place and the last value. -/
def map {α : Type} (form : DumpForm) (f : α → Json) (ps : List (Text × α)) : Json :=
  match form with
  | .full => .obj (ps.map fun p => (p.1, f p.2))
  | .strict => .obj (Fields.ofPairs (ps.map fun p => (p.1.mended, f p.2)))

end Dump

/-- A parameter as a JSON value. -/
def Parameter.dump (form : DumpForm) (p : Parameter) : Json :=
  Dump.object form
    [Dump.always "name" (.str p.name), Dump.always "in" (Json.string p.place.word),
      Dump.always "required" (.bool p.required), Dump.field "description" .str p.description,
      Dump.field "schema" (Dump.dictionary form) p.schema, Dump.free form "example" p.sample,
      Dump.field "examples" (Dump.dictionary form) p.samples]
    p.extra

/-- An operation as a JSON value. -/
def Operation.dump (form : DumpForm) (o : Operation) : Json :=
  Dump.object form
    [Dump.always "summary" (.str o.summary), Dump.always "description" (.str o.description),
      Dump.field "parameters" (Dump.list (Parameter.dump form)) o.parameters,
      Dump.field "requestBody" (Dump.dictionary form) o.requestBody,
      Dump.field "responses" (Dump.dictionary form) o.responses,
      Dump.field "tags" (Dump.list .str) o.tags]
    o.extra

/-- The information about an interface as a JSON value. -/
def Info.dump (form : DumpForm) (i : Info) : Json :=
  Dump.object form
    [Dump.field "title" .str i.title, Dump.field "version" .str i.version,
      Dump.field "description" .str i.description] []

/-- A server as a JSON value. -/
def Server.dump (form : DumpForm) (s : Server) : Json :=
  Dump.object form [Dump.always "url" (.str s.url), Dump.field "description" .str s.description] []

/-- Operations by path and method as a JSON value. -/
def PathMap.dump (form : DumpForm) (m : PathMap) : Json :=
  Dump.map form (Dump.map form (Operation.dump form)) m

/-- A document as a JSON value. -/
def Document.dump (form : DumpForm) (d : Document) : Json :=
  Dump.object form
    [Dump.always "openapi" (.str d.openapi), Dump.always "info" (d.info.dump form),
      Dump.always "servers" (Dump.list (Server.dump form) d.servers),
      Dump.always "paths" (d.paths.dump form)] []

/-- The library that makes strict dumps.  What it refuses it refuses for the value that it would
have to return. -/
structure Dumper where
  /-- Why nothing is dumped as this value, if nothing is. -/
  refusal? : Json → Option DumpError
  /-- So many levels are always dumped, if the names in them have an encoding. -/
  levels : Nat
  /-- More levels than these are never dumped. -/
  limit : Nat
  accepts : ∀ v : Json, v.depth ≤ levels → v.unencodableName? = none → refusal? v = none
  refuses : ∀ v : Json, limit < v.depth → refusal? v ≠ none

/-- A library that goes to this depth. -/
def Dumper.ofLimit (limit : Nat) : Dumper where
  refusal? v :=
    if limit < v.depth then some (.tooDeep "Maximum serialization depth exceeded")
    else v.unencodableName?.map .surrogateName
  levels := limit
  limit := limit
  accepts v hd hn := by rw [if_neg (Nat.not_lt.mpr hd), hn, Option.map_none]
  refuses v hd := by
    rw [if_pos hd]
    exact Option.some_ne_none _

/-- A document as a value of strict JSON. -/
def Document.toJson (d : Document) (dumper : Dumper) : Except DumpError Json :=
  match dumper.refusal? (d.dump .strict) with
  | some reason => .error reason
  | none => .ok (d.dump .strict)

/-- The value that a document is rendered from: all its numbers can be written. -/
def Document.source (d : Document) (dumper : Dumper) : Except DumpError Json := do
  let v ← d.toJson dumper
  if v.hasLongInteger then .error .longInteger else .ok v

end RouteScribe
