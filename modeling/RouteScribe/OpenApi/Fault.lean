import RouteScribe.Json.Basic

/-!
# Faults of data that should have a given shape

A `Fault` says what is wrong at one place of a value; checking a value yields all its faults in the
order of the parts.  `InvalidData.message` is the report: a heading that counts the faults, and for
each of them its place and its words.  The library that reports them also shows the input at the
place and says where to read more; how it does this is left to it, as a `Remark`.
-/

namespace RouteScribe

/-- What is wrong at one place. -/
inductive FaultKind where
  | missing
  | notString
  | notUnicode
  | notBoolean
  | unclearBoolean
  | notDictionary
  | notList
  /-- Neither a dictionary nor a value of the named shape. -/
  | notModel (name : String)
  | notPlace
  | notInteger
  | unclearInteger
  | fractionalInteger
  | infiniteInteger
  | notPath
deriving DecidableEq, Repr

namespace FaultKind

/-- The words for a kind of fault. -/
def message : FaultKind → String
  | missing => "Field required"
  | notString => "Input should be a valid string"
  | notUnicode => "Input should be a valid string, unable to parse raw data as a unicode string"
  | notBoolean => "Input should be a valid boolean"
  | unclearBoolean => "Input should be a valid boolean, unable to interpret input"
  | notDictionary => "Input should be a valid dictionary"
  | notList => "Input should be a valid list"
  | notModel name => "Input should be a valid dictionary or instance of " ++ name
  | notPlace => "Input should be 'query', 'path', 'header', 'body' or 'cookie'"
  | notInteger => "Input should be a valid integer"
  | unclearInteger => "Input should be a valid integer, unable to parse string as an integer"
  | fractionalInteger => "Input should be a valid integer, got a number with a fractional part"
  | infiniteInteger => "Input should be a finite number"
  | notPath => "Input is not a valid path"

/-- The short name of a kind of fault. -/
def code : FaultKind → String
  | missing => "missing"
  | notString => "string_type"
  | notUnicode => "string_unicode"
  | notBoolean => "bool_type"
  | unclearBoolean => "bool_parsing"
  | notDictionary => "dict_type"
  | notList => "list_type"
  | notModel _ => "model_type"
  | notPlace => "literal_error"
  | notInteger => "int_type"
  | unclearInteger => "int_parsing"
  | fractionalInteger => "int_from_float"
  | infiniteInteger => "finite_number"
  | notPath => "path_type"

end FaultKind

/-- A step from a value to a part of it. -/
inductive Step where
  | member (name : Text)
  | item (index : Nat)
deriving DecidableEq, Repr

/-- A step in a report.  A name that holds a point stands between backquotes. -/
def Step.shown : Step → String
  | member name => if name.contains '.' then "`" ++ name.shown ++ "`" else name.shown
  | item index => toString index

/-- A fault and its place. -/
structure Fault where
  place : List Step
  kind : FaultKind
deriving DecidableEq, Repr

/-- What a report adds to the words of a fault. -/
structure Remark where
  /-- How the input at the place is shown, behind the name of the fault. -/
  input : String := ""
  /-- The lines that say where to read more. -/
  more : List String := []

/-- What is added to each fault of a value. -/
abbrev Remarks := Json → Fault → Remark

/-- Nothing is added. -/
def Remarks.none : Remarks := fun _ _ => {}

/-- The lines of a fault in a report. -/
def Fault.lines (f : Fault) (r : Remark) : List String :=
  let words := ("  " ++ f.kind.message ++ " [type=" ++ f.kind.code ++ r.input ++ "]") :: r.more
  if f.place.isEmpty then words else ".".intercalate (f.place.map Step.shown) :: words

/-- A value that lacks the shape named by the title. -/
structure InvalidData where
  title : String
  value : Json
  faults : List Fault
deriving Repr

/-- The report of the faults. -/
def InvalidData.message (e : InvalidData) (remarks : Remarks) : String :=
  let count := e.faults.length
  let heading := toString count ++ (if count = 1 then " validation error for " else
    " validation errors for ") ++ e.title
  "\n".intercalate (heading :: e.faults.flatMap fun f => f.lines (remarks e.value f))

/-- A checked value, or its faults. -/
abbrev Checked (α : Type) := Except (List Fault) α

namespace Checked

/-- A fault at the place itself. -/
def fail {α : Type} (kind : FaultKind) : Checked α := .error [⟨[], kind⟩]

/-- The check of a part, seen from the whole. -/
def below {α : Type} (s : Step) : Checked α → Checked α
  | .ok a => .ok a
  | .error fs => .error (fs.map fun f => { f with place := s :: f.place })

/-- Two checks, with the faults of both. -/
def and {α β γ : Type} (f : α → β → γ) : Checked α → Checked β → Checked γ
  | .ok a, .ok b => .ok (f a b)
  | .ok _, .error fs => .error fs
  | .error fs, .ok _ => .error fs
  | .error fs, .error gs => .error (fs ++ gs)

/-- One more part of a value that is built from checked parts. -/
def seq {α β : Type} (f : Checked (α → β)) (a : Checked α) : Checked β := and (fun f a => f a) f a

/-- The checks of a list of parts. -/
def all {α : Type} : List (Checked α) → Checked (List α)
  | [] => .ok []
  | c :: cs => and List.cons c (all cs)

/-- A checked value; its faults come under a title. -/
def titled {α : Type} (title : String) (check : Json → Checked α) (v : Json) :
    Except InvalidData α :=
  (check v).mapError fun faults => ⟨title, v, faults⟩

end Checked

end RouteScribe
