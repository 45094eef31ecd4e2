import RouteScribe.OpenApi.Basic
import RouteScribe.OpenApi.Fault

/-!
# Checking data against the parts of a document

`check` functions read JSON values as parameters, operations and documents.  A member is looked up
under its OpenAPI name first and, where the part has one, under a second name; members that no field
claims are kept by operations and parameters and dropped by the rest.  The faults of all parts are
reported together.
-/

namespace RouteScribe

namespace Check

/-- The text has a code point that no encoding can carry. -/
def broken (t : Text) : Bool := t.chars?.isNone

/-- A string. -/
def text : Json → Checked Text
  | .str s => .ok s
  | _ => .fail .notString

/-- An object. -/
def dictionary : Json → Checked Fields
  | .obj fs => .ok fs
  | _ => .fail .notDictionary

/-- A list whose items pass a check. -/
def listOf {α : Type} (item : Json → Checked α) : Json → Checked (List α)
  | .arr vs => Checked.all (vs.zipIdx.map fun (v, i) => Checked.below (.item i) (item v))
  | _ => .fail .notList

/-- Null, or a value that passes a check. -/
def optional {α : Type} (inner : Json → Checked α) : Json → Checked (Option α)
  | .null => .ok none
  | v => (inner v).map some

/-- An object whose members pass a check. -/
def mapOf {α : Type} (item : Json → Checked α) : Json → Checked (List (Text × α))
  | .obj fs =>
    Checked.all (fs.map fun (k, v) => Checked.below (.member k) ((item v).map fun a => (k, a)))
  | _ => .fail .notDictionary

/-- The words that stand for false. -/
def falseWords : List String := ["0", "off", "f", "false", "n", "no"]

/-- The words that stand for true. -/
def trueWords : List String := ["1", "on", "t", "true", "y", "yes"]

/-- The text with its ASCII letters in lower case. -/
def asciiLower (t : Text) : Text :=
  t.map fun
    | .scalar c => .scalar c.toLower
    | c => c

/-- The numbers 0 and 1 as truth values. -/
def bit (n : Int) : Checked Bool :=
  if n = 0 then .ok false else if n = 1 then .ok true else .fail .unclearBoolean

/-- The number fits into a signed word of 64 bits. -/
def fits64 (n : Int) : Bool := -9223372036854775808 ≤ n && n ≤ 9223372036854775807

/-- A truth value, also given by the number or the word for it. -/
def boolean : Json → Checked Bool
  | .bool b => .ok b
  | .num (.integer n) => if fits64 n then bit n else .fail .notBoolean
  | .num (.real x) =>
    match x.toInt? with
    | some n => if fits64 n then bit n else .fail .notBoolean
    | none => .fail .notBoolean
  | .str s =>
    if broken s then .fail .notUnicode
    else
      let w := asciiLower s
      if falseWords.any fun x => Text.ofString x = w then .ok false
      else if trueWords.any fun x => Text.ofString x = w then .ok true
      else .fail .unclearBoolean
  | _ => .fail .notBoolean

/-- The place of a parameter. -/
def place : Json → Checked Place
  | .str s =>
    if broken s then .fail .notUnicode
    else
      match Place.ofText? s with
      | some p => .ok p
      | none => .fail .notPlace
  | _ => .fail .notPlace

/-- The names under which a field may be given; the first one that is present counts. -/
structure Key where
  name : String
  other : Option String := none

/-- The name under which an object gives a field. -/
def Key.used (k : Key) (fs : Fields) : Text :=
  match k.other with
  | some o => if fs.has (Text.ofString k.name) then k.name else if fs.has (Text.ofString o) then o
      else k.name
  | none => k.name

/-- A field that must be there. -/
def required {α : Type} (fs : Fields) (k : Key) (inner : Json → Checked α) : Checked α :=
  let name := k.used fs
  match fs.get? name with
  | some v => Checked.below (.member name) (inner v)
  | none => Checked.below (.member name) (.fail .missing)

/-- A field with a value for when it is missing. -/
def defaulted {α : Type} (fs : Fields) (k : Key) (absent : α) (inner : Json → Checked α) :
    Checked α :=
  let name := k.used fs
  match fs.get? name with
  | some v => Checked.below (.member name) (inner v)
  | none => .ok absent

/-- The members that none of the fields claims. -/
def unclaimed (fs : Fields) (keys : List Key) : Fields :=
  let claimed := keys.map fun k => k.used fs
  fs.filter fun f => !claimed.contains f.1

/-- An object whose unclaimed members are kept: their names must have an encoding. -/
def openModel {α : Type} (name : String) (inner : Fields → Checked α) : Json → Checked α
  | .obj fs => if fs.any fun f => broken f.1 then .fail .notUnicode else inner fs
  | _ => .fail (.notModel name)

/-- An object whose unclaimed members are dropped. -/
def closedModel {α : Type} (name : String) (inner : Fields → Checked α) : Json → Checked α
  | .obj fs => inner fs
  | _ => .fail (.notModel name)

end Check

namespace Parameter

/-- The fields of a parameter. -/
def keys : List Check.Key :=
  [⟨"name", none⟩, ⟨"in", some "location"⟩, ⟨"required", none⟩, ⟨"description", none⟩,
    ⟨"schema", some "json_schema"⟩, ⟨"example", none⟩, ⟨"examples", none⟩]

/-- Reads a value as a parameter. -/
def check : Json → Checked Parameter :=
  Check.openModel "Parameter" fun fs =>
    .seq (.seq (.seq (.seq (.seq (.seq ((Check.required fs ⟨"name", none⟩ Check.text).map
      fun name place required description schema sample samples =>
        { name, place, required, description, schema, sample, samples
          extra := Check.unclaimed fs keys })
      (Check.required fs ⟨"in", some "location"⟩ Check.place))
      (Check.defaulted fs ⟨"required", none⟩ false Check.boolean))
      (Check.defaulted fs ⟨"description", none⟩ none (Check.optional Check.text)))
      (Check.defaulted fs ⟨"schema", some "json_schema"⟩ none (Check.optional Check.dictionary)))
      (Check.defaulted fs ⟨"example", none⟩ .null .ok))
      (Check.defaulted fs ⟨"examples", none⟩ none (Check.optional Check.dictionary))

end Parameter

namespace Operation

/-- The fields of an operation. -/
def keys : List Check.Key :=
  [⟨"summary", none⟩, ⟨"description", none⟩, ⟨"parameters", none⟩,
    ⟨"requestBody", some "request_body"⟩, ⟨"responses", none⟩, ⟨"tags", none⟩]

/-- Reads a value as an operation. -/
def check : Json → Checked Operation :=
  Check.openModel "Operation" fun fs =>
    .seq (.seq (.seq (.seq (.seq ((Check.required fs ⟨"summary", none⟩ Check.text).map
      fun summary description parameters requestBody responses tags =>
        { summary, description, parameters, requestBody, responses, tags
          extra := Check.unclaimed fs keys })
      (Check.required fs ⟨"description", none⟩ Check.text))
      (Check.defaulted fs ⟨"parameters", none⟩ none
        (Check.optional (Check.listOf Parameter.check))))
      (Check.defaulted fs ⟨"requestBody", some "request_body"⟩ none
        (Check.optional Check.dictionary)))
      (Check.defaulted fs ⟨"responses", none⟩ none (Check.optional Check.dictionary)))
      (Check.defaulted fs ⟨"tags", none⟩ none (Check.optional (Check.listOf Check.text)))

end Operation

namespace PathMap

/-- Reads a value as operations by path and method. -/
def check : Json → Checked PathMap := Check.mapOf (Check.mapOf Operation.check)

end PathMap

namespace Info

/-- Reads a value as the information about an interface. -/
def check : Json → Checked Info :=
  Check.closedModel "Info" fun fs =>
    .seq (.seq ((Check.defaulted fs ⟨"title", none⟩ none (Check.optional Check.text)).map
      fun title version description => { title, version, description })
      (Check.defaulted fs ⟨"version", none⟩ none (Check.optional Check.text)))
      (Check.defaulted fs ⟨"description", none⟩ none (Check.optional Check.text))

end Info

namespace Server

/-- Reads a value as a server. -/
def check : Json → Checked Server :=
  Check.closedModel "Server" fun fs =>
    .seq ((Check.required fs ⟨"url", none⟩ Check.text).map fun url description =>
      { url, description })
      (Check.defaulted fs ⟨"description", none⟩ none (Check.optional Check.text))

end Server

namespace Document

/-- Reads a value as a document. -/
def check : Json → Checked Document :=
  Check.closedModel "OpenApiDocument" fun fs =>
    .seq (.seq (.seq ((Check.required fs ⟨"openapi", none⟩ Check.text).map
      fun openapi info servers paths => { openapi, info, servers, paths })
      (Check.required fs ⟨"info", none⟩ Info.check))
      (Check.defaulted fs ⟨"servers", none⟩ [] (Check.listOf Server.check)))
      (Check.required fs ⟨"paths", none⟩ PathMap.check)

end Document

end RouteScribe
