import RouteScribe.Proofs.OpenApi.Dump

/-! # The full dump copies

In the full form a free value is written as it is, however deep it is nested, and every field
becomes a member.  So the full dump of an operation holds its fields under their OpenAPI names,
nulls included, with the extra members behind them (`Operation.dump_full`). -/

namespace RouteScribe

namespace Dump

variable {α : Type}

theorem value_field (name : String) (f : α → Json) (o : Option α) :
    (field name f o).value = o.elim .null f := by
  cases o <;> rfl

/-- In the full form every field becomes a member. -/
theorem members_full (fs : List (Text × Field)) :
    members .full fs = fs.map fun f => (f.1, f.2.value) := by
  have hall : (fs.filter fun f => (DumpForm.full == .full || f.2.present)) = fs :=
    List.filter_eq_self.mpr fun _ _ => rfl
  rw [members, hall]

/-- An object holds its fields and behind them the extra members as they are. -/
theorem object_full (fields : List Field) (extra : Fields) :
    object .full fields extra =
      .obj ((fields.map fun f => (Text.ofString f.name, f.value)) ++ extra) := by
  have hextra : (extra.map fun m => (m.1, (free .full "" m.2).value)) = extra := List.map_id' extra
  rw [object, members_full, members_full, List.map_map, List.map_map]
  exact congrArg (fun others => Json.obj (_ ++ others)) hextra

end Dump

open Dump

/-- The fields of a parameter under their OpenAPI names. -/
def Parameter.known (p : Parameter) : Fields :=
  [("name", .str p.name), ("in", Json.string p.place.word), ("required", .bool p.required),
    ("description", p.description.elim .null .str), ("schema", p.schema.elim .null .obj),
    ("example", p.sample), ("examples", p.samples.elim .null .obj)]

/-- The members of a parameter: its fields, nulls included, and the extra ones. -/
def Parameter.members (p : Parameter) : Fields := p.known ++ p.extra

/-- The fields of an operation under their OpenAPI names. -/
def Operation.known (o : Operation) : Fields :=
  [("summary", .str o.summary), ("description", .str o.description),
    ("parameters", o.parameters.elim .null fun ps => .arr (ps.map fun p => .obj p.members)),
    ("requestBody", o.requestBody.elim .null .obj), ("responses", o.responses.elim .null .obj),
    ("tags", o.tags.elim .null fun ts => .arr (ts.map .str))]

/-- The members of an operation: its fields, nulls included, and the extra ones. -/
def Operation.members (o : Operation) : Fields := o.known ++ o.extra

theorem Parameter.dump_full (p : Parameter) : p.dump .full = .obj p.members := by
  rw [Parameter.dump, object_full]
  simp only [List.map_cons, List.map_nil, name_always, name_field, name_free, value_field]
  rfl

/-- The full dump of an operation is the object of its members. -/
theorem Operation.dump_full (o : Operation) : o.dump .full = .obj o.members := by
  have hparameters : Dump.list (Parameter.dump .full) =
      fun ps => .arr (ps.map fun p => .obj p.members) := by
    funext ps
    rw [Dump.list, funext Parameter.dump_full]
  rw [Operation.dump, object_full, hparameters]
  simp only [List.map_cons, List.map_nil, name_always, name_field, value_field]
  rfl

end RouteScribe
