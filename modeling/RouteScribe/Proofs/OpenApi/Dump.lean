import Mathlib.Data.List.Nodup
import RouteScribe.OpenApi.Dump
import RouteScribe.Proofs.Assoc
import RouteScribe.Proofs.Json.Value

/-! # Dumps are regular

A strict dump in which no name was given twice is `Regular`: its numbers are finite and no object in
it names a member twice.  It is so for free values (`Json.regular_strict`), and for an object of
fields and extra members if their names are apart (`Dump.regular_object`). -/

namespace RouteScribe

/-! ### Free values -/

namespace Json

theorem strictItems_eq_map (vs : List Json) : strictItems vs = vs.map strict := by
  induction vs with
  | nil => rfl
  | cons v vs ih => rw [strictItems, ih, List.map_cons]

theorem strictMembers_eq_map (ms : List (Text × Json)) :
    strictMembers ms = ms.map fun m => (m.1, m.2.strict) := by
  induction ms with
  | nil => rfl
  | cons m ms ih => rw [strictMembers, ih, List.map_cons]

theorem strict_arr (vs : List Json) : (arr vs).strict = arr (vs.map strict) := by
  rw [strict, strictItems_eq_map]

theorem strict_obj (ms : List (Text × Json)) :
    (obj ms).strict = obj (ms.map fun m => (m.1, m.2.strict)) := by
  rw [strict, strictMembers_eq_map]

/-- The strict form has no number that JSON does not know, and keeps the names. -/
theorem regular_strict {v : Json} (hv : v.NamesDistinct) : v.strict.Regular := by
  induction v using rec_mem with
  | null | bool _ | str _ => trivial
  | num n =>
      cases n with
      | integer n => trivial
      | real x => cases hx : x.isFinite <;> simp [strict, Regular, Number.IsFinite, hx]
  | arr vs ih =>
      rw [strict_arr]
      refine holds_arr.mpr (List.forall_mem_map.mpr fun v hmem => ?_)
      exact ih v hmem (holds_arr.mp hv v hmem)
  | obj ms ih =>
      obtain ⟨hnames, hvalues⟩ := holds_obj.mp hv
      rw [strict_obj]
      refine holds_obj.mpr ⟨?_, List.forall_mem_map.mpr fun m hmem => ?_⟩
      · rwa [List.map_map]
      · exact ih m hmem (hvalues m hmem)

end Json

/-! ### Objects of fields -/

namespace Dump

/-- The field has no value, or becomes a regular one. -/
def Field.Regular (f : Field) : Prop := f.present = true → f.value.Regular

variable {α : Type} {fields : List Field} {extra : Fields}

/-- In the strict form the members are the fields with a value. -/
theorem members_strict (fs : List (Text × Field)) :
    members .strict fs = (fs.filter fun f => f.2.present).map fun f => (f.1, f.2.value) := by
  rw [members]
  congr 1

theorem names_members (fs : List (Text × Field)) :
    ((members .strict fs).map Prod.fst).Sublist (fs.map Prod.fst) := by
  rw [members_strict, List.map_map]
  exact List.filter_sublist.map _

theorem exists_of_mem_members {fs : List (Text × Field)} {m : Text × Json}
    (hm : m ∈ members .strict fs) :
    ∃ f ∈ fs, f.2.present = true ∧ f.1 = m.1 ∧ f.2.value = m.2 := by
  rw [members_strict] at hm
  obtain ⟨f, hf, rfl⟩ := List.mem_map.mp hm
  obtain ⟨hf, hp⟩ := List.mem_filter.mp hf
  exact ⟨f, hf, hp, rfl, rfl⟩

theorem present_free (form : DumpForm) (name : String) (v : Json) :
    (free form name v).present = true ↔ v ≠ .null := by
  cases v <;> simp [free]

theorem regular_free (name : String) {v : Json} (hv : v.NamesDistinct) :
    (free .strict name v).Regular := fun _ => Json.regular_strict hv

/-- An object of regular fields is regular if no name is that of two members. -/
theorem regular_object (hf : ∀ f ∈ fields, f.Regular) (he : ∀ m ∈ extra, m.2.NamesDistinct)
    (hn : (fields.map (fun f => Text.ofString f.name) ++ extra.map Prod.fst).Nodup) :
    (object .strict fields extra).Regular := by
  refine Json.holds_obj.mpr ⟨?_, ?_⟩
  · have hk := names_members (fields.map fun f => (Text.ofString f.name, f))
    have ho := names_members (extra.map fun m => (m.1, free .strict "" m.2))
    rw [List.map_map] at hk ho
    rw [List.map_append]
    exact hn.sublist (hk.append ho)
  · intro m hm
    rcases List.mem_append.mp hm with hm | hm
    · obtain ⟨nf, hmem, hp, -, hv⟩ := exists_of_mem_members hm
      obtain ⟨f, hfields, rfl⟩ := List.mem_map.mp hmem
      exact hv ▸ hf f hfields hp
    · obtain ⟨nf, hmem, hp, -, hv⟩ := exists_of_mem_members hm
      obtain ⟨e, hextra, rfl⟩ := List.mem_map.mp hmem
      exact hv ▸ regular_free "" (he e hextra) hp

/-! ### Fields, lists and maps -/

variable {name : String} {f : α → Json}

@[simp] theorem name_always (v : Json) : (always name v).name = name := rfl
@[simp] theorem name_free (form : DumpForm) (v : Json) : (free form name v).name = name := rfl

@[simp] theorem name_field (o : Option α) : (field name f o).name = name := by
  cases o <;> rfl

theorem regular_always {v : Json} (hv : v.Regular) : (always name v).Regular := fun _ => hv

theorem regular_field {o : Option α} (h : ∀ a ∈ o, (f a).Regular) :
    (field name f o).Regular := by
  cases o with
  | none => exact fun hp => nomatch hp
  | some a => exact fun _ => h a rfl

theorem regular_dictionary {fs : Fields} (hf : (Json.obj fs).NamesDistinct) :
    (dictionary .strict fs).Regular := Json.regular_strict hf

theorem regular_list {as : List α} (hf : ∀ a ∈ as, (f a).Regular) : (list f as).Regular :=
  Json.holds_arr.mpr (List.forall_mem_map.mpr hf)

/-- Names that became equal are merged, so a map is regular if its parts are. -/
theorem regular_map {ps : List (Text × α)} (h : ∀ p ∈ ps, (f p.2).Regular) :
    (map .strict f ps).Regular := by
  refine Json.holds_obj.mpr ⟨Assoc.nodup_names_ofPairs _, fun m hm => ?_⟩
  obtain ⟨p, hp, rfl⟩ := List.mem_map.mp (Assoc.mem_of_mem_ofPairs hm)
  exact h p hp

end Dump
end RouteScribe
