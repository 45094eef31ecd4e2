import RouteScribe.OpenApi.Check
import RouteScribe.Proofs.Except
import RouteScribe.Proofs.OpenApi.Dump

/-! # Which documents can be rendered

`Document.NamesDistinct` says that no object that the document holds names a member twice; then
neither does its dump (`Document.regular_dump`).  A document `Renders` if the dumper does not refuse
its dump and this holds no integer that is too long (`Document.source_isOk_iff`): so do all documents
with short integers that lie within the levels which are always dumped (`Document.renders_of_levels`).
-/

namespace RouteScribe

open Dump

/-! ### What is asked of the parts -/

/-- The dictionary of a part names no member twice, at any depth. -/
def Fields.NamesDistinct (fs : Fields) : Prop := (Json.obj fs).NamesDistinct

/-- Extra members have names of their own, and no object inside a parameter names a member twice. -/
structure Parameter.NamesDistinct (p : Parameter) : Prop where
  names : (Parameter.keys.map (fun k => Text.ofString k.name) ++ p.extra.map Prod.fst).Nodup
  schema : ∀ fs ∈ p.schema, Fields.NamesDistinct fs
  sample : p.sample.NamesDistinct
  samples : ∀ fs ∈ p.samples, Fields.NamesDistinct fs
  extra : ∀ m ∈ p.extra, m.2.NamesDistinct

/-- Extra members have names of their own, and no object inside an operation names a member twice.
-/
structure Operation.NamesDistinct (o : Operation) : Prop where
  names : (Operation.keys.map (fun k => Text.ofString k.name) ++ o.extra.map Prod.fst).Nodup
  parameters : ∀ ps ∈ o.parameters, ∀ p ∈ ps, p.NamesDistinct
  requestBody : ∀ fs ∈ o.requestBody, Fields.NamesDistinct fs
  responses : ∀ fs ∈ o.responses, Fields.NamesDistinct fs
  extra : ∀ m ∈ o.extra, m.2.NamesDistinct

/-- No object in the operations of a document names a member twice. -/
def Document.NamesDistinct (d : Document) : Prop :=
  ∀ item ∈ d.paths, ∀ op ∈ item.2, op.2.NamesDistinct

/-! ### The dumps of the parts -/

theorem regular_texts (t : Text) : (Json.str t).Regular := trivial

theorem Parameter.regular_dump {p : Parameter} (hp : p.NamesDistinct) :
    (p.dump .strict).Regular := by
  refine regular_object ?_ hp.extra ?_
  · simp only [List.forall_mem_cons]
    exact ⟨regular_always trivial, regular_always trivial, regular_always trivial,
      regular_field fun t _ => regular_texts t,
      regular_field fun fs hfs => regular_dictionary (hp.schema fs hfs),
      regular_free _ hp.sample,
      regular_field fun fs hfs => regular_dictionary (hp.samples fs hfs),
      List.forall_mem_nil _⟩
  · simp only [List.map_cons, name_always, name_field, name_free]
    exact hp.names

theorem Operation.regular_dump {o : Operation} (ho : o.NamesDistinct) :
    (o.dump .strict).Regular := by
  refine regular_object ?_ ho.extra ?_
  · simp only [List.forall_mem_cons]
    exact ⟨regular_always trivial, regular_always trivial,
      regular_field fun ps hps => regular_list fun p hp =>
        Parameter.regular_dump (ho.parameters ps hps p hp),
      regular_field fun fs hfs => regular_dictionary (ho.requestBody fs hfs),
      regular_field fun fs hfs => regular_dictionary (ho.responses fs hfs),
      regular_field fun ts _ => regular_list fun t _ => regular_texts t,
      List.forall_mem_nil _⟩
  · simp only [List.map_cons, name_always, name_field]
    exact ho.names

theorem Info.regular_dump (i : Info) : (i.dump .strict).Regular := by
  refine regular_object ?_ (List.forall_mem_nil _) ?_
  · simp only [List.forall_mem_cons]
    exact ⟨regular_field fun t _ => regular_texts t, regular_field fun t _ => regular_texts t,
      regular_field fun t _ => regular_texts t, List.forall_mem_nil _⟩
  · simp only [List.map_cons, name_field]
    decide

theorem Server.regular_dump (s : Server) : (s.dump .strict).Regular := by
  refine regular_object ?_ (List.forall_mem_nil _) ?_
  · simp only [List.forall_mem_cons]
    exact ⟨regular_always trivial, regular_field fun t _ => regular_texts t, List.forall_mem_nil _⟩
  · simp only [List.map_cons, name_always, name_field]
    decide

theorem PathMap.regular_dump {m : PathMap}
    (hm : ∀ item ∈ m, ∀ op ∈ item.2, op.2.NamesDistinct) : (m.dump .strict).Regular :=
  regular_map fun item hitem => regular_map fun op hop =>
    Operation.regular_dump (hm item hitem op hop)

namespace Document

theorem regular_dump {d : Document} (hd : d.NamesDistinct) : (d.dump .strict).Regular := by
  refine regular_object ?_ (List.forall_mem_nil _) ?_
  · simp only [List.forall_mem_cons]
    exact ⟨regular_always trivial, regular_always d.info.regular_dump,
      regular_always (regular_list fun s _ => s.regular_dump),
      regular_always (PathMap.regular_dump hd), List.forall_mem_nil _⟩
  · simp only [List.map_cons, name_always]
    decide

/-! ### Documents with a text -/

variable {d : Document} {dumper : Dumper} {v : Json}

/-- The dump of a document is its value of strict JSON, unless the dumper refuses it. -/
theorem toJson_eq_ok_iff :
    d.toJson dumper = .ok v ↔ d.dump .strict = v ∧ dumper.refusal? v = none := by
  unfold toJson
  cases hr : dumper.refusal? (d.dump .strict) with
  | none =>
      rw [Except.ok.injEq]
      exact ⟨fun h => ⟨h, h ▸ hr⟩, And.left⟩
  | some reason =>
      refine iff_of_false nofun ?_
      rintro ⟨rfl, hnone⟩
      exact Option.some_ne_none _ (hr.symm.trans hnone)

theorem toJson_isOk_iff (d : Document) (dumper : Dumper) :
    (∃ v, d.toJson dumper = .ok v) ↔ dumper.refusal? (d.dump .strict) = none := by
  simp only [toJson_eq_ok_iff]
  exact exists_eq_left'

/-- What is dumped has no more levels than the limit of the dumper. -/
theorem depth_le_limit (h : d.toJson dumper = .ok v) : v.depth ≤ dumper.limit :=
  Nat.le_of_not_lt fun hlt => dumper.refuses v hlt (toJson_eq_ok_iff.mp h).2

theorem exists_obj_of_toJson (h : d.toJson dumper = .ok v) : ∃ ms, v = .obj ms :=
  ⟨_, (toJson_eq_ok_iff.mp h).1.symm⟩

/-- The document can be rendered: its dump is not refused, and no integer in it is too long. -/
structure Renders (d : Document) (dumper : Dumper) : Prop where
  dumped : dumper.refusal? (d.dump .strict) = none
  short : (d.dump .strict).Holds Number.IsShort fun _ => True

/-- A document is rendered from its dump unless that holds a long integer. -/
theorem source_eq_ok_iff :
    d.source dumper = .ok v ↔ d.toJson dumper = .ok v ∧ v.Holds Number.IsShort fun _ => True := by
  have h : d.source dumper = (d.toJson dumper).bind fun v =>
    if v.hasLongInteger then .error .longInteger else .ok v := rfl
  rw [h, bind_eq_ok_iff, ← Json.hasLongInteger_eq_false_iff]
  constructor
  · rintro ⟨w, hw, h⟩
    cases hl : w.hasLongInteger <;> rw [hl] at h
    · cases h
      exact ⟨hw, hl⟩
    · cases h
  · rintro ⟨hv, hl⟩
    exact ⟨v, hv, by rw [hl]; rfl⟩

theorem source_isOk_iff (d : Document) (dumper : Dumper) :
    (∃ v, d.source dumper = .ok v) ↔ d.Renders dumper := by
  simp only [source_eq_ok_iff, toJson_eq_ok_iff]
  constructor
  · rintro ⟨_, ⟨rfl, hdumped⟩, hshort⟩
    exact ⟨hdumped, hshort⟩
  · rintro ⟨hdumped, hshort⟩
    exact ⟨_, ⟨rfl, hdumped⟩, hshort⟩

/-- A document whose dump is not nested deep is rendered, if its names have an encoding and its
integers are short. -/
theorem renders_of_levels (hd : (d.dump .strict).depth ≤ dumper.levels)
    (hn : (d.dump .strict).unencodableName? = none)
    (hs : (d.dump .strict).Holds Number.IsShort fun _ => True) : d.Renders dumper :=
  ⟨dumper.accepts _ hd hn, hs⟩

end Document
end RouteScribe
