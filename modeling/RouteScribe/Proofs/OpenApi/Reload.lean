import RouteScribe.Proofs.OpenApi.Render
import RouteScribe.Proofs.OpenApi.Stable

/-! # Documents that are loaded again

The strict dump of a document can be checked, and the document that comes out has the same dump
(`Document.reloads_iff`).  This needs three things of the document.  Its extra members have names of
their own (`Document.OwnNames`), as in all that is read: members with the names of fields are taken
for the fields.  None of them goes by the second name of a field (`Document.NoSecondNames`): the dump
goes by first names, so such a member would be taken for the field if that has no value.  And all
numbers are finite (`Document.Finite`): an extra member that is no number is dumped as null, and null
is dropped the next time. -/

namespace RouteScribe

open Dump Check Checked
open Json (Stable)

/-! ### What is asked of the parts -/

/-- All numbers in the free values of the parameter are finite. -/
structure Parameter.Finite (p : Parameter) : Prop where
  schema : ∀ fs ∈ p.schema, (Json.obj fs).Finite
  sample : p.sample.Finite
  samples : ∀ fs ∈ p.samples, (Json.obj fs).Finite
  extra : ∀ m ∈ p.extra, m.2.Finite

/-- All numbers in the free values of the operation are finite. -/
structure Operation.Finite (o : Operation) : Prop where
  parameters : ∀ ps ∈ o.parameters, ∀ p ∈ ps, p.Finite
  requestBody : ∀ fs ∈ o.requestBody, (Json.obj fs).Finite
  responses : ∀ fs ∈ o.responses, (Json.obj fs).Finite
  extra : ∀ m ∈ o.extra, m.2.Finite

/-- All numbers in the document are finite. -/
def Document.Finite (d : Document) : Prop := ∀ item ∈ d.paths, ∀ op ∈ item.2, op.2.Finite

/-- The extra members of the operation and of its parameters have names of their own. -/
structure Operation.OwnNames (o : Operation) : Prop where
  extra : Dump.OwnNames Operation.keys o.extra
  parameters : ∀ ps ∈ o.parameters, ∀ p ∈ ps, Dump.OwnNames Parameter.keys p.extra

/-- All extra members in the document have names of their own. -/
def Document.OwnNames (d : Document) : Prop := ∀ item ∈ d.paths, ∀ op ∈ item.2, op.2.OwnNames

/-- No extra member of the operation or of its parameters goes by the second name of a field. -/
structure Operation.NoSecondNames (o : Operation) : Prop where
  extra : Dump.NoSecondNames Operation.keys o.extra
  parameters : ∀ ps ∈ o.parameters, ∀ p ∈ ps, Dump.NoSecondNames Parameter.keys p.extra

/-- No extra member in the document goes by the second name of a field. -/
def Document.NoSecondNames (d : Document) : Prop :=
  ∀ item ∈ d.paths, ∀ op ∈ item.2, op.2.NoSecondNames

/-! ### Values of fields -/

/-- A text is no null. -/
theorem stable_said (t : Text) : Json.str t ≠ .null ∧ (Json.str t).Stable Check.text .str :=
  ⟨nofun, stable_text t⟩

theorem stable_fields (fs : Fields) : Dump.dictionary .strict fs ≠ .null ∧
    (Dump.dictionary .strict fs).Stable Check.dictionary (Dump.dictionary .strict) :=
  ⟨nofun, stable_dictionary fs⟩

/-- A list of parts is no null, and stable if the dumps of the parts are. -/
theorem stable_list {α : Type} {check : Json → Checked α} {dump : α → Json} {as : List α}
    (hs : ∀ a ∈ as, (dump a).Stable check dump) :
    Dump.list dump as ≠ .null ∧
      (Dump.list dump as).Stable (Check.listOf check) (Dump.list dump) :=
  ⟨nofun, stable_listOf (List.forall_mem_map.mpr hs)⟩

theorem stable_place (p : Place) :
    (Json.string p.word).Stable Check.place fun p => Json.string p.word := by
  refine ⟨p, ?_, rfl⟩
  rw [Json.string, Check.place, broken_ofString, Place.ofText?_word]
  rfl

theorem stable_boolean (b : Bool) : (Json.bool b).Stable Check.boolean .bool := ⟨b, rfl, rfl⟩

/-! ### Parameters and operations -/

theorem Parameter.keysApart : KeysApart Parameter.keys := ⟨by decide, by decide⟩

theorem Operation.keysApart : KeysApart Operation.keys := ⟨by decide, by decide⟩

theorem Parameter.stable_dump {p : Parameter} (hown : Dump.OwnNames Parameter.keys p.extra)
    (hsecond : Dump.NoSecondNames Parameter.keys p.extra) (hf : p.Finite) :
    (p.dump .strict).Stable Parameter.check (Parameter.dump .strict) := by
  have hdump : ∃ fs, p.dump .strict = .obj fs ∧ _ :=
    rewritten_object keysApart (by simp [Parameter.keys]) hown hsecond hf.extra
  obtain ⟨fs, hfs, hw⟩ := hdump
  obtain ⟨name, hname, aname⟩ := hw.required (i := 0) rfl rfl (stable_text _)
  obtain ⟨place, hplace, aplace⟩ := hw.required (i := 1) rfl rfl (stable_place _)
  obtain ⟨required, hrequired, arequired⟩ := hw.defaulted (i := 2) rfl false rfl (stable_boolean _)
  obtain ⟨description, hdescription, adescription⟩ :=
    hw.optional (i := 3) rfl rfl fun _ _ => stable_said _
  obtain ⟨schema, hschema, aschema⟩ := hw.optional (i := 4) rfl rfl fun _ _ => stable_fields _
  obtain ⟨sample, hsample, asample⟩ := hw.free (i := 5) rfl hf.sample rfl
  obtain ⟨samples, hsamples, asamples⟩ := hw.optional (i := 6) rfl rfl fun _ _ => stable_fields _
  rw [hfs]
  refine ⟨⟨name, place, required, description, schema, sample, samples, others p.extra⟩, ?_, ?_⟩
  · rw [Parameter.check, openModel, hw.spelled, hname, hplace, hrequired, hdescription, hschema,
      hsample, hsamples, hw.unclaimed]
    rfl
  · exact hw.dump _ (.cons aname (.cons aplace (.cons arequired (.cons adescription
      (.cons aschema (.cons asample (.cons asamples .nil)))))))

theorem Operation.stable_dump {o : Operation} (hown : o.OwnNames) (hsecond : o.NoSecondNames)
    (hf : o.Finite) : (o.dump .strict).Stable Operation.check (Operation.dump .strict) := by
  have hdump : ∃ fs, o.dump .strict = .obj fs ∧ _ :=
    rewritten_object keysApart (by simp [Operation.keys]) hown.extra hsecond.extra hf.extra
  obtain ⟨fs, hfs, hw⟩ := hdump
  have hparts : ∀ ps ∈ o.parameters, ∀ p ∈ ps,
      (p.dump .strict).Stable Parameter.check (Parameter.dump .strict) := fun ps hps p hp =>
    p.stable_dump (hown.parameters ps hps p hp) (hsecond.parameters ps hps p hp)
      (hf.parameters ps hps p hp)
  obtain ⟨summary, hsummary, asummary⟩ := hw.required (i := 0) rfl rfl (stable_text _)
  obtain ⟨description, hdescription, adescription⟩ :=
    hw.required (i := 1) rfl rfl (stable_text _)
  obtain ⟨parameters, hparameters, aparameters⟩ :=
    hw.optional (i := 2) rfl rfl fun ps hps => stable_list (hparts ps hps)
  obtain ⟨requestBody, hrequestBody, arequestBody⟩ :=
    hw.optional (i := 3) rfl rfl fun _ _ => stable_fields _
  obtain ⟨responses, hresponses, aresponses⟩ :=
    hw.optional (i := 4) rfl rfl fun _ _ => stable_fields _
  obtain ⟨tags, htags, atags⟩ :=
    hw.optional (i := 5) rfl rfl fun _ _ => stable_list fun _ _ => stable_text _
  rw [hfs]
  refine ⟨⟨summary, description, parameters, requestBody, responses, tags, others o.extra⟩, ?_, ?_⟩
  · rw [Operation.check, openModel, hw.spelled, hsummary, hdescription, hparameters, hrequestBody,
      hresponses, htags, hw.unclaimed]
    rfl
  · exact hw.dump _ (.cons asummary (.cons adescription (.cons aparameters (.cons arequestBody
      (.cons aresponses (.cons atags .nil))))))

/-! ### Information, servers and paths -/

/-- The fields of the information about an interface. -/
def Info.keys : List Key := [⟨"title", none⟩, ⟨"version", none⟩, ⟨"description", none⟩]

/-- The fields of a server. -/
def Server.keys : List Key := [⟨"url", none⟩, ⟨"description", none⟩]

theorem Info.keysApart : KeysApart Info.keys := ⟨by decide, by decide⟩

theorem Server.keysApart : KeysApart Server.keys := ⟨by decide, by decide⟩

theorem Info.stable_dump (i : Info) :
    (i.dump .strict).Stable Info.check (Info.dump .strict) := by
  have hdump : ∃ fs, i.dump .strict = .obj fs ∧ _ :=
    rewritten_closed keysApart (by simp [Info.keys])
  obtain ⟨fs, hfs, hw⟩ := hdump
  obtain ⟨title, htitle, atitle⟩ := hw.optional (i := 0) rfl rfl fun _ _ => stable_said _
  obtain ⟨version, hversion, aversion⟩ := hw.optional (i := 1) rfl rfl fun _ _ => stable_said _
  obtain ⟨description, hdescription, adescription⟩ :=
    hw.optional (i := 2) rfl rfl fun _ _ => stable_said _
  rw [hfs]
  refine ⟨⟨title, version, description⟩, ?_, ?_⟩
  · rw [Info.check, closedModel, htitle, hversion, hdescription]
    rfl
  · exact hw.dump _ (.cons atitle (.cons aversion (.cons adescription .nil)))

theorem Server.stable_dump (s : Server) :
    (s.dump .strict).Stable Server.check (Server.dump .strict) := by
  have hdump : ∃ fs, s.dump .strict = .obj fs ∧ _ :=
    rewritten_closed keysApart (by simp [Server.keys])
  obtain ⟨fs, hfs, hw⟩ := hdump
  obtain ⟨url, hurl, aurl⟩ := hw.required (i := 0) rfl rfl (stable_text _)
  obtain ⟨description, hdescription, adescription⟩ :=
    hw.optional (i := 1) rfl rfl fun _ _ => stable_said _
  rw [hfs]
  refine ⟨⟨url, description⟩, ?_, ?_⟩
  · rw [Server.check, closedModel, hurl, hdescription]
    rfl
  · exact hw.dump _ (.cons aurl (.cons adescription .nil))

theorem PathMap.stable_dump {m : PathMap} (hown : ∀ item ∈ m, ∀ op ∈ item.2, op.2.OwnNames)
    (hsecond : ∀ item ∈ m, ∀ op ∈ item.2, op.2.NoSecondNames)
    (hf : ∀ item ∈ m, ∀ op ∈ item.2, op.2.Finite) :
    (m.dump .strict).Stable PathMap.check (PathMap.dump .strict) :=
  stable_map fun item hitem => stable_map fun op hop =>
    op.2.stable_dump (hown item hitem op hop) (hsecond item hitem op hop) (hf item hitem op hop)

/-! ### Documents -/

/-- The fields of a document. -/
def Document.keys : List Key :=
  [⟨"openapi", none⟩, ⟨"info", none⟩, ⟨"servers", none⟩, ⟨"paths", none⟩]

theorem Document.keysApart : KeysApart Document.keys := ⟨by decide, by decide⟩

theorem Document.stable_dump {d : Document} (hown : d.OwnNames) (hsecond : d.NoSecondNames)
    (hf : d.Finite) : (d.dump .strict).Stable Document.check (Document.dump .strict) := by
  have hdump : ∃ fs, d.dump .strict = .obj fs ∧ _ :=
    rewritten_closed keysApart (by simp [Document.keys])
  obtain ⟨fs, hfs, hw⟩ := hdump
  obtain ⟨openapi, hopenapi, aopenapi⟩ := hw.required (i := 0) rfl rfl (stable_text _)
  obtain ⟨info, hinfo, ainfo⟩ := hw.required (i := 1) rfl rfl (Info.stable_dump _)
  obtain ⟨servers, hservers, aservers⟩ := hw.defaulted (i := 2) rfl [] rfl
    (stable_list fun s _ => s.stable_dump).2
  obtain ⟨paths, hpaths, apaths⟩ := hw.required (i := 3) rfl rfl
    (PathMap.stable_dump hown hsecond hf)
  rw [hfs]
  refine ⟨⟨openapi, info, servers, paths⟩, ?_, ?_⟩
  · rw [Document.check, closedModel, hopenapi, hinfo, hservers, hpaths]
    rfl
  · exact hw.dump _ (.cons aopenapi (.cons ainfo (.cons aservers (.cons apaths .nil))))

/-- The document has a dump, the dump is read as a document, and this has the same dump. -/
def Document.Reloads (d : Document) (dumper : Dumper) : Prop :=
  ∃ v, d.toJson dumper = .ok v ∧ ∃ d', Document.check v = .ok d' ∧ d'.toJson dumper = .ok v

/-- A document can be loaded from its dump, with the same dump, exactly if the dumper does not
refuse it.  Those that it refuses have no dump. -/
theorem Document.reloads_iff {d : Document} (hown : d.OwnNames) (hsecond : d.NoSecondNames)
    (hf : d.Finite) (dumper : Dumper) :
    (d.Reloads dumper ↔ dumper.refusal? (d.dump .strict) = none) ∧
    ∀ reason, dumper.refusal? (d.dump .strict) = some reason → d.toJson dumper = .error reason := by
  refine ⟨⟨?_, ?_⟩, ?_⟩
  · rintro ⟨v, hv, -⟩
    exact (d.toJson_isOk_iff dumper).mp ⟨v, hv⟩
  · intro h
    obtain ⟨d', hcheck, hdump⟩ := d.stable_dump hown hsecond hf
    exact ⟨_, toJson_eq_ok_iff.mpr ⟨rfl, h⟩, d', hcheck, toJson_eq_ok_iff.mpr ⟨hdump, h⟩⟩
  · intro reason h
    rw [Document.toJson, h]

namespace Document

/-- A parameter with a schema and an extra member that is null. -/
def sparseParameter : Parameter where
  name := "id"
  place := .path
  required := true
  description := none
  schema := some [("type", Json.string "string")]
  sample := .null
  samples := none
  extra := [("x-unit", .null)]

/-- An operation with extra members, and with a null inside its responses. -/
def sparseOperation : Operation where
  summary := "s"
  description := "d"
  parameters := some [sparseParameter]
  requestBody := none
  responses := some [("200", .obj [("content", .null)])]
  tags := some []
  extra := [("deprecated", .bool true), ("x-rate", .num (.real oneAndAHalf))]

/-- A document with nulls in places where the dump drops them and in places where it does not. -/
def sparse : Document where
  openapi := "3.0.0"
  info := ⟨some "t", none, none⟩
  servers := [⟨"/", none⟩]
  paths := [("/a", [("get", sparseOperation)])]

/-- What holds of the operations of a document with one operation. -/
theorem forall_operations_singleton {P : Operation → Prop} {path method : Text} {o : Operation}
    (h : P o) : ∀ item ∈ [(path, [(method, o)])], ∀ op ∈ item.2, P op.2 :=
  List.forall_mem_singleton.mpr (List.forall_mem_singleton.mpr h)

theorem ownNames_sparse : sparse.OwnNames := by
  refine forall_operations_singleton ⟨⟨by decide, by decide⟩, ?_⟩
  rintro _ ⟨⟩
  exact List.forall_mem_singleton.mpr ⟨by decide, by decide⟩

theorem noSecondNames_sparse : sparse.NoSecondNames := by
  refine forall_operations_singleton ⟨by decide, ?_⟩
  rintro _ ⟨⟩
  exact List.forall_mem_singleton.mpr (by decide)

theorem finite_sparse : sparse.Finite := by
  have hrate : Number.IsFinite (.real oneAndAHalf) := rfl
  have hp : sparseParameter.Finite := by
    constructor <;> simp [sparseParameter, Json.Finite, Json.string]
  refine forall_operations_singleton ⟨?_, ?_, ?_, ?_⟩
  · rintro _ ⟨⟩
    exact List.forall_mem_singleton.mpr hp
  · rintro _ ⟨⟩
  · simp [sparseOperation, Json.Finite]
  · simp [sparseOperation, Json.Finite, hrate]

theorem reloads_sparse : sparse.Reloads (.ofLimit 259) :=
  (reloads_iff ownNames_sparse noSecondNames_sparse finite_sparse _).1.mpr
    (Dumper.accepts _ _ (by decide) (by decide))

/-- Deep nesting alone keeps a document from being loaded again. -/
theorem not_reloads_deep :
    deep.OwnNames ∧ deep.NoSecondNames ∧ deep.Finite ∧ ¬ deep.Reloads (.ofLimit 259) := by
  refine ⟨forall_operations_singleton ⟨⟨by decide, by decide⟩, nofun⟩,
    forall_operations_singleton ⟨by decide, nofun⟩,
    forall_operations_singleton ⟨nofun, nofun, nofun, ?_⟩, ?_⟩
  · exact List.forall_mem_singleton.mpr (holds_nestedLists _ 299)
  · rintro ⟨v, hv, -⟩
    exact not_dumped_deep (by decide) ((deep.toJson_isOk_iff _).mp ⟨v, hv⟩)

end Document
end RouteScribe
