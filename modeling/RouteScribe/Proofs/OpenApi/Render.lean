import RouteScribe.OpenApi.Render
import RouteScribe.Proofs.Json.Writing
import RouteScribe.Proofs.OpenApi.Page

/-! # What a rendered document stands for

The JSON text of a document that can be rendered is strict JSON that stands for the strict dump of
the document, and it is read as this dump by a reader with room for what the dumper dumps
(`Document.json_faithful`).  The same holds of the text in the page of the document, which is the
JSON text with a backslash in each `</`, and which therefore holds no `</`
(`Document.embedded_faithful`).  All other documents are refused, in either format. -/

namespace RouteScribe
namespace Document

/-! ### What the formats promise -/

/-- The texts of the double precision numbers in the dump of the document are read as the numbers.
-/
def FloatsReadBack (d : Document) : Prop :=
  (d.dump .strict).Holds Number.ReadsBack fun _ => True

/-- There is a JSON text of the document; it is strict JSON that stands for the dump of the document
and is read as this dump. -/
def JsonFaithful (d : Document) (dumper : Dumper) (room : Nat) : Prop :=
  ∃ t v, d.render dumper "json" = .ok t ∧ d.toJson dumper = .ok v ∧ Json.Denotes t v ∧
    Json.read room t = .ok v

/-- There is a page of the document; in the place of the mark for it stands the JSON text with a
backslash in each `</`, which holds no `</`, is strict JSON that stands for the dump of the document
and is read as the JSON text is. -/
def EmbeddedFaithful (d : Document) (dumper : Dumper) (room : Nat) : Prop :=
  ∃ p t s v, d.render dumper "html" = .ok p ∧ d.render dumper "json" = .ok t ∧
    s = replaceAll "</" "<\\/" t ∧
    (∀ a b c, Page.Cuts a b c → ∃ title, p = Page.filled a b c title s) ∧
    ¬ ("</" : Text) <:+: s ∧ d.toJson dumper = .ok v ∧ Json.Denotes s v ∧
    Json.read room s = .ok v ∧ Json.read room t = .ok v

/-! ### Rendering from the dump -/

variable {d : Document} {dumper : Dumper} {room : Nat} {v : Json}

theorem render_json (d : Document) (dumper : Dumper) : d.render dumper "json" =
    ((d.source dumper).map (Json.indented .minimal)).mapError .noDump := rfl

theorem render_html (d : Document) (dumper : Dumper) : d.render dumper "html" =
    (Page.ofDocument dumper d).mapError .noDump := rfl

theorem render_json_eq_ok_iff {t : Text} : d.render dumper "json" = .ok t ↔
    ∃ v, d.source dumper = .ok v ∧ Json.indented .minimal v = t := by
  rw [render_json, mapError_eq_ok_iff, map_eq_ok_iff]

theorem render_html_eq_ok_iff {p : Text} : d.render dumper "html" = .ok p ↔
    ∃ v, d.source dumper = .ok v ∧
      Page.fill (Page.escapeMarkup (d.info.title.getD [])) (Page.spec v) = p := by
  rw [render_html, mapError_eq_ok_iff, Page.ofDocument_eq, map_eq_ok_iff]

theorem JsonFaithful.renders (h : d.JsonFaithful dumper room) : d.Renders dumper := by
  obtain ⟨t, v, ht, -⟩ := h
  obtain ⟨w, hw, -⟩ := render_json_eq_ok_iff.mp ht
  exact (d.source_isOk_iff dumper).mp ⟨w, hw⟩

theorem EmbeddedFaithful.renders (h : d.EmbeddedFaithful dumper room) : d.Renders dumper := by
  obtain ⟨p, t, s, v, -, ht, -⟩ := h
  obtain ⟨w, hw, -⟩ := render_json_eq_ok_iff.mp ht
  exact (d.source_isOk_iff dumper).mp ⟨w, hw⟩

theorem exists_source_error (h : ¬ d.Renders dumper) :
    ∃ reason, d.source dumper = .error reason := by
  cases hs : d.source dumper with
  | error reason => exact ⟨reason, rfl⟩
  | ok v => exact absurd ((d.source_isOk_iff dumper).mp ⟨v, hs⟩) h

/-! ### A document that is nested too deep, and one that can be rendered -/

/-- Lists inside each other. -/
def nestedLists : Nat → Json
  | 0 => .arr []
  | n + 1 => .arr [nestedLists n]

theorem strict_nestedLists (n : Nat) : (nestedLists n).strict = nestedLists n := by
  induction n with
  | zero => rfl
  | succ n ih => rw [nestedLists, Json.strict_arr, List.map_singleton, ih]

theorem depth_nestedLists (n : Nat) : (nestedLists n).depth = n + 1 := by
  induction n with
  | zero => rfl
  | succ n ih =>
      rw [nestedLists, Json.depth, Json.depthOfItems, Json.depthOfItems, ih]
      omega

theorem holds_nestedLists (P : Number → Prop) {Q : List Text → Prop} (n : Nat) :
    (nestedLists n).Holds P Q := by
  induction n with
  | zero => exact Json.holds_arr.mpr (List.forall_mem_nil _)
  | succ n ih => exact Json.holds_arr.mpr (List.forall_mem_singleton.mpr ih)

/-- A document of one operation with one extra member. -/
def ofExtra (title : Option Text) (extra : Text × Json) : Document where
  openapi := "3.0.0"
  info := ⟨title, none, none⟩
  servers := []
  paths := [("/a", [("get", ⟨"s", "d", none, none, none, none, [extra]⟩)])]

/-- The extra member of this document is nested 300 deep. -/
def deep : Document := ofExtra none ("x-deep", nestedLists 299)

theorem dump_deep : deep.dump .strict =
    .obj [("openapi", Json.string "3.0.0"), ("info", .obj []), ("servers", .arr []),
      ("paths", .obj [("/a", .obj [("get", .obj [("summary", Json.string "s"),
        ("description", Json.string "d"), ("x-deep", nestedLists 299)])])])] := by
  rw [← strict_nestedLists 299]
  rfl

/-- A dumper with a limit below this depth refuses the document. -/
theorem not_dumped_deep (h : dumper.limit < 300) :
    dumper.refusal? (deep.dump .strict) ≠ none := by
  refine dumper.refuses _ ?_
  have hdepth : 300 ≤ (deep.dump .strict).depth := by
    simp only [dump_deep, Json.depth, Json.depthOfMembers, depth_nestedLists]
    omega
  omega

theorem floatsReadBack_deep : deep.FloatsReadBack := by
  have hlists := holds_nestedLists Number.ReadsBack (Q := fun _ => True) 299
  simp [FloatsReadBack, dump_deep, Json.string, hlists]

theorem namesDistinct_ofExtra {title : Option Text} {extra : Text × Json}
    (hn : extra.1 ∉ Operation.keys.map fun k => Text.ofString k.name)
    (hv : extra.2.NamesDistinct) : (ofExtra title extra).NamesDistinct := by
  intro item hitem op hop
  rw [List.mem_singleton.mp hitem] at hop
  rw [List.mem_singleton.mp hop]
  refine ⟨?_, nofun, nofun, nofun, List.forall_mem_singleton.mpr hv⟩
  rw [List.nodup_append]
  refine ⟨by decide, List.nodup_singleton _, ?_⟩
  rintro k hk _ he rfl
  exact hn (List.mem_singleton.mp he ▸ hk)

theorem namesDistinct_deep : deep.NamesDistinct :=
  namesDistinct_ofExtra (by decide) (holds_nestedLists _ 299)

/-- The number 1.5. -/
def oneAndAHalf : Binary64 := ⟨false, ⟨1023, by decide⟩, ⟨2251799813685248, by decide⟩⟩

/-- A document whose title ends an element and whose extra member is a number with a fraction. -/
def rated : Document := ofExtra (some "</b>") ("x-rate", .num (.real oneAndAHalf))

theorem dump_rated : rated.dump .strict =
    .obj [("openapi", Json.string "3.0.0"), ("info", .obj [("title", Json.string "</b>")]),
      ("servers", .arr []), ("paths", .obj [("/a", .obj [("get", .obj
        [("summary", Json.string "s"), ("description", Json.string "d"),
          ("x-rate", .num (.real oneAndAHalf))])])])] := rfl

theorem namesDistinct_rated : rated.NamesDistinct :=
  namesDistinct_ofExtra (by decide) (Json.holds_num.mpr trivial)

theorem renders_rated : rated.Renders (.ofLimit 259) := by
  refine renders_of_levels (by decide) (by decide) ?_
  simp [dump_rated, Json.string, Number.IsShort]

theorem floatsReadBack_rated : rated.FloatsReadBack := by
  have hr : oneAndAHalf.ReadsBack := rfl
  simp [FloatsReadBack, dump_rated, Json.string, Number.ReadsBack, hr]

/-! ### Both texts stand for the dump -/

theorem denotes_indented (hd : d.NamesDistinct) (hx : d.FloatsReadBack)
    (hv : d.source dumper = .ok v) : Json.Denotes (Json.indented .minimal v) v := by
  obtain ⟨rfl, -⟩ := toJson_eq_ok_iff.mp (source_eq_ok_iff.mp hv).1
  exact Json.denotes_render (regular_dump hd) hx 0

/-- The reader has room for what the dumper dumps. -/
theorem hasRoom_source (hroom : dumper.limit ≤ room) (hv : d.source dumper = .ok v) :
    Json.HasRoom room v := by
  obtain ⟨hj, hs⟩ := source_eq_ok_iff.mp hv
  exact ⟨(depth_le_limit hj).trans hroom, hs⟩

/-- The JSON text of a document is there, and stands for the dump of the document, exactly if the
document can be rendered. -/
theorem json_faithful (hd : d.NamesDistinct) (hx : d.FloatsReadBack)
    (hroom : dumper.limit ≤ room) :
    (d.JsonFaithful dumper room ↔ d.Renders dumper) ∧
    (¬ d.Renders dumper → ∃ reason, d.render dumper "json" = .error (.noDump reason)) := by
  refine ⟨⟨JsonFaithful.renders, ?_⟩, ?_⟩
  · intro h
    obtain ⟨v, hv⟩ := (d.source_isOk_iff dumper).mpr h
    have ht := denotes_indented hd hx hv
    exact ⟨_, v, render_json_eq_ok_iff.mpr ⟨v, hv, rfl⟩, (source_eq_ok_iff.mp hv).1, ht,
      Json.read_of_denotes ht (hasRoom_source hroom hv)⟩
  · intro h
    obtain ⟨reason, hr⟩ := exists_source_error h
    exact ⟨reason, by rw [render_json, hr]; rfl⟩

theorem jsonFaithful_rated : rated.JsonFaithful (.ofLimit 259) 990 :=
  (json_faithful namesDistinct_rated floatsReadBack_rated (by decide)).1.mpr renders_rated

/-- Deep nesting alone keeps the JSON text away. -/
theorem not_jsonFaithful_deep :
    deep.NamesDistinct ∧ deep.FloatsReadBack ∧ ¬ deep.JsonFaithful (.ofLimit 259) 990 :=
  ⟨namesDistinct_deep, floatsReadBack_deep, fun h => not_dumped_deep (by decide) h.renders.dumped⟩

/-- The JSON text inside the page of a document is there, and stands for the dump of the document,
exactly if the document can be rendered. -/
theorem embedded_faithful (hd : d.NamesDistinct) (hx : d.FloatsReadBack)
    (hroom : dumper.limit ≤ room) :
    (d.EmbeddedFaithful dumper room ↔ d.Renders dumper) ∧
    (¬ d.Renders dumper → ∃ reason, d.render dumper "html" = .error (.noDump reason)) := by
  refine ⟨⟨EmbeddedFaithful.renders, ?_⟩, ?_⟩
  · intro h
    obtain ⟨v, hv⟩ := (d.source_isOk_iff dumper).mpr h
    have ht := denotes_indented hd hx hv
    have hg := Json.denotes_guarded ht
    have hr := hasRoom_source hroom hv
    refine ⟨_, _, _, v, render_html_eq_ok_iff.mpr ⟨v, hv, rfl⟩,
      render_json_eq_ok_iff.mpr ⟨v, hv, rfl⟩, rfl, ?_, ?_⟩
    · intro a b c hc
      exact ⟨_, Page.fill_eq hc _ _⟩
    · exact ⟨Json.not_infix_guarded _, (source_eq_ok_iff.mp hv).1, hg,
        Json.read_of_denotes hg hr, Json.read_of_denotes ht hr⟩
  · intro h
    obtain ⟨reason, hr⟩ := exists_source_error h
    exact ⟨reason, by rw [render_html, Page.ofDocument_eq, hr]; rfl⟩

theorem embeddedFaithful_rated : rated.EmbeddedFaithful (.ofLimit 259) 990 :=
  (embedded_faithful namesDistinct_rated floatsReadBack_rated (by decide)).1.mpr renders_rated

/-- Deep nesting alone keeps the page away. -/
theorem not_embeddedFaithful_deep :
    deep.NamesDistinct ∧ deep.FloatsReadBack ∧ ¬ deep.EmbeddedFaithful (.ofLimit 259) 990 :=
  ⟨namesDistinct_deep, floatsReadBack_deep, fun h => not_dumped_deep (by decide) h.renders.dumped⟩

end Document
end RouteScribe
