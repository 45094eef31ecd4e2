import RouteScribe.OpenApi.Page
import RouteScribe.Proofs.Json.Guarded
import RouteScribe.Proofs.OpenApi.Document

/-! # What the page of a document is

The template has each of its two marks once, so it is cut by them in one way (`Page.exists_cuts`).
The title is put in first and the JSON text second, over the whole page: a mark for the JSON text
inside the title is filled as well.  The page is the pieces of the template with the title and the
text between them exactly if the title holds no such mark (`Page.isFilled_iff`). -/

namespace RouteScribe
namespace Page

/-! ### The marks in the template -/

/-- The template is cut by its marks into these three pieces. -/
def Cuts (a b c : Text) : Prop := template = a ++ (titleMark ++ (b ++ (specMark ++ c)))

/-- The pieces of the template with a title and a JSON text between them. -/
def filled (a b c title spec : Text) : Text := a ++ (title ++ (b ++ (spec ++ c)))

theorem ofString_ofList (l : List Char) : Text.ofString (String.ofList l) = Text.ofChars l := by
  rw [Text.ofString, String.toList_ofList]

/-- The title stands in an element of the page: behind `>` and before a blank. -/
def titlePlace : Text := .scalar '>' :: (titleMark ++ [.scalar ' '])

/-- Each mark stands in the text once, and the mark for the title first, in its element. -/
def MarkedOnce (t : Text) : Prop :=
  occurrences titleMark t = 1 ∧ occurrences specMark t = 1 ∧ occurrences titlePlace t ≠ 0 ∧
    ∃ n < 300, occurrences titleMark (t.take n) ≠ 0 ∧ occurrences specMark (t.drop n) ≠ 0

theorem map_ofString_of_spelled {ss : List String} {ls : List (List Char)}
    (h : List.Forall₂ (fun s l => s = String.ofList l) ss ls) :
    ss.map Text.ofString = ls.map Text.ofChars := by
  induction h with
  | nil => rfl
  | cons h _ ih => rw [List.map_cons, List.map_cons, ih, h, ofString_ofList]

/-- The marks are counted in the lines of the template as they are spelled out. -/
theorem markedOnce_template : MarkedOnce template := by
  obtain ⟨ls, hls, hmarks⟩ : ∃ ls : List (List Char),
      List.Forall₂ (fun s l => s = String.ofList l) templateLines ls ∧
        MarkedOnce (joined "\n" (ls.map Text.ofChars)) := by
    apply Exists.intro
    apply And.intro
    case left =>
      dsimp only [templateLines]
      repeat (apply List.Forall₂.cons; rfl)
      apply List.Forall₂.nil
    case right =>
      refine ⟨?_, ?_, ?_, 250, by decide, ?_⟩ <;> decide +kernel
  rwa [template, map_ofString_of_spelled hls]

theorem titleMark_ne_nil : titleMark ≠ [] := List.cons_ne_nil _ _
theorem specMark_ne_nil : specMark ≠ [] := List.cons_ne_nil _ _

theorem exists_of_occurrences {p s : Text} (hp : p ≠ []) (h : occurrences p s ≠ 0) :
    ∃ x y, s = x ++ (p ++ y) := by
  obtain ⟨x, y, hxy⟩ := Decidable.not_not.mp fun hn => h ((occurrences_eq_zero_iff hp).mpr hn)
  exact ⟨x, y, by rw [← hxy, List.append_assoc]⟩

theorem exists_cuts : ∃ a b c, Cuts a b c := by
  obtain ⟨-, -, -, n, -, htitle, hspec⟩ := markedOnce_template
  obtain ⟨a, b, hab⟩ := exists_of_occurrences titleMark_ne_nil htitle
  obtain ⟨b', c, hbc⟩ := exists_of_occurrences specMark_ne_nil hspec
  refine ⟨a, b ++ b', c, ?_⟩
  calc template = template.take n ++ template.drop n := (List.take_append_drop n template).symm
    _ = a ++ (titleMark ++ (b ++ b' ++ (specMark ++ c))) := by
      rw [hab, hbc]
      simp only [List.append_assoc]

variable {a b c : Text}

theorem Cuts.exists_borders (h : Cuts a b c) :
    ∃ a' b', a = a' ++ [.scalar '>'] ∧ b = .scalar ' ' :: b' := by
  obtain ⟨htitle, -, hplace, -⟩ := markedOnce_template
  obtain ⟨x, y, hxy⟩ := exists_of_occurrences (List.cons_ne_nil _ _) hplace
  have hsplit : template = (x ++ [.scalar '>']) ++ (titleMark ++ (.scalar ' ' :: y)) := by
    rw [hxy]
    simp
  rw [h] at htitle
  obtain ⟨ha, hb⟩ := eq_of_occurrences_eq_one titleMark_ne_nil htitle (h.symm.trans hsplit)
  cases b with
  | nil => cases hb
  | cons d b =>
      cases hb
      exact ⟨x, b, ha, rfl⟩

/-! ### Filling the marks -/

/-- The JSON text is put into the marks that the title brings along and into that of the template.
-/
theorem fill_eq (h : Cuts a b c) (title spec : Text) :
    fill title spec = filled a b c (replaceAll specMark spec title) spec := by
  obtain ⟨htitle, hspec, -⟩ := markedOnce_template
  obtain ⟨a, b, rfl, rfl⟩ := h.exists_borders
  -- the borders are in no mark, so what stands between them is treated apart
  have hcut (t : Text) : (a ++ [.scalar '>']) ++ (t ++ (.scalar ' ' :: b ++ (specMark ++ c))) =
      a ++ .scalar '>' :: (t ++ .scalar ' ' :: (b ++ (specMark ++ c))) := by
    simp
  have hgt : .scalar '>' ∉ specMark := by decide
  have hblank : .scalar ' ' ∉ specMark := by decide
  rw [h] at htitle
  rw [h, hcut, occurrences_append_cons specMark_ne_nil hgt,
    occurrences_append_cons specMark_ne_nil hblank] at hspec
  have hone := occurrences_pattern specMark_ne_nil c
  have hle := occurrences_le_append specMark b (specMark ++ c)
  have ha : occurrences specMark a = 0 := by omega
  have hb : occurrences specMark (b ++ (specMark ++ c)) = 1 := by omega
  rw [fill, h, replaceAll_once titleMark_ne_nil htitle, hcut,
    replaceAll_append_cons specMark_ne_nil hgt, replaceAll_append_cons specMark_ne_nil hblank,
    replaceAll_eq_self ha, replaceAll_once specMark_ne_nil hb, filled]
  simp

/-- Filling leaves the title alone exactly if it holds no mark for the JSON text. -/
theorem fill_eq_iff (h : Cuts a b c) (title : Text) {spec : Text}
    (hs : ∀ x y, spec ++ x ≠ specMark ++ y) :
    fill title spec = filled a b c title spec ↔ ¬ specMark <:+: title := by
  rw [fill_eq h, ← occurrences_eq_zero_iff specMark_ne_nil,
    ← replaceAll_eq_self_iff specMark_ne_nil hs]
  simp [filled]

/-- A mark for the JSON text stands in an escaped title exactly if it stands in the title. -/
theorem specMark_infix_escapeMarkup_iff (title : Text) :
    specMark <:+: escapeMarkup title ↔ specMark <:+: title := by
  have hmarkup (c : CodePoint) : markup c = [c] ∨
      markup c ≠ [] ∧ c ∉ specMark ∧ ∀ x ∈ markup c, x ∉ specMark := by
    unfold markup
    -- five characters have an entity, and neither they nor the entities share a character with it
    iterate 5
      split
      · next h => exact .inr (by rw [h]; decide)
    exact .inl rfl
  have hcount : occurrences specMark (escapeMarkup title) = occurrences specMark title :=
    occurrences_flatMap hmarkup specMark_ne_nil title
  rw [← not_iff_not, ← occurrences_eq_zero_iff specMark_ne_nil,
    ← occurrences_eq_zero_iff specMark_ne_nil, hcount]

theorem spec_eq (v : Json) : spec v = Json.guarded (Json.indented .minimal v) := rfl

/-- The text of an object does not begin with two braces. -/
theorem spec_obj_ne (ms : List (Text × Json)) (x y : Text) :
    spec (.obj ms) ++ x ≠ specMark ++ y := by
  have hspec : ∃ c t, c ≠ .scalar '\x7b' ∧ spec (.obj ms) = .scalar '\x7b' :: c :: t := by
    cases ms with
    | nil => exact ⟨.scalar '\x7d', [], by decide, rfl⟩
    | cons m ms =>
        obtain ⟨u, hu⟩ : ∃ u, Json.indented .minimal (.obj (m :: ms)) =
            .scalar '\x7b' :: .scalar '\n' :: u := ⟨_, rfl⟩
        rw [spec_eq, hu, Json.guarded_cons (by decide), Json.guarded_cons (by decide)]
        exact ⟨.scalar '\n', _, by decide, rfl⟩
  obtain ⟨c, t, hc, hspec⟩ := hspec
  rw [hspec]
  intro h
  exact hc (List.cons.inj (List.cons.inj h).2).1

/-! ### The page of a document -/

/-- The page of the document is the template with the title, escaped for markup, in the place of the
first mark and the JSON text in the place of the second one.  There is no page where there is no
JSON text. -/
def IsFilled (dumper : Dumper) (d : Document) : Prop :=
  ∀ a b c, Cuts a b c → ofDocument dumper d =
    (d.source dumper).map fun v => filled a b c (escapeMarkup (d.info.title.getD [])) (spec v)

variable {dumper : Dumper} {d : Document} {v : Json}

theorem ofDocument_eq (dumper : Dumper) (d : Document) : ofDocument dumper d =
    (d.source dumper).map fun v => fill (escapeMarkup (d.info.title.getD [])) (spec v) := by
  cases hs : d.source dumper <;> simp [ofDocument, hs, bind, Except.bind, Except.map]

theorem fill_source_eq_iff (h : Cuts a b c) (hv : d.source dumper = .ok v) :
    fill (escapeMarkup (d.info.title.getD [])) (spec v) =
      filled a b c (escapeMarkup (d.info.title.getD [])) (spec v) ↔
        ¬ specMark <:+: d.info.title.getD [] := by
  obtain ⟨ms, rfl⟩ := Document.exists_obj_of_toJson (Document.source_eq_ok_iff.mp hv).1
  rw [fill_eq_iff h _ (spec_obj_ne ms), specMark_infix_escapeMarkup_iff]

theorem IsFilled.not_infix (h : IsFilled dumper d) (hv : d.source dumper = .ok v) :
    ¬ specMark <:+: d.info.title.getD [] := by
  obtain ⟨a, b, c, hc⟩ := exists_cuts
  have hpage := h a b c hc
  rw [ofDocument_eq, hv] at hpage
  exact (fill_source_eq_iff hc hv).mp (Except.ok.inj hpage)

/-- The page is what it should be exactly if the title of a document that can be rendered holds no
mark for the JSON text. -/
theorem isFilled_iff (dumper : Dumper) (d : Document) :
    IsFilled dumper d ↔ (d.Renders dumper → ¬ specMark <:+: d.info.title.getD []) := by
  rw [← d.source_isOk_iff]
  constructor
  · rintro h ⟨v, hv⟩
    exact h.not_infix hv
  · intro h a b c hc
    rw [ofDocument_eq]
    cases hs : d.source dumper with
    | error e => rfl
    | ok v => exact congrArg Except.ok ((fill_source_eq_iff hc hs).mpr (h ⟨v, hs⟩))

/-- A document whose title is the mark for the JSON text. -/
def markTitled : Document := ⟨"3.0.0", ⟨some specMark, none, none⟩, [], []⟩

/-- The page of this document has its JSON text in the place of the title, too. -/
theorem not_isFilled_markTitled : ¬ IsFilled (.ofLimit 259) markTitled := by
  intro h
  have hv : ∃ v, markTitled.source (.ofLimit 259) = .ok v := ⟨_, rfl⟩
  obtain ⟨v, hv⟩ := hv
  exact h.not_infix hv (List.infix_refl specMark)

end Page
end RouteScribe
