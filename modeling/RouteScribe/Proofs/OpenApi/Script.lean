import RouteScribe.Proofs.Html.ScriptData
import RouteScribe.Proofs.OpenApi.Render

/-! # The script of a page

The JSON text of a document stands in a script of its page.  It holds no `</`, so it does not end
this script; but it can begin a comment with the tag of a script in it, and then the end tag of the
template does not end the script either.  The script is kept exactly if this is not so
(`Document.keepsScript_iff`). -/

namespace RouteScribe
namespace Page

open ScriptData

/-- The beginning of the script. -/
def scriptStart : Text := scriptTag ++ [.scalar '>']

/-- The pieces of a text with a script, which has the mark for the JSON text in it and before it the
mark for the title. -/
structure Scripted (t a b opening closing after : Text) : Prop where
  cuts : t = a ++ (titleMark ++ (b ++ (scriptStart ++ opening) ++
    (specMark ++ (closing ++ (scriptEnd ++ after)))))
  /-- The script has no other tag before its end. -/
  noTag : .scalar '<' ∉ opening ∧ .scalar '<' ∉ closing
  /-- What follows the mark ends no comment. -/
  noComment : .scalar '>' ∉ closing

/-- So many characters of a text, from one of them on. -/
def slice (t : Text) (start length : Nat) : Text := (t.drop start).take length

/-- The script is found in the lines of the template as they are spelled out. -/
theorem exists_scripted : ∃ a b opening closing after,
    Scripted template a b opening closing after := by
  obtain ⟨ls, hls, hscript⟩ : ∃ ls : List (List Char),
      List.Forall₂ (fun s l => s = String.ofList l) templateLines ls ∧
        let t := joined "\n" (ls.map Text.ofChars)
        Scripted t (slice t 0 147) (slice t 156 1279) (slice t 1443 53) (slice t 1509 408)
          (t.drop 1926) := by
    apply Exists.intro
    apply And.intro
    case left =>
      dsimp only [templateLines]
      repeat (apply List.Forall₂.cons; rfl)
      apply List.Forall₂.nil
    case right =>
      constructor <;> decide +kernel
  rw [template, map_ofString_of_spelled hls]
  exact ⟨_, _, _, _, _, hscript⟩

/-! ### A script with a text in it -/

/-- The script of these three pieces ends where it should. -/
structure KeepsScript (opening text closing : Text) : Prop where
  /-- The script goes on inside the text. -/
  inside : ∀ x, x <+: text → read .plain x ≠ .closed
  /-- It is not escaped twice behind the text. -/
  once : (read .plain text).depth ≠ 2
  /-- It ends with its end tag, and not before. -/
  ends : ∀ x, x <+: opening ++ (text ++ closing) ++ scriptEnd →
    (read .plain x = .closed ↔ x = opening ++ (text ++ closing) ++ scriptEnd)

theorem read_eq_plain {x : Text} (h : .scalar '<' ∉ x) : read .plain x = .plain := by
  induction x with
  | nil => rfl
  | cons c x ih =>
      rw [List.mem_cons, not_or] at h
      have hc : step .plain c = .plain := if_neg (Ne.symm h.1)
      rw [read_cons, hc, ih h.2]

theorem Scripted.keeps_iff {t a b opening closing after : Text}
    (h : Scripted t a b opening closing after) {text : Text} (he : ¬ endTag <:+: text)
    (hs : (read .plain text).Settled) :
    KeepsScript opening text closing ↔ ¬ Hides (Check.asciiLower text) := by
  rw [← depth_read_eq_two_iff he]
  refine ⟨KeepsScript.once, fun hd => ⟨?_, hd, ?_⟩⟩
  · intro x hx hclosed
    have hi := inside_read_plain he hx
    rw [hclosed] at hi
    exact hi
  · intro x
    obtain ⟨hset, hdepth⟩ := settled_read hs h.noTag.2 h.noComment
    apply read_append_scriptEnd
    · rwa [read_append, read_eq_plain h.noTag.1, read_append]
    · rwa [read_append, read_eq_plain h.noTag.1, read_append, hdepth]

/-- The text of an object ends with a brace. -/
theorem exists_spec_obj (ms : List (Text × Json)) :
    ∃ u, spec (.obj ms) = u ++ [.scalar '\x7d'] := by
  obtain ⟨u, hu⟩ : ∃ u, Json.indented .minimal (.obj ms) = u ++ [.scalar '\x7d'] := by
    cases ms with
    | nil => exact ⟨[.scalar '\x7b'], rfl⟩
    | cons m ms => exact ⟨_ :: _, rfl⟩
  have hbrace : Json.NoSolidus [.scalar '\x7d'] := Json.noSolidus_cons (by decide) []
  rw [spec_eq, hu, Json.guarded_append u hbrace]
  exact ⟨_, congrArg _ (Json.guarded_eq_self (by decide))⟩

theorem settled_read_spec (ms : List (Text × Json)) :
    (read .plain (spec (.obj ms))).Settled := by
  obtain ⟨u, hu⟩ := exists_spec_obj ms
  have hi : (read .plain u).Inside := by
    refine inside_read_plain (t := spec (.obj ms)) (Json.not_infix_guarded _) ?_
    exact hu ▸ List.prefix_append u _
  rw [hu, read_append]
  exact settled_brace hi

end Page

/-! ### The page of a document -/

namespace Document

open ScriptData Page

/-- The page of the document has the JSON text in the script of the template, and this script ends
where the template ends it. -/
def KeepsScript (d : Document) (dumper : Dumper) : Prop :=
  ∀ page, d.render dumper "html" = .ok page →
  ∃ v a b opening closing after front, d.source dumper = .ok v ∧
    Scripted template a b opening closing after ∧
    page = front ++ (scriptStart ++ (opening ++ (spec v ++ (closing ++ (scriptEnd ++ after))))) ∧
    Page.KeepsScript opening (spec v) closing

variable {dumper : Dumper} {d : Document} {v : Json}

theorem keepsScript_spec_iff (hv : d.source dumper = .ok v) {a b opening closing after : Text} (hc : Scripted template a b opening closing after) :
    Page.KeepsScript opening (spec v) closing ↔ ¬ Hides (Check.asciiLower (spec v)) := by
  obtain ⟨ms, rfl⟩ := exists_obj_of_toJson (source_eq_ok_iff.mp hv).1
  exact hc.keeps_iff (Json.not_infix_guarded _) (settled_read_spec ms)

theorem KeepsScript.not_hides (h : d.KeepsScript dumper) (hv : d.source dumper = .ok v) :
    ¬ Hides (Check.asciiLower (spec v)) := by
  obtain ⟨v', a, b, opening, closing, after, front, hv', hc, -, hkeeps⟩ :=
    h _ (render_html_eq_ok_iff.mpr ⟨v, hv, rfl⟩)
  cases hv.symm.trans hv'
  exact (keepsScript_spec_iff hv hc).mp hkeeps

/-- The script is kept exactly if the JSON text does not hide its end: it begins no comment, or ends
it, or has no tag of a script behind its beginning. -/
theorem keepsScript_iff (d : Document) (dumper : Dumper) :
    d.KeepsScript dumper ↔ ∀ v, d.source dumper = .ok v → ¬ Hides (Check.asciiLower (spec v)) := by
  refine ⟨fun h v => h.not_hides, ?_⟩
  intro h page hpage
  obtain ⟨v, hv, rfl⟩ := render_html_eq_ok_iff.mp hpage
  obtain ⟨a, b, opening, closing, after, hc⟩ := exists_scripted
  refine ⟨v, a, b, opening, closing, after, ?front, hv, hc, ?_,
    (keepsScript_spec_iff hv hc).mpr (h v hv)⟩
  case front => exact a ++ (replaceAll specMark (spec v) (escapeMarkup (d.info.title.getD [])) ++ b)
  rw [Page.fill_eq hc.cuts, filled]
  simp only [List.append_assoc]

/-- A document whose description begins a comment and a script in it. -/
def commented : Document := ⟨"3.0.0", ⟨none, none, some "<!-- <script> "⟩, [], []⟩

/-- The dump of this document. -/
def commentedDump : Json :=
  .obj [("openapi", Json.string "3.0.0"),
    ("info", .obj [("description", Json.string "<!-- <script> ")]), ("servers", .arr []),
    ("paths", .obj [])]

theorem hides_commentedDump : Hides (Check.asciiLower (spec commentedDump)) := by
  refine ⟨slice (Check.asciiLower (spec commentedDump)) 0 56,
    (Check.asciiLower (spec commentedDump)).drop 60, by decide +kernel, by decide +kernel,
    dashes ++ [.scalar ' '], '>', (Check.asciiLower (spec commentedDump)).drop 69,
    by decide +kernel, rfl⟩

/-- The end tag of the template does not end the script of this page. -/
theorem not_keepsScript_commented : ¬ commented.KeepsScript (.ofLimit 259) := fun h =>
  h.not_hides (v := commentedDump) rfl hides_commentedDump

end Document
end RouteScribe
