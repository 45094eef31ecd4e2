import RouteScribe.Proofs.Routes.HandlerForm

/-! # The handler that is cut out of a source

A handler that is cut out of a source stands in it from its parenthesis to the first line that begins
with a brace (`Handler.StandsIn`).  So it exports its own method and what its parameters and its
body export, and another handler only if one stands between these two places
(`handlerSource_exports`). -/

namespace RouteScribe

open Source

/-! ### Where a handler stands in a text -/

namespace Handler

variable {name : List Char}

/-- A handler in a source text: its parameters in parentheses and its body in braces, up to the first
line that begins with a brace. -/
structure StandsIn (source : List Char) (h : Handler) : Prop where
  place : ∃ front gap back, source =
    front ++ '(' :: (h.params ++ ')' :: (gap ++ '\x7b' :: (h.body ++ '\n' :: '\x7d' :: back)))
  first : ¬ ['\n', '\x7d'] <:+: h.body
  nonempty : h.body ≠ []

/-- The text of an exported handler ends with its parameters and its body. -/
theorem ExportedAs.exists_enclosed {h : Handler} {t : List Char} (ht : h.ExportedAs name t) :
    ∃ front gap, t = front ++ h.enclosed gap := by
  cases ht with
  | @function w x link gap _ _ _ => exact ⟨w ++ link, gap, (List.append_assoc _ _ _).symm⟩
  | @arrow w x link gap _ _ _ => exact ⟨w ++ link, gap, (List.append_assoc _ _ _).symm⟩

/-- A handler that is found stands in the source. -/
theorem standsIn_of_find? {source : List Char} {h : Handler} (hf : find? name source = some h) :
    h.StandsIn source := by
  obtain ⟨⟨front, t, back, rfl, ht⟩, hfirst, hne⟩ := foundIn_of_find? hf
  obtain ⟨header, gap, rfl⟩ := ht.exists_enclosed
  refine ⟨⟨front ++ header, gap, back, ?_⟩, hfirst, hne⟩
  simp [enclosed]

/-! ### What a handler exports -/

theorem shown_eq (m : Method) (h : Handler) : h.shown (upper m) = header true "function".toList m ++
    '(' :: (trim h.params ++ ')' :: ([' '] ++ '\x7b' :: (h.body ++ ['\n', '\x7d']))) := by
  have hwords : "export async function ".toList =
      "export".toList ++ ' ' :: (asyncWord true ++ ("function".toList ++ [' '])) := by decide
  unfold shown header
  rw [hwords]
  generalize "export".toList = exported
  generalize "function".toList = function
  simp

/-- A handler in its standard form exports its method and what its parameters and its body do. -/
theorem exports_shown {m : Method} (hm : m ∈ Method.known) (h : Handler) :
    exports (h.shown (upper m)) =
      upper m :: (exports (trim h.params) ++ exports (h.body ++ ['\n', '\x7d'])) := by
  have hfunction : "function".toList ∈ declarations := List.mem_cons_self
  have hspace : exports [' '] = [] := by decide
  have hopen : Divides '(' := divides_of_mem (by decide)
  have hclose : Divides ')' := divides_of_mem (by decide)
  have hbrace : Divides '\x7b' := divides_of_mem (by decide)
  rw [shown_eq, exports_header true hfunction hm (by decide) hopen.noWord, exports_divider hopen,
    exports_divided hclose, exports_divided hbrace, hspace, List.nil_append]

end Handler

open Handler

/-- The handler that is cut out of a source stands in it, and exports its method and what stands
between its parentheses and between its braces exports; so it exports its method alone exactly if no
other is exported there. -/
theorem handlerSource_exports {source s : List Char} {m : Method} (hm : m ∈ Method.known)
    (hs : handlerSource? source m = some s) :
    ∃ h : Handler, h.StandsIn source ∧ s = h.shown (upper m) ∧
      (∀ n, n ∈ exportedMethods s ↔ n = m ∨ n ∈ exportedMethods (trim h.params) ∨
        n ∈ exportedMethods (h.body ++ ['\n', '\x7d'])) ∧
      (exportedMethods s = [m] ↔ ∀ n, n ∈ exportedMethods (trim h.params) ∨
        n ∈ exportedMethods (h.body ++ ['\n', '\x7d']) → n = m) := by
  obtain ⟨h, hfind, rfl⟩ := Option.map_eq_some_iff.mp hs
  have hmem (n : Method) : n ∈ exportedMethods (h.shown (upper m)) ↔ n = m ∨
      n ∈ exportedMethods (trim h.params) ∨ n ∈ exportedMethods (h.body ++ ['\n', '\x7d']) := by
    simp only [mem_exportedMethods, exports_shown hm, List.mem_cons, List.mem_append]
    constructor
    · rintro ⟨name, rfl | hname | hname, rfl⟩
      · exact .inl (lower_upper hm)
      · exact .inr (.inl ⟨name, hname, rfl⟩)
      · exact .inr (.inr ⟨name, hname, rfl⟩)
    · rintro (rfl | ⟨name, hname, rfl⟩ | ⟨name, hname, rfl⟩)
      · exact ⟨upper n, .inl rfl, lower_upper hm⟩
      · exact ⟨name, .inr (.inl hname), rfl⟩
      · exact ⟨name, .inr (.inr hname), rfl⟩
  refine ⟨h, standsIn_of_find? hfind, rfl, hmem, ?_⟩
  rw [exportedMethods_eq_singleton_iff]
  constructor
  · intro h n hn
    exact (h n).mp ((hmem n).mpr (.inr hn))
  · intro h n
    refine ⟨fun hn => ?_, fun hn => (hmem n).mpr (.inl hn)⟩
    rcases (hmem n).mp hn with hn | hn
    · exact hn
    · exact h n hn

/-- Two handlers, the second of which stands on one line. -/
def twoHandlers : List Char :=
  ("export function GET(request) \x7b\n  return 1\n\x7d\n\n" ++
    "export const POST = () => \x7b return 2 \x7d\n").toList

theorem exports_firstHandler : ∃ s : List Char, ∃ h : Handler,
    handlerSource? twoHandlers "get".toList = some s ∧ h.StandsIn twoHandlers ∧
      s = h.shown "GET".toList ∧ exportedMethods s = ["get".toList] := by
  let first : Handler := ⟨"request".toList, "\n  return 1".toList⟩
  have hget : upper "get".toList = "GET".toList := by decide +kernel
  have hcut : handlerSource? twoHandlers "get".toList = some (first.shown "GET".toList) := by
    decide +kernel
  have hexports : exports (first.shown (upper "get".toList)) = [upper "get".toList] := by
    rw [exports_shown (by decide)]
    decide +kernel
  obtain ⟨h, hstands, hshown, hmem, hiff⟩ := handlerSource_exports (by decide) hcut
  rw [hget] at hshown hexports
  refine ⟨_, h, hcut, hstands, hshown, hiff.mpr fun n hn => ?_⟩
  -- what the parameters or the body export would be an export of the whole
  have hname := (hmem n).mpr (.inr hn)
  rw [mem_exportedMethods, hexports] at hname
  obtain ⟨name, hmem, rfl⟩ := hname
  rw [List.mem_singleton.mp hmem]
  decide

/-- The handler that is cut out of a source exports its method only. -/
def ExportsOnly (source : List Char) (m : Method) : Prop :=
  ∀ s, handlerSource? source m = some s → exportedMethods s = [m]

/-- A handler on one line in front of another one. -/
def oneLine : List Char :=
  ("export async function GET() \x7b return 1 \x7d\n\n" ++
    "export async function POST() \x7b\n  return 2\n\x7d\n").toList

/-- The body of a handler on one line goes on to the end of the next one. -/
theorem not_exportsOnly_oneLine : ¬ ExportsOnly oneLine "get".toList := by
  let both : Handler :=
    ⟨[], " return 1 \x7d\n\nexport async function POST() \x7b\n  return 2".toList⟩
  have hcut : handlerSource? oneLine "get".toList = some (both.shown (upper "get".toList)) := by
    decide +kernel
  have hpost : "POST".toList ∈ exports (both.shown (upper "get".toList)) := by
    rw [exports_shown (by decide)]
    decide +kernel
  have hlower : lower "POST".toList = "post".toList := by decide +kernel
  intro h
  have hmem := mem_exportedMethods.mpr ⟨_, hpost, hlower⟩
  have hsecond := (exportedMethods_eq_singleton_iff.mp (h _ hcut) _).mp hmem
  exact absurd hsecond (by decide)

end RouteScribe
