import RouteScribe.Proofs.Routes.ExportForm
import RouteScribe.Routes.Handler

/-! # The form of a handler

`Handler.ExportedAs` says what the text of an exported handler is, apart from any search: an export,
the parameters in parentheses and the body in braces, with little more between them.  A handler that
is found stands in the source in this form, and its body has no line that begins with a brace
(`Handler.foundIn_of_find?`).  So the export in front of it is found as well, and in a text of
ASCII its method is the one that was looked for (`handlerSource_sound`). -/

namespace RouteScribe

open AlongList Source

namespace Handler

/-- A type behind a colon that goes as far as a sign, or nothing. -/
def MaybeType (stop : Char) (k : List Char) : Prop := k = [] ∨ ∃ t, k = ':' :: t ∧ stop ∉ t

/-- Between the parameters of a function and its body stand blanks and perhaps a type. -/
def FunctionGap (gap : List Char) : Prop :=
  ∃ b k, Blanks b ∧ MaybeType '\x7b' k ∧ gap = b ++ k

/-- For an arrow function an arrow and blanks stand behind them. -/
def ArrowGap (gap : List Char) : Prop :=
  ∃ b k b', Blanks b ∧ MaybeType '=' k ∧ Blanks b' ∧ gap = b ++ (k ++ '=' :: '>' :: b')

/-- Between the name of an arrow function and its parameters stand a sign of equality and perhaps
`async`. -/
def Binds (link : List Char) : Prop :=
  ∃ b b' y, Blanks b ∧ Blanks b' ∧ MaybeAsync y ∧ link = b ++ '=' :: (b' ++ y)

/-- The parameters in parentheses and the body in braces. -/
def enclosed (h : Handler) (gap : List Char) : List Char :=
  '(' :: (h.params ++ ')' :: (gap ++ '\x7b' :: (h.body ++ ['\n', '\x7d'])))

/-- The text of an exported handler of a name. -/
inductive ExportedAs (h : Handler) (name : List Char) : List Char → Prop
  | function {w x link gap : List Char} : Export ["function".toList] [name] w x → Blanks link →
    FunctionGap gap → ExportedAs h name (w ++ (link ++ h.enclosed gap))
  | arrow {w x link gap : List Char} : Export bindings [name] w x → Binds link →
    ArrowGap gap → ExportedAs h name (w ++ (link ++ h.enclosed gap))

/-- The handler stands in the source under the name; its body ends at the first line that begins with
a brace, and is not empty. -/
structure FoundIn (h : Handler) (name source : List Char) : Prop where
  place : ∃ front t back, source = front ++ (t ++ back) ∧ h.ExportedAs name t
  first : ¬ ['\n', '\x7d'] <:+: h.body
  nonempty : h.body ≠ []

/-! ### Bodies -/

variable {name s r b : List Char} {h : Handler}

theorem char?_eq_some_iff {c : Char} : char? c s = some r ↔ s = c :: r := by
  cases s with
  | nil => simp [char?]
  | cons d s => simp [char?, eq_comm]

/-- The body is what stands before the first line that begins with a brace. -/
theorem body?_sound (h : body? s = some b) :
    (∃ back, s = b ++ '\n' :: '\x7d' :: back) ∧ ¬ ['\n', '\x7d'] <:+: b := by
  fun_induction body? s generalizing b with
  | case1 back =>
      cases h
      exact ⟨⟨back, rfl⟩, by simp⟩
  | case2 c rest hfirst ih =>
      obtain ⟨b, hb, rfl⟩ := Option.map_eq_some_iff.mp h
      obtain ⟨⟨back, hrest⟩, hinfix⟩ := ih hb
      refine ⟨⟨back, by rw [hrest]; rfl⟩, fun hi => ?_⟩
      rcases List.infix_cons_iff.mp hi with hprefix | hi
      · obtain ⟨t, ht⟩ := hprefix
        obtain ⟨hc, hb⟩ := List.cons.inj ht
        exact hfirst (t ++ '\n' :: '\x7d' :: back) hc.symm (by rw [hrest, ← hb]; rfl)
      · exact hinfix hi
  | case3 => cases h

/-- The body opens with a brace, and `Between` holds of what stands before it. -/
def Opens (Between : List Char → Prop) (tail? : List Char → Option (List Char)) : Prop :=
  ∀ s b, tail? s = some b → ∃ gap rest, Between gap ∧ s = gap ++ '\x7b' :: rest ∧ body? rest = some b

theorem exists_skipBlanks (s : List Char) : ∃ b, Blanks b ∧ s = b ++ skipBlanks s :=
  ⟨s.takeWhile isBlank, List.all_eq_true.mp List.all_takeWhile,
    List.takeWhile_append_dropWhile.symm⟩

/-- What stands before a sign has no such sign. -/
theorem exists_dropWhile_ne {c : Char} (h : s.dropWhile (· != c) = c :: r) :
    ∃ t, c ∉ t ∧ s = t ++ c :: r := by
  refine ⟨s.takeWhile (· != c), fun hc => ?_, ?_⟩
  · have hall := List.all_eq_true.mp List.all_takeWhile c hc
    simp at hall
  · rw [← h, List.takeWhile_append_dropWhile]

theorem opens_functionBody? : Opens FunctionGap functionBody? := by
  intro s b h
  obtain ⟨blank, hblank, hs⟩ := exists_skipBlanks s
  unfold functionBody? at h
  split at h
  · next rest hskip => exact ⟨blank, rest, ⟨blank, [], hblank, .inl rfl, by simp⟩, hskip ▸ hs, h⟩
  · next rest hskip =>
      obtain ⟨r, hr, hb⟩ := Option.bind_eq_some_iff.mp h
      obtain ⟨t, ht, hrest⟩ := exists_dropWhile_ne (char?_eq_some_iff.mp hr)
      refine ⟨blank ++ ':' :: t, r, ⟨blank, _, hblank, .inr ⟨t, rfl, ht⟩, rfl⟩, ?_, hb⟩
      rw [hs, hskip, hrest]
      simp
  · cases h

theorem behindArrow?_sound (h : behindArrow? s = some b) :
    ∃ blank rest, Blanks blank ∧ s = '=' :: '>' :: (blank ++ '\x7b' :: rest) ∧ body? rest = some b := by
  obtain ⟨s₁, h₁, h⟩ := Option.bind_eq_some_iff.mp h
  obtain ⟨s₂, h₂, h⟩ := Option.bind_eq_some_iff.mp h
  obtain ⟨rest, h₃, hb⟩ := Option.bind_eq_some_iff.mp h
  obtain ⟨blank, hblank, hs⟩ := exists_skipBlanks s₂
  refine ⟨blank, rest, hblank, ?_, hb⟩
  rw [char?_eq_some_iff.mp h₁, char?_eq_some_iff.mp h₂, hs, char?_eq_some_iff.mp h₃]

theorem opens_arrowBody? : Opens ArrowGap arrowBody? := by
  intro s b h
  obtain ⟨blank, hblank, hs⟩ := exists_skipBlanks s
  unfold arrowBody? at h
  split at h
  · next rest hskip =>
      obtain ⟨blank', r, hblank', hrest, hb⟩ := behindArrow?_sound h
      obtain ⟨t, ht, hkind⟩ := exists_dropWhile_ne hrest
      refine ⟨blank ++ (':' :: t ++ '=' :: '>' :: blank'), r,
        ⟨blank, _, blank', hblank, .inr ⟨t, rfl, ht⟩, hblank', rfl⟩, ?_, hb⟩
      rw [hs, hskip, hkind]
      simp
  · obtain ⟨blank', r, hblank', hskip, hb⟩ := behindArrow?_sound h
    refine ⟨blank ++ '=' :: '>' :: blank', r,
      ⟨blank, [], blank', hblank, .inl rfl, hblank', rfl⟩, ?_, hb⟩
    rw [hs, hskip]
    simp

/-- Parameters end at a parenthesis, and a body opens behind it. -/
theorem params?_sound {Between : List Char → Prop} {tail? : List Char → Option (List Char)}
    (htail : Opens Between tail?) (hp : params? tail? s = some h) :
    ∃ gap rest, Between gap ∧ s = h.params ++ ')' :: (gap ++ '\x7b' :: rest) ∧
      body? rest = some h.body := by
  induction s generalizing h with
  | nil => cases hp
  | cons c s ih =>
      have hfurther (hf : ((params? tail? s).map fun h => { h with params := c :: h.params }) =
          some h) : ∃ gap rest, Between gap ∧ c :: s = h.params ++ ')' :: (gap ++ '\x7b' :: rest) ∧
            body? rest = some h.body := by
        obtain ⟨h, hh, rfl⟩ := Option.map_eq_some_iff.mp hf
        obtain ⟨gap, rest, hgap, hs, hrest⟩ := ih hh
        exact ⟨gap, rest, hgap, congrArg (c :: ·) hs, hrest⟩
      unfold params? at hp
      split at hp
      · next hc =>
          split at hp
          · next body hbody =>
              cases hp
              obtain ⟨gap, rest, hgap, hs, hrest⟩ := htail s body hbody
              exact ⟨gap, rest, hgap, by rw [hc, hs]; rfl, hrest⟩
          · exact hfurther hp
      · exact hfurther hp

/-- What stands from the parenthesis on. -/
theorem enclosed_of_params? {Between : List Char → Prop} {tail? : List Char → Option (List Char)}
    (htail : Opens Between tail?) (hp : params? tail? s = some h) :
    ∃ gap back, Between gap ∧ '(' :: s = h.enclosed gap ++ back ∧ ¬ ['\n', '\x7d'] <:+: h.body := by
  obtain ⟨gap, rest, hgap, rfl, hbody⟩ := params?_sound htail hp
  obtain ⟨⟨back, rfl⟩, hfirst⟩ := body?_sound hbody
  exact ⟨gap, back, hgap, by simp [enclosed], hfirst⟩

/-! ### Headers -/

theorem named?_sound (h : named? name s = some r) :
    ∃ g x, Gap g ∧ sameWord name x = true ∧ s = g ++ (x ++ r) := by
  induction s with
  | nil => cases h
  | cons c s ih =>
      unfold named? at h
      split at h
      · next hc =>
          split at h
          · next t ht =>
              cases h
              obtain ⟨g, x, ⟨hg, -⟩, hx, rfl⟩ := ih ht
              exact ⟨c :: g, x, ⟨List.forall_mem_cons.mpr ⟨hc, hg⟩, List.cons_ne_nil _ _⟩, hx, rfl⟩
          · obtain ⟨x, rfl, hx⟩ := word?_eq_some_iff.mp h
            have hblank : Blanks [c] := List.forall_mem_singleton.mpr hc
            exact ⟨[c], x, ⟨hblank, List.cons_ne_nil _ _⟩, hx, rfl⟩
      · cases h

theorem functionHere?_sound (hf : functionHere? name s = some h) : ∃ t back, s = t ++ back ∧
    h.ExportedAs name t ∧ ¬ ['\n', '\x7d'] <:+: h.body := by
  obtain ⟨s₁, h₁, hf⟩ := Option.bind_eq_some_iff.mp hf
  obtain ⟨s₂, h₂, hf⟩ := Option.bind_eq_some_iff.mp hf
  obtain ⟨s₃, h₃, hf⟩ := Option.bind_eq_some_iff.mp hf
  obtain ⟨s₄, h₄, hf⟩ := Option.bind_eq_some_iff.mp hf
  obtain ⟨s₅, h₅, hp⟩ := Option.bind_eq_some_iff.mp hf
  obtain ⟨e, rfl, he⟩ := word?_eq_some_iff.mp h₁
  obtain ⟨b, hb, rfl, -⟩ := blanks?_eq_some_iff.mp h₂
  obtain ⟨y, hy, hs₂⟩ := maybeAsync_optionalWord s₂
  obtain ⟨d, hs₃, hd⟩ := word?_eq_some_iff.mp h₃
  obtain ⟨g, x, hg, hx, rfl⟩ := named?_sound h₄
  obtain ⟨link, hlink, hs₄⟩ := exists_skipBlanks s₄
  obtain ⟨gap, back, hgap, henclosed, hfirst⟩ := enclosed_of_params? opens_functionBody? hp
  have hexport : Export ["function".toList] [name] (e ++ (b ++ (y ++ (d ++ (g ++ x))))) x :=
    ⟨e, b, y, d, g, he, hb, hy, ⟨_, List.mem_cons_self, hd⟩, hg, ⟨_, List.mem_cons_self, hx⟩, rfl⟩
  refine ⟨_, back, ?_, .function hexport hlink hgap, hfirst⟩
  rw [hs₂, hs₃, hs₄, char?_eq_some_iff.mp h₅, henclosed]
  simp only [List.append_assoc]

theorem arrowHere?_sound (hf : arrowHere? name s = some h) : ∃ t back, s = t ++ back ∧
    h.ExportedAs name t ∧ ¬ ['\n', '\x7d'] <:+: h.body := by
  obtain ⟨s₁, h₁, hf⟩ := Option.bind_eq_some_iff.mp hf
  obtain ⟨s₂, h₂, hf⟩ := Option.bind_eq_some_iff.mp hf
  obtain ⟨s₃, h₃, hf⟩ := Option.bind_eq_some_iff.mp hf
  obtain ⟨s₄, h₄, hf⟩ := Option.bind_eq_some_iff.mp hf
  obtain ⟨s₅, h₅, hf⟩ := Option.bind_eq_some_iff.mp hf
  obtain ⟨s₆, h₆, hp⟩ := Option.bind_eq_some_iff.mp hf
  obtain ⟨e, rfl, he⟩ := word?_eq_some_iff.mp h₁
  obtain ⟨b, hb, rfl, -⟩ := blanks?_eq_some_iff.mp h₂
  obtain ⟨d, hd, rfl⟩ := spells_of_oneOf? h₃
  obtain ⟨g, x, hg, hx, rfl⟩ := named?_sound h₄
  obtain ⟨b₁, hb₁, hs₄⟩ := exists_skipBlanks s₄
  obtain ⟨b₂, hb₂, hs₅⟩ := exists_skipBlanks s₅
  obtain ⟨y, hy, hs₆⟩ := maybeAsync_optionalWord (skipBlanks s₅)
  obtain ⟨gap, back, hgap, henclosed, hfirst⟩ := enclosed_of_params? opens_arrowBody? hp
  have hexport : Export bindings [name] (e ++ (b ++ ([] ++ (d ++ (g ++ x))))) x :=
    ⟨e, b, [], d, g, he, hb, .inl rfl, hd, hg, ⟨_, List.mem_cons_self, hx⟩, rfl⟩
  refine ⟨_, back, ?_, .arrow hexport ⟨b₁, b₂, y, hb₁, hb₂, hy, rfl⟩ hgap, hfirst⟩
  rw [hs₄, char?_eq_some_iff.mp h₅, hs₅, hs₆, char?_eq_some_iff.mp h₆, henclosed]
  simp only [List.append_assoc, List.nil_append, List.cons_append]

/-! ### The search in a source -/

theorem leftmost?_sound {β : Type} {here? : List Char → Option β} {x : β}
    (h : leftmost? here? s = some x) : ∃ t, t <:+ s ∧ here? t = some x := by
  induction s with
  | nil => cases h
  | cons c s ih =>
      unfold leftmost? at h
      split at h
      · next y hy =>
          cases h
          exact ⟨c :: s, List.suffix_rfl, hy⟩
      · obtain ⟨t, ht, hx⟩ := ih h
        exact ⟨t, ht.trans (List.suffix_cons c s), hx⟩

theorem nonempty?_eq_some_iff {h k : Handler} : nonempty? h = some k ↔ h = k ∧ k.body ≠ [] := by
  unfold nonempty?
  rw [Option.ite_none_left_eq_some, Option.some_inj, List.isEmpty_iff]
  constructor
  · rintro ⟨hne, rfl⟩
    exact ⟨rfl, hne⟩
  · rintro ⟨rfl, hne⟩
    exact ⟨hne, rfl⟩

/-- A handler that is found stands in the source. -/
theorem foundIn_of_find? {source : List Char} (hf : find? name source = some h) :
    h.FoundIn name source := by
  have hplace {here? : List Char → Option Handler} (hhere : ∀ s h, here? s = some h →
        ∃ t back, s = t ++ back ∧ h.ExportedAs name t ∧ ¬ ['\n', '\x7d'] <:+: h.body)
      (hl : (leftmost? here? source).bind nonempty? = some h) : h.FoundIn name source := by
    obtain ⟨k, hk, hne⟩ := Option.bind_eq_some_iff.mp hl
    obtain ⟨rfl, hne⟩ := nonempty?_eq_some_iff.mp hne
    obtain ⟨s, ⟨front, rfl⟩, hs⟩ := leftmost?_sound hk
    obtain ⟨t, back, rfl, ht, hfirst⟩ := hhere s k hs
    exact ⟨⟨front, t, back, rfl, ht⟩, hfirst, hne⟩
  unfold find? at hf
  split at hf
  · next k hk =>
      cases hf
      exact hplace (fun _ _ => functionHere?_sound) hk
  · exact hplace (fun _ _ => arrowHere?_sound) hf

/-! ### The export in front of a handler -/

/-- No blank can stand inside a word. -/
theorem isWord_of_blank {c : Char} (hc : isBlank c = true) : isWord c = false := by
  have hapart : ∀ s ∈ blankSpans, ∀ t ∈ wordSpans, s.2 < t.1 ∨ t.2 < s.1 := by decide +kernel
  refine Bool.eq_false_iff.mpr fun hw => ?_
  obtain ⟨s, hs, hle⟩ := (inSpans_iff _ _).mp hc
  obtain ⟨t, ht, hle'⟩ := (inSpans_iff _ _).mp hw
  have hst := hapart s hs t ht
  omega

theorem head?_blanks {b : List Char} (hb : Blanks b) {c d : Char} (hd : isWord d = false)
    (hc : c ∈ (b ++ d :: s).head?) : isWord c = false := by
  cases b with
  | nil =>
      cases hc
      exact hd
  | cons e b =>
      cases hc
      exact isWord_of_blank (hb _ List.mem_cons_self)

/-- The text of an exported handler begins with an export of its name, and no word goes on behind
it. -/
theorem ExportedAs.exists_export {t : List Char} (h : h.ExportedAs name t) :
    ∃ ds w x v, t = w ++ v ∧ (∀ d ∈ ds, d ∈ declarations) ∧ Export ds [name] w x ∧
      ∀ back, ∀ c ∈ (v ++ back).head?, isWord c = false := by
  cases h with
  | @function w x link gap hw hlink _ =>
      refine ⟨_, w, x, _, rfl, List.forall_mem_singleton.mpr List.mem_cons_self, hw, ?_⟩
      intro back c hc
      rw [List.append_assoc] at hc
      exact head?_blanks hlink (by decide +kernel) hc
  | @arrow w x link gap hw hlink _ =>
      obtain ⟨b, b', y, hb, -, -, rfl⟩ := hlink
      refine ⟨bindings, w, x, _, rfl, fun _ => List.mem_cons_of_mem _, hw, ?_⟩
      intro back c hc
      rw [List.append_assoc, List.append_assoc, List.cons_append] at hc
      exact head?_blanks hb (by decide +kernel) hc

theorem FoundIn.mem_exportedMethods {source : List Char} {m : Method} {h : Handler}
    (hm : m ∈ Method.known) (hascii : ∀ c ∈ source, c.toNat < 128)
    (hfound : h.FoundIn (upper m) source) : m ∈ exportedMethods source := by
  obtain ⟨front, t, back, rfl, ht⟩ := hfound.place
  obtain ⟨ds, w, x, v, rfl, hds, hw, hv⟩ := ht.exists_export
  obtain ⟨e, b, y, d, g, he, hb, hy, hd, hg, ⟨_, hname, hx⟩, rfl⟩ := hw
  obtain rfl := List.mem_singleton.mp hname
  have hspells : Spells methodNames x := ⟨_, List.mem_map_of_mem hm, hx⟩
  have hexport : Export declarations methodNames (e ++ (b ++ (y ++ (d ++ (g ++ x))))) x :=
    ⟨e, b, y, d, g, he, hb, hy, hd.mono hds, hg, hspells, rfl⟩
  have hplain : ∀ c ∈ x, c ∉ oddLetters := by
    have hbeyond : ∀ c ∈ oddLetters, 128 ≤ c.toNat := by decide
    intro c hc hodd
    have hlt : c.toNat < 128 := hascii c (by simp [hc])
    have hle := hbeyond c hodd
    omega
  refine RouteScribe.mem_exportedMethods.mpr
    ⟨x, mem_exports_iff_export.mpr ⟨front, _, v ++ back, ?_, hexport, hv back⟩,
      lower_of_sameWord_upper hm hx hplain⟩
  simp only [List.append_assoc]

/-- The handler in its standard form, piece by piece. -/
theorem shown_pieces (h : Handler) (name : List Char) : h.shown name =
    "export async function ".toList ++ (name ++ '(' :: (trim h.params ++ ([')', ' ', '\x7b'] ++
      (h.body ++ ['\n', '\x7d'])))) := by
  unfold shown
  generalize "export async function ".toList = lead
  simp only [List.append_assoc, List.cons_append, List.nil_append]

end Handler

open Handler

/-- **The handler that is cut out of a source.**  In a text of ASCII its method is among the methods
of the text.  The handler stands in the text as an exported handler of the method, its body is not
empty and ends at the first line that begins with a brace, and it is shown with its parameters
trimmed. -/
theorem handlerSource_sound {source s : List Char} {m : Method} (hm : m ∈ Method.known)
    (hascii : ∀ c ∈ source, c.toNat < 128) (hs : handlerSource? source m = some s) :
    m ∈ exportedMethods source ∧ ∃ h : Handler, h.FoundIn (upper m) source ∧
      s = "export async function ".toList ++ (upper m ++ '(' :: (trim h.params ++
        ([')', ' ', '\x7b'] ++ (h.body ++ ['\n', '\x7d'])))) := by
  obtain ⟨h, hfind, rfl⟩ := Option.map_eq_some_iff.mp hs
  have hfound := foundIn_of_find? hfind
  exact ⟨hfound.mem_exportedMethods hm hascii, h, hfound, h.shown_pieces (upper m)⟩

/-- A handler with parameters on lines of their own, behind one whose body is empty. -/
def emptyFirst : List Char :=
  ("export function GET() \x7b\n\x7d\nexport const get = async (\n  request\n) => \x7b\n" ++
    "  return 1\n\x7d\n").toList

theorem handlerSource_emptyFirst : handlerSource? emptyFirst "get".toList =
      some "export async function GET(request) \x7b\n  return 1\n\x7d".toList ∧
    "get".toList ∈ exportedMethods emptyFirst ∧
    ∃ h : Handler, h.FoundIn (upper "get".toList) emptyFirst := by
  have hcut : handlerSource? emptyFirst "get".toList =
      some "export async function GET(request) \x7b\n  return 1\n\x7d".toList := by
    decide +kernel
  obtain ⟨hmem, h, hfound, -⟩ := handlerSource_sound (by decide) (by decide +kernel) hcut
  exact ⟨hcut, hmem, h, hfound⟩

end RouteScribe
