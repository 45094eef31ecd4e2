import RouteScribe.Proofs.Routes.Exports
import RouteScribe.Proofs.Text.Spelling

/-! # The form of an export

`Export` says what an export is, apart from any search: the word `export`, perhaps `async`, a word
that declares, and a name, with blanks between them.  The search at one place finds exactly this form
(`exportHere?_eq_some_iff`), because no two of the words can be spelled alike (`word?_unique`).

The scan goes on behind the end of each export that it finds, and misses none by that: the second
letter of the word `export` stands nowhere else in an export (`no_export_inside`).  So a text exports
what its parts of this form name (`mem_exportedMethods_iff_export`). -/

namespace RouteScribe

open AlongList

namespace Source

/-! ### Words in any case -/

/-- The text is one of some words, in some case. -/
def Spells (ws : List (List Char)) (x : List Char) : Prop := ∃ w ∈ ws, sameWord w x = true

/-- Blanks only. -/
def Blanks (b : List Char) : Prop := ∀ c ∈ b, isBlank c = true

/-- Blanks, at least one. -/
structure Gap (b : List Char) : Prop where
  blank : Blanks b
  nonempty : b ≠ []

/-- What may stand before a function: the word `async` and blanks, or nothing. -/
def MaybeAsync (y : List Char) : Prop :=
  y = [] ∨ ∃ a b, sameWord "async".toList a = true ∧ Gap b ∧ y = a ++ b

/-- The text `w` is an export: one of the words `ds` declares something under one of the names `ns`,
spelled `x`. -/
def Export (ds ns : List (List Char)) (w x : List Char) : Prop :=
  ∃ e b y d g, sameWord "export".toList e = true ∧ Gap b ∧ MaybeAsync y ∧ Spells ds d ∧ Gap g ∧
    Spells ns x ∧ w = e ++ (b ++ (y ++ (d ++ (g ++ x))))

variable {p q s r x y w v : List Char} {ws : List (List Char)} {c : Char}

theorem mem_alphabet (hp : p ∈ words) (hc : c ∈ p) : c ∈ alphabet := by
  have hall : ∀ c ∈ letters, c ∈ alphabet := by decide
  exact hall c (mem_letters p hp c hc)

/-- The words are not the beginnings of each other, in any case. -/
theorem words_apart : ∀ p ∈ words, ∀ q ∈ words,
    p.map Char.toLower <+: q.map Char.toLower → p = q := by
  decide +kernel

theorem exists_cons_of_sameWord (h : sameWord (c :: p) x = true) :
    ∃ d y, x = d :: y ∧ sameLetter c d = true ∧ sameWord p y = true := by
  cases x with
  | nil => cases h
  | cons d y =>
      rw [sameWord, Bool.and_eq_true] at h
      exact ⟨d, y, rfl, h⟩

theorem sameWord_length (h : sameWord p x = true) : p.length = x.length := by
  induction p generalizing x with
  | nil =>
      cases x with
      | nil => rfl
      | cons c x => cases h
  | cons d p ih =>
      obtain ⟨c, x, rfl, -, h⟩ := exists_cons_of_sameWord h
      exact congrArg (· + 1) (ih h)

/-- Each character of a spelling stands for a letter of the word. -/
theorem exists_letter_of_sameWord (h : sameWord p x = true) :
    ∀ c ∈ x, ∃ d ∈ p, sameLetter d c = true := by
  have hword : word? p x = some [] := word?_eq_some_iff.mpr ⟨x, (List.append_nil x).symm, h⟩
  have hall := sameLetter_of_word? hword
  rwa [sameWord_length h, List.take_length] at hall

/-- Two words that are read at one place agree as far as the shorter one goes. -/
theorem prefix_of_word? (hp : ∀ c ∈ p, c ∈ alphabet) (hq : ∀ c ∈ q, c ∈ alphabet)
    (h : word? p s = some r) (k : word? q s = some v) :
    p.map Char.toLower <+: q.map Char.toLower ∨ q.map Char.toLower <+: p.map Char.toLower := by
  induction p generalizing q s with
  | nil => exact .inl List.nil_prefix
  | cons d p ih =>
      cases q with
      | nil => exact .inr List.nil_prefix
      | cons e q =>
          cases s with
          | nil => cases h
          | cons c s =>
              rw [List.forall_mem_cons] at hp hq
              rw [word?, Option.ite_none_right_eq_some] at h k
              have hde := (letterOf_of_sameLetter hp.1 h.1).symm.trans (letterOf_of_sameLetter hq.1 k.1)
              rw [List.map_cons, List.map_cons, hde, List.cons_prefix_cons, List.cons_prefix_cons]
              exact (ih hp.2 hq.2 h.2 k.2).imp (⟨rfl, ·⟩) (⟨rfl, ·⟩)

/-- At most one of the words stands at the start of a text. -/
theorem word?_unique (hp : p ∈ words) (hq : q ∈ words) (h : word? p s = some r)
    (k : word? q s = some v) : p = q := by
  rcases prefix_of_word? (fun _ => mem_alphabet hp) (fun _ => mem_alphabet hq) h k with hpq | hqp
  · exact words_apart p hp q hq hpq
  · exact (words_apart q hq p hp hqp).symm

theorem Spells.mono {vs : List (List Char)} (h : Spells ws x) (hsub : ∀ w ∈ ws, w ∈ vs) :
    Spells vs x := by
  obtain ⟨w, hw, hx⟩ := h
  exact ⟨w, hsub w hw, hx⟩

theorem spells_word? (h : Spells ws x) (r : List Char) : ∃ w ∈ ws, word? w (x ++ r) = some r := by
  obtain ⟨w, hw, hx⟩ := h
  exact ⟨w, hw, word?_eq_some_iff.mpr ⟨x, rfl, hx⟩⟩

/-- A spelling of a word begins with no blank. -/
theorem startsWord_of_spells (hws : ∀ w ∈ ws, w ∈ words) (h : Spells ws x) (r : List Char) :
    StartsWord (x ++ r) := by
  have hne : ∀ w ∈ words, w ≠ [] := by decide
  obtain ⟨w, hw, hx⟩ := h
  cases x with
  | nil => exact absurd (List.length_eq_zero_iff.mp (sameWord_length hx)) (hne w (hws w hw))
  | cons c x =>
      rintro d ⟨⟩
      obtain ⟨p, hp, hc⟩ := exists_letter_of_sameWord hx c List.mem_cons_self
      exact (isWord_of_sameLetter (mem_alphabet (hws w hw) hp) hc).2

/-! ### The stages of the search -/

theorem blanks?_eq_some_iff :
    blanks? s = some r ↔ ∃ b, Gap b ∧ s = b ++ r ∧ StartsWord r := by
  constructor
  · intro h
    cases s with
    | nil => cases h
    | cons c s =>
        rw [blanks?, Option.ite_none_right_eq_some] at h
        obtain ⟨hc, h⟩ := h
        cases h
        refine ⟨c :: s.takeWhile isBlank, ⟨?_, List.cons_ne_nil _ _⟩, ?_, ?_⟩
        · exact List.forall_mem_cons.mpr ⟨hc, List.all_eq_true.mp List.all_takeWhile⟩
        · rw [List.cons_append, List.takeWhile_append_dropWhile]
        · intro d hd
          have hhead := List.head?_dropWhile_not isBlank s
          rw [Option.mem_def.mp hd] at hhead
          simpa using hhead
  · rintro ⟨b, ⟨hblank, hne⟩, rfl, hr⟩
    cases b with
    | nil => exact absurd rfl hne
    | cons c b =>
        obtain ⟨hc, hblank⟩ := List.forall_mem_cons.mp hblank
        have hskip : r.dropWhile isBlank = r := hr.skipBlanks
        rw [List.cons_append, blanks?, if_pos hc, List.dropWhile_append_of_pos hblank, hskip]

theorem maybeAsync_optionalWord (s : List Char) :
    ∃ y, MaybeAsync y ∧ s = y ++ optionalWord "async".toList s := by
  unfold optionalWord
  cases h : (word? "async".toList s).bind blanks? with
  | none => exact ⟨[], .inl rfl, rfl⟩
  | some r =>
      obtain ⟨t, ht, hr⟩ := Option.bind_eq_some_iff.mp h
      obtain ⟨a, rfl, ha⟩ := word?_eq_some_iff.mp ht
      obtain ⟨b, hb, rfl, -⟩ := blanks?_eq_some_iff.mp hr
      exact ⟨a ++ b, .inr ⟨a, b, ha, hb, rfl⟩, (List.append_assoc a b r).symm⟩

theorem optionalWord_append (hy : MaybeAsync y) (hr : StartsWord r)
    (hnone : word? "async".toList r = none) : optionalWord "async".toList (y ++ r) = r := by
  unfold optionalWord
  rcases hy with rfl | ⟨a, b, ha, hb, rfl⟩
  · rw [List.nil_append, hnone]
    rfl
  · have hword : word? "async".toList (a ++ (b ++ r)) = some (b ++ r) :=
      word?_eq_some_iff.mpr ⟨a, rfl, ha⟩
    rw [List.append_assoc, hword, Option.bind_some, blanks?_eq_some_iff.mpr ⟨b, hb, rfl, hr⟩]
    rfl

theorem startsWord_maybeAsync (hy : MaybeAsync y) (hr : StartsWord r) : StartsWord (y ++ r) := by
  rcases hy with rfl | ⟨a, b, ha, -, rfl⟩
  · exact hr
  · have hspells : Spells ["async".toList] a := ⟨_, List.mem_cons_self, ha⟩
    rw [List.append_assoc]
    refine startsWord_of_spells ?_ hspells (b ++ r)
    exact List.forall_mem_singleton.mpr async_mem_words

theorem spells_of_oneOf? (h : oneOf? ws s = some r) : ∃ d, Spells ws d ∧ s = d ++ r := by
  obtain ⟨w, hw, h⟩ := List.exists_of_findSome?_eq_some h
  obtain ⟨d, rfl, hd⟩ := word?_eq_some_iff.mp h
  exact ⟨d, ⟨w, hw, hd⟩, rfl⟩

/-- A search among words that stops at the right one. -/
theorem findSome?_eq_of_unique {α β : Type} {l : List α} {f : α → Option β} {a : α} {b : β}
    (ha : a ∈ l) (hb : f a = some b) (hone : ∀ a' ∈ l, ∀ b', f a' = some b' → a' = a) :
    l.findSome? f = some b := by
  cases h : l.findSome? f with
  | none =>
      rw [List.findSome?_eq_none_iff.mp h a ha] at hb
      cases hb
  | some b' =>
      obtain ⟨a', ha', hb'⟩ := List.exists_of_findSome?_eq_some h
      rw [hone a' ha' b' hb', hb] at hb'
      exact hb'.symm

theorem oneOf?_eq_some_iff (hws : ∀ w ∈ ws, w ∈ words) :
    oneOf? ws s = some r ↔ ∃ d, Spells ws d ∧ s = d ++ r := by
  refine ⟨spells_of_oneOf?, ?_⟩
  rintro ⟨d, hd, rfl⟩
  obtain ⟨w, hw, h⟩ := spells_word? hd r
  exact findSome?_eq_of_unique hw h fun v hv _ hr => word?_unique (hws v hv) (hws w hw) hr h

theorem methodName?_eq_some_iff :
    methodName? s = some (x, r) ↔ Spells methodNames x ∧ s = x ++ r ∧ wordEnds r = true := by
  constructor
  · intro h
    obtain ⟨w, hw, h⟩ := List.exists_of_findSome?_eq_some h
    obtain ⟨t, ht, h⟩ := Option.bind_eq_some_iff.mp h
    rw [Option.ite_none_right_eq_some] at h
    obtain ⟨hends, h⟩ := h
    obtain ⟨z, rfl, hz⟩ := word?_eq_some_iff.mp ht
    obtain ⟨hx, rfl⟩ := Prod.mk.inj (Option.some.inj h)
    rw [sameWord_length hz, List.take_left] at hx
    subst hx
    exact ⟨⟨w, hw, hz⟩, rfl, hends⟩
  · rintro ⟨⟨w, hw, hx⟩, rfl, hends⟩
    have hword : word? w (x ++ r) = some r := word?_eq_some_iff.mpr ⟨x, rfl, hx⟩
    refine findSome?_eq_of_unique hw ?_ fun v hv b hb => ?_
    · rw [hword, Option.bind_some, if_pos hends, sameWord_length hx, List.take_left]
    · obtain ⟨t, ht, -⟩ := Option.bind_eq_some_iff.mp hb
      exact word?_unique (methodName_mem_words hv) (methodName_mem_words hw) ht hword

/-- The search at one place finds the exports that stand there. -/
theorem exportHere?_eq_some_iff : exportHere? s = some (x, r) ↔
    ∃ w, Export declarations methodNames w x ∧ s = w ++ r ∧ wordEnds r = true := by
  rw [exportHere?_eq]
  constructor
  · intro h
    obtain ⟨s₁, h₁, h⟩ := Option.bind_eq_some_iff.mp h
    obtain ⟨s₂, h₂, h⟩ := Option.bind_eq_some_iff.mp h
    obtain ⟨s₃, h₃, h⟩ := Option.bind_eq_some_iff.mp h
    obtain ⟨s₄, h₄, hname⟩ := Option.bind_eq_some_iff.mp h
    obtain ⟨e, rfl, he⟩ := word?_eq_some_iff.mp h₁
    obtain ⟨b, hb, rfl, -⟩ := blanks?_eq_some_iff.mp h₂
    obtain ⟨y, hy, hs₂⟩ := maybeAsync_optionalWord s₂
    obtain ⟨d, hd, hs₃⟩ := spells_of_oneOf? h₃
    obtain ⟨g, hg, rfl, -⟩ := blanks?_eq_some_iff.mp h₄
    obtain ⟨hx, rfl, hends⟩ := methodName?_eq_some_iff.mp hname
    refine ⟨_, ⟨e, b, y, d, g, he, hb, hy, hd, hg, hx, rfl⟩, ?_, hends⟩
    rw [hs₂, hs₃]
    simp only [List.append_assoc]
  · rintro ⟨w, ⟨e, b, y, d, g, he, hb, hy, hd, hg, hx, rfl⟩, rfl, hends⟩
    have hdecl : ∀ w ∈ declarations, w ∈ words := fun _ => declaration_mem_words
    have hname : ∀ w ∈ methodNames, w ∈ words := fun _ => methodName_mem_words
    have hstart : StartsWord (d ++ (g ++ (x ++ r))) := startsWord_of_spells hdecl hd _
    have hasync : word? "async".toList (d ++ (g ++ (x ++ r))) = none := by
      obtain ⟨w, hw, hword⟩ := spells_word? hd (g ++ (x ++ r))
      have hother : "async".toList ∉ declarations := by decide
      refine Option.eq_none_iff_forall_ne_some.mpr fun t ht => hother ?_
      rwa [word?_unique async_mem_words (hdecl w hw) ht hword]
    simp only [List.append_assoc]
    rw [word?_eq_some_iff.mpr ⟨e, rfl, he⟩, Option.bind_some,
      blanks?_eq_some_iff.mpr ⟨b, hb, rfl, startsWord_maybeAsync hy hstart⟩, Option.bind_some,
      optionalWord_append hy hstart hasync, (oneOf?_eq_some_iff hdecl).mpr ⟨d, hd, rfl⟩,
      Option.bind_some,
      blanks?_eq_some_iff.mpr ⟨g, hg, rfl, startsWord_of_spells hname hx r⟩, Option.bind_some]
    exact methodName?_eq_some_iff.mpr ⟨hx, rfl, hends⟩

/-! ### The scan -/

/-- The character does not stand for the second letter of `export`. -/
abbrev NoX (c : Char) : Prop := sameLetter 'x' c = false

theorem noX_of_noWord (h : isWord c = false) : NoX c := by
  refine Bool.eq_false_iff.mpr fun hx => ?_
  rw [(isWord_of_sameLetter (by decide) hx).1] at h
  cases h

theorem noX_of_blank (h : isBlank c = true) : NoX c := by
  refine Bool.eq_false_iff.mpr fun hx => ?_
  rw [(isWord_of_sameLetter (by decide) hx).2] at h
  cases h

theorem Gap.noX (h : Gap y) : ∀ c ∈ y, NoX c := fun c hc => noX_of_blank (h.blank c hc)

theorem noX_of_sameWord (hp : ∀ d ∈ p, d ∈ alphabet ∧ d.toLower ≠ 'x') (h : sameWord p x = true) :
    ∀ c ∈ x, NoX c := by
  intro c hc
  obtain ⟨d, hd, hdc⟩ := exists_letter_of_sameWord h c hc
  refine Bool.eq_false_iff.mpr fun hx => (hp d hd).2 ?_
  have hletter : letterOf c = 'x' := letterOf_of_sameLetter (by decide) hx
  rw [← letterOf_of_sameLetter (hp d hd).1 hdc, hletter]

theorem noX_of_spells (hws : ∀ w ∈ ws, ∀ d ∈ w, d ∈ alphabet ∧ d.toLower ≠ 'x')
    (h : Spells ws x) : ∀ c ∈ x, NoX c := by
  obtain ⟨w, hw, hx⟩ := h
  exact noX_of_sameWord (hws w hw) hx

theorem noX_append (hx : ∀ c ∈ x, NoX c) (hy : ∀ c ∈ y, NoX c) : ∀ c ∈ x ++ y, NoX c :=
  List.forall_mem_append.mpr ⟨hx, hy⟩

/-- The second letter of an export is that of the word `export`, and it stands nowhere behind. -/
theorem Export.exists_second (h : Export declarations methodNames w x) :
    ∃ c d t, w = c :: d :: t ∧ sameLetter 'x' d = true ∧ ∀ c ∈ t, NoX c := by
  have hasync : ∀ d ∈ "async".toList, d ∈ alphabet ∧ d.toLower ≠ 'x' := by decide
  have hport : ∀ d ∈ "port".toList, d ∈ alphabet ∧ d.toLower ≠ 'x' := by decide
  have hdecl : ∀ w ∈ declarations, ∀ d ∈ w, d ∈ alphabet ∧ d.toLower ≠ 'x' := by decide
  have hname : ∀ w ∈ methodNames, ∀ d ∈ w, d ∈ alphabet ∧ d.toLower ≠ 'x' := by decide +kernel
  obtain ⟨e, b, y, d, g, he, hb, hy, hd, hg, hx, rfl⟩ := h
  obtain ⟨c₁, e, rfl, -, he⟩ := exists_cons_of_sameWord he
  obtain ⟨c₂, e, rfl, hsecond, he⟩ := exists_cons_of_sameWord he
  have hlead : ∀ c ∈ y, NoX c := by
    rcases hy with rfl | ⟨a, g, ha, hg, rfl⟩
    · exact List.forall_mem_nil _
    · exact noX_append (noX_of_sameWord hasync ha) hg.noX
  refine ⟨c₁, c₂, _, rfl, hsecond, ?_⟩
  exact noX_append (noX_of_sameWord hport he) (noX_append hb.noX (noX_append hlead
    (noX_append (noX_of_spells hdecl hd) (noX_append hg.noX (noX_of_spells hname hx)))))

/-- An export goes on behind its first letter, and what it goes on with has one `x`. -/
theorem exists_of_exportHere?_cons (h : exportHere? (c :: s) = some (x, r)) :
    ∃ d z, s = d :: (z ++ r) ∧ (∀ c ∈ z, NoX c) ∧ wordEnds r = true := by
  obtain ⟨w, hw, hs, hends⟩ := exportHere?_eq_some_iff.mp h
  obtain ⟨c₁, d, z, rfl, -, hz⟩ := hw.exists_second
  exact ⟨d, z, (List.cons.inj hs).2, hz, hends⟩

/-- No other export begins before the end of an export. -/
theorem no_export_inside (h : exportHere? (c :: s) = some (x, r)) {t : List Char} (ht : t <:+ s)
    (hlen : r.length < t.length) : exportHere? t = none := by
  obtain ⟨d, z, rfl, hz, hends⟩ := exists_of_exportHere?_cons h
  -- the second character of `t` stands in the export, or it is the first one behind its end
  have htail : t.tail <:+ z ++ r := by
    rcases List.suffix_cons_iff.mp ht with rfl | ht
    · exact List.suffix_rfl
    · exact (List.tail_suffix t).trans ht
  obtain ⟨a, ha⟩ : r <:+ t.tail := by
    refine List.suffix_of_suffix_length_le (List.suffix_append z r) htail ?_
    rw [List.length_tail]
    omega
  have hinside : a <:+ z := by
    obtain ⟨front, hfront⟩ := htail
    rw [← ha, ← List.append_assoc] at hfront
    exact ⟨front, List.append_cancel_right hfront⟩
  have hsecond : ∀ d ∈ t.tail.head?, NoX d := by
    rw [← ha]
    cases a with
    | cons d a =>
        rintro d ⟨⟩
        exact hz d (hinside.subset List.mem_cons_self)
    | nil =>
        cases r with
        | nil => nofun
        | cons d r =>
            rintro d ⟨⟩
            exact noX_of_noWord (by simpa [wordEnds] using hends)
  refine Option.eq_none_iff_forall_ne_some.mpr fun y hy => ?_
  obtain ⟨v, hv, rfl, -⟩ := exportHere?_eq_some_iff.mp hy
  obtain ⟨d₁, d₂, v, rfl, hx, -⟩ := hv.exists_second
  rw [hsecond d₂ rfl] at hx
  cases hx

/-- The scan goes on behind an export. -/
theorem exports_of_some (h : exportHere? (c :: s) = some (x, r)) :
    r <:+ s ∧ exports (c :: s) = x :: exports r := by
  obtain ⟨d, z, rfl, -, -⟩ := exists_of_exportHere?_cons h
  exact ⟨List.suffix_append (d :: z) r, exports_of_exportHere? (a := d :: z) h⟩

/-- The scan finds what stands anywhere in the text. -/
theorem mem_exports_iff : x ∈ exports s ↔ ∃ t, t <:+ s ∧ ∃ r, exportHere? t = some (x, r) := by
  induction hlen : s.length using Nat.strongRecOn generalizing s with
  | ind n ih =>
      cases s with
      | nil =>
          refine iff_of_false List.not_mem_nil ?_
          rintro ⟨t, ht, r, h⟩
          rw [List.suffix_nil.mp ht] at h
          cases h
      | cons c s =>
          have hbelow {b : List Char} (hb : b <:+ s) :
              x ∈ exports b ↔ ∃ t, t <:+ b ∧ ∃ r, exportHere? t = some (x, r) :=
            ih b.length (hlen ▸ Nat.lt_succ_of_le hb.length_le) rfl
          cases hhere : exportHere? (c :: s) with
          | none =>
              rw [exports_of_none hhere, hbelow List.suffix_rfl]
              constructor
              · rintro ⟨t, ht, hr⟩
                exact ⟨t, ht.trans (List.suffix_cons c s), hr⟩
              · rintro ⟨t, ht, r, hr⟩
                rcases List.suffix_cons_iff.mp ht with rfl | ht
                · rw [hhere] at hr
                  cases hr
                · exact ⟨t, ht, r, hr⟩
          | some found =>
              obtain ⟨y, b⟩ := found
              obtain ⟨hb, hexports⟩ := exports_of_some hhere
              rw [hexports, List.mem_cons, hbelow hb]
              constructor
              · rintro (rfl | ⟨t, ht, hr⟩)
                · exact ⟨_, List.suffix_rfl, b, hhere⟩
                · exact ⟨t, (ht.trans hb).trans (List.suffix_cons c s), hr⟩
              · rintro ⟨t, ht, r, hr⟩
                rcases List.suffix_cons_iff.mp ht with rfl | ht
                · rw [hhere] at hr
                  cases hr
                  exact .inl rfl
                · rcases Nat.lt_or_ge b.length t.length with hlt | hge
                  · rw [no_export_inside hhere ht hlt] at hr
                    cases hr
                  · exact .inr ⟨t, List.suffix_of_suffix_length_le ht hb hge, r, hr⟩

/-- A text exports a name exactly if an export of this name stands somewhere in it and no word goes on
behind the name. -/
theorem mem_exports_iff_export : x ∈ exports s ↔ ∃ u w v, s = u ++ (w ++ v) ∧
    Export declarations methodNames w x ∧ ∀ c ∈ v.head?, isWord c = false := by
  have hends (v : List Char) : wordEnds v = true ↔ ∀ c ∈ v.head?, isWord c = false := by
    cases v <;> simp [wordEnds]
  rw [mem_exports_iff]
  constructor
  · rintro ⟨t, ⟨u, rfl⟩, v, ht⟩
    obtain ⟨w, hw, rfl, hv⟩ := exportHere?_eq_some_iff.mp ht
    exact ⟨u, w, v, rfl, hw, (hends v).mp hv⟩
  · rintro ⟨u, w, v, rfl, hw, hv⟩
    have hhere := exportHere?_eq_some_iff.mpr ⟨w, hw, rfl, (hends v).mpr hv⟩
    exact ⟨w ++ v, List.suffix_append u (w ++ v), v, hhere⟩

/-! ### Names in lower case -/

theorem name_letters : ∀ m ∈ Method.known, (upper m).map Char.toLower = m ∧
    ∀ p ∈ upper m, p ∈ alphabet ∧ p.toLower ≠ 'k' := by
  decide +kernel

/-- The spelling of a method's name has the method as its lower case, unless one of three letters
beyond ASCII stands in it. -/
theorem lower_of_sameWord_upper {m : Method} (hm : m ∈ Method.known)
    (h : sameWord (upper m) x = true) (hodd : ∀ c ∈ x, c ∉ oddLetters) : lower x = m := by
  obtain ⟨hlower, hletters⟩ := name_letters m hm
  rw [lower_of_sameWord hletters h hodd, hlower]

/-- With such a letter in it, its lower case is no method that is known. -/
theorem lower_mem_known_iff (h : Spells methodNames x) :
    lower x ∈ Method.known ↔ ∀ c ∈ x, c ∉ oddLetters := by
  constructor
  · intro hknown c hc hodd
    have hascii : ∀ m ∈ Method.known, ∀ d ∈ m, d.toNat < 128 := by decide
    obtain ⟨d, hd, hbeyond⟩ := exists_beyond_of_mem [] hodd hc
    have hlt := hascii _ hknown d hd
    omega
  · intro hplain
    obtain ⟨p, hp, hx⟩ := h
    obtain ⟨m, hm, rfl⟩ := List.mem_map.mp hp
    rwa [lower_of_sameWord_upper hm hx hplain]

end Source

open Source

/-- **The methods of a text.**  A text exports a method exactly if an export of a name in it has the
method as its lower case, and no word goes on behind the name: the scan misses none. -/
theorem mem_exportedMethods_iff_export {source : List Char} {m : Method} :
    m ∈ exportedMethods source ↔ ∃ u w v x, source = u ++ (w ++ v) ∧
      Export declarations methodNames w x ∧ (∀ c ∈ v.head?, isWord c = false) ∧ m = lower x := by
  rw [mem_exportedMethods]
  constructor
  · rintro ⟨x, hx, rfl⟩
    obtain ⟨u, w, v, hs, hw, hv⟩ := mem_exports_iff_export.mp hx
    exact ⟨u, w, v, x, hs, hw, hv, rfl⟩
  · rintro ⟨u, w, v, x, hs, hw, hv, rfl⟩
    exact ⟨x, mem_exports_iff_export.mpr ⟨u, w, v, hs, hw, hv⟩, rfl⟩

/-- Words that begin an export and do not go on as one hide no export behind them. -/
example : exports "export async export let\tGet".toList = ["Get".toList] := by decide +kernel

end RouteScribe
