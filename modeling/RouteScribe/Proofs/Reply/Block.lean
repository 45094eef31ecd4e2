import RouteScribe.Proofs.Json.Front
import RouteScribe.Reply

/-! # The fenced block of a reply

A fenced block is the mark, the word `json` or not, blanks, a text from an opening brace to a
closing one, blanks and the mark again (`Opens`).  The block of a reply is the one that opens first,
and the shortest of those that open there (`IsFirst`).  The search finds it (`fenced?_eq_some_iff`),
and finds nothing exactly where no block opens (`fenced?_eq_none_iff`). -/

namespace RouteScribe
namespace Reply

/-! ### Blocks -/

/-- The mark of a fenced block as a text. -/
def mark : Text := Text.ofChars fence

/-- Blanks of a reply. -/
def Blanks (t : Text) : Prop := ∀ c ∈ t, isBlank c = true

/-- What stands in a block before its object. -/
def Opener (t : Text) : Prop :=
  ∃ word gap, (word = [] ∨ word = ("json" : Text)) ∧ Blanks gap ∧ t = mark ++ (word ++ gap)

/-- A text that begins with the end of a block. -/
def Closer (t : Text) : Prop := ∃ gap back, Blanks gap ∧ t = gap ++ (mark ++ back)

/-- A fenced block that holds the text `b` opens at the start of `s`. -/
def Opens (s b : Text) : Prop := ∃ o c, Opener o ∧ Json.Braced b ∧ Closer c ∧ s = o ++ (b ++ c)

/-- The shortest text in a block that opens at the start of `s`. -/
def IsShortest (s b : Text) : Prop := Opens s b ∧ ∀ b', Opens s b' → b.length ≤ b'.length

/-- The shortest text in a block at the first place of `s` where a block opens. -/
def IsFirst (s b : Text) : Prop :=
  ∃ front rest, s = front ++ rest ∧ IsShortest rest b ∧
    ∀ front' rest' b', s = front' ++ rest' → Opens rest' b' → front.length ≤ front'.length

/-- A block opens somewhere in the text. -/
def HasBlock (s : Text) : Prop := ∃ front rest b, s = front ++ rest ∧ Opens rest b

/-! ### Braces, blanks and marks -/

theorem blank_ne {c : CodePoint} {x : Char} (hc : isBlank c = true)
    (hx : isBlankCode x.toNat = false) : c ≠ .scalar x := by
  rintro rfl
  rw [isBlank, CodePoint.code, hx] at hc
  exact Bool.false_ne_true hc

theorem Blanks.not_mem {t : Text} (h : Blanks t) {x : Char} (hx : isBlankCode x.toNat = false) :
    .scalar x ∉ t := fun hm => blank_ne (h _ hm) hx rfl

/-- There is no brace before the object of a block. -/
theorem Opener.no_brace {t : Text} (h : Opener t) : .scalar '\x7b' ∉ t := by
  obtain ⟨word, gap, hword, hgap, rfl⟩ := h
  have hmark : .scalar '\x7b' ∉ mark := by decide
  have hjson : .scalar '\x7b' ∉ word := by
    rcases hword with rfl | rfl
    · exact List.not_mem_nil
    · decide
  simp only [List.mem_append, not_or]
  exact ⟨hmark, hjson, hgap.not_mem (by decide)⟩

/-- Where neither front has the element, the fronts of two equal texts are equal. -/
theorem append_cons_inj {α : Type} {c : α} {x y s t : List α} (hx : c ∉ x) (hy : c ∉ y)
    (h : x ++ c :: s = y ++ c :: t) : x = y ∧ s = t := by
  induction x generalizing y with
  | nil =>
      cases y with
      | nil => exact ⟨rfl, (List.cons.inj h).2⟩
      | cons d y => exact absurd ((List.cons.inj h).1 ▸ List.mem_cons_self) hy
  | cons d x ih =>
      cases y with
      | nil => exact absurd ((List.cons.inj h).1 ▸ List.mem_cons_self) hx
      | cons e y =>
          obtain ⟨rfl, htail⟩ := List.cons.inj h
          obtain ⟨rfl, rfl⟩ := ih (fun hm => hx (List.mem_cons_of_mem _ hm))
            (fun hm => hy (List.mem_cons_of_mem _ hm)) htail
          exact ⟨rfl, rfl⟩

/-- Two blocks that open at one place begin their texts together. -/
theorem Opens.eq_of_length {s b b' : Text} (h : Opens s b) (h' : Opens s b')
    (hlen : b.length = b'.length) : b = b' := by
  obtain ⟨o, c, ho, ⟨u, rfl⟩, -, rfl⟩ := h
  obtain ⟨o', c', ho', ⟨u', rfl⟩, -, heq⟩ := h'
  obtain ⟨-, hrest⟩ := append_cons_inj ho.no_brace ho'.no_brace heq
  rw [(List.append_inj hrest (Nat.succ.inj hlen)).1]

/-! ### The search at one place -/

theorem dropWhile_blanks {gap s : Text} (hgap : Blanks gap)
    (hs : ∀ c ∈ s.head?, isBlank c = false) : (gap ++ s).dropWhile isBlank = s := by
  rw [List.dropWhile_append_of_pos hgap]
  cases s with
  | nil => rfl
  | cons c s => rw [List.dropWhile_cons_of_neg (by rw [hs c rfl]; exact Bool.false_ne_true)]

theorem closes_iff {s : Text} : closes s = true ↔ Closer s := by
  rw [closes, Option.isSome_iff_exists]
  constructor
  · rintro ⟨back, hback⟩
    obtain ⟨gap, hgap, hs⟩ := Json.exists_dropWhile isBlank s
    exact ⟨gap, back, hgap, by rw [hs, Json.after?_eq_some_iff.mp hback, mark]⟩
  · rintro ⟨gap, back, hgap, rfl⟩
    refine ⟨back, Json.after?_eq_some_iff.mpr ?_⟩
    rw [dropWhile_blanks hgap (by rintro _ ⟨⟩; decide), mark]

/-- The search for the end of a block comes to one. -/
theorem upToFence?_sound {t u : Text} (h : upToFence? t = some u) :
    ∃ i c, u = i ++ [.scalar '\x7d'] ∧ Closer c ∧ t = u ++ c := by
  induction t generalizing u with
  | nil => cases h
  | cons d t ih =>
      rw [upToFence?] at h
      split at h
      · next hd =>
          rw [Bool.and_eq_true, decide_eq_true_eq] at hd
          cases h
          exact ⟨[], t, by rw [hd.1]; rfl, closes_iff.mp hd.2, rfl⟩
      · obtain ⟨v, hv, rfl⟩ := Option.map_eq_some_iff.mp h
        obtain ⟨i, c, rfl, hc, rfl⟩ := ih hv
        exact ⟨d :: i, c, rfl, hc, rfl⟩

/-- The search for the end of a block goes past none. -/
theorem upToFence?_complete (i : Text) {c : Text} (hc : Closer c) :
    ∃ u, upToFence? (i ++ .scalar '\x7d' :: c) = some u ∧ u.length ≤ i.length + 1 := by
  induction i with
  | nil => exact ⟨[.scalar '\x7d'], by simp [upToFence?, closes_iff.mpr hc], Nat.le_refl _⟩
  | cons d i ih =>
      obtain ⟨u, hu, hle⟩ := ih
      rw [List.cons_append, upToFence?]
      split
      · exact ⟨[d], rfl, by simp⟩
      · exact ⟨d :: u, by rw [hu]; rfl, by simpa using hle⟩

theorem fencedHere?_sound {s b : Text} (h : fencedHere? s = some b) : Opens s b := by
  obtain ⟨s₁, h₁, h⟩ := Option.bind_eq_some_iff.mp h
  obtain ⟨word, hword, hs₁⟩ : ∃ word, (word = [] ∨ word = ("json" : Text)) ∧
      s₁ = word ++ (Json.after? "json".toList s₁).getD s₁ := by
    cases hj : Json.after? "json".toList s₁ with
    | none => exact ⟨[], .inl rfl, rfl⟩
    | some s₂ => exact ⟨_, .inr rfl, Json.after?_eq_some_iff.mp hj⟩
  generalize (Json.after? "json".toList s₁).getD s₁ = s₂ at h hs₁
  obtain ⟨gap, hgap, hs₂⟩ := Json.exists_dropWhile isBlank s₂
  dsimp only at h
  split at h
  · next d rest hd =>
      split at h
      · next hbrace =>
          obtain ⟨u, hu, rfl⟩ := Option.map_eq_some_iff.mp h
          obtain ⟨i, c, rfl, hc, rfl⟩ := upToFence?_sound hu
          refine ⟨_, c, ⟨word, gap, hword, hgap, rfl⟩, ⟨i, by rw [hbrace]⟩, hc, ?_⟩
          rw [Json.after?_eq_some_iff.mp h₁, hs₁, hs₂, hd, mark]
          simp only [List.append_assoc, List.cons_append]
      · cases h
  · cases h

/-- Blanks and a brace do not begin with the word. -/
theorem after?_json_gap {gap t : Text} (hgap : Blanks gap) :
    Json.after? "json".toList (gap ++ .scalar '\x7b' :: t) = none := by
  rw [Option.eq_none_iff_forall_ne_some]
  intro r hr
  have heq := Json.after?_eq_some_iff.mp hr
  cases gap with
  | nil => cases heq
  | cons d gap =>
      have hd : d = .scalar 'j' := (List.cons.inj heq).1
      exact blank_ne (hgap d List.mem_cons_self) (by decide) hd

theorem fencedHere?_opener {o : Text} (ho : Opener o) (t : Text) :
    fencedHere? (o ++ .scalar '\x7b' :: t) = (upToFence? t).map (.scalar '\x7b' :: ·) := by
  obtain ⟨word, gap, hword, hgap, rfl⟩ := ho
  have hdrop := dropWhile_blanks hgap (s := .scalar '\x7b' :: t) (by rintro _ ⟨⟩; decide)
  have hmark : Json.after? fence (mark ++ (word ++ gap) ++ .scalar '\x7b' :: t) =
      some (word ++ (gap ++ .scalar '\x7b' :: t)) :=
    Json.after?_eq_some_iff.mpr (by rw [mark, List.append_assoc, List.append_assoc])
  have hjson : (Json.after? "json".toList (word ++ (gap ++ .scalar '\x7b' :: t))).getD
      (word ++ (gap ++ .scalar '\x7b' :: t)) = gap ++ .scalar '\x7b' :: t := by
    rcases hword with rfl | rfl
    · rw [List.nil_append, after?_json_gap hgap]
      rfl
    · rw [Json.after?_eq_some_iff.mpr (Eq.refl (Text.ofString "json" ++ _))]
      rfl
  rw [fencedHere?, hmark]
  simp only [Option.bind_eq_bind, Option.bind_some, hjson, hdrop, if_true]

theorem fencedHere?_complete {s b : Text} (h : Opens s b) :
    ∃ b', fencedHere? s = some b' ∧ b'.length ≤ b.length := by
  obtain ⟨o, c, ho, ⟨u, rfl⟩, hc, rfl⟩ := h
  obtain ⟨v, hv, hle⟩ := upToFence?_complete u hc
  refine ⟨.scalar '\x7b' :: v, ?_, by simpa using hle⟩
  have hs : o ++ (.scalar '\x7b' :: (u ++ [.scalar '\x7d']) ++ c) =
      o ++ .scalar '\x7b' :: (u ++ .scalar '\x7d' :: c) := by simp
  rw [hs, fencedHere?_opener ho, hv]
  rfl

theorem fencedHere?_eq_some_iff {s b : Text} : fencedHere? s = some b ↔ IsShortest s b := by
  constructor
  · intro h
    refine ⟨fencedHere?_sound h, fun b' hb' => ?_⟩
    obtain ⟨b'', h', hle⟩ := fencedHere?_complete hb'
    cases h.symm.trans h'
    exact hle
  · rintro ⟨hopens, hmin⟩
    obtain ⟨b', hb', hle⟩ := fencedHere?_complete hopens
    have hopens' := fencedHere?_sound hb'
    rw [hb', hopens'.eq_of_length hopens (Nat.le_antisymm hle (hmin b' hopens'))]

theorem fencedHere?_eq_none_iff {s : Text} : fencedHere? s = none ↔ ∀ b, ¬ Opens s b := by
  constructor
  · intro h b hb
    obtain ⟨b', hb', -⟩ := fencedHere?_complete hb
    cases h.symm.trans hb'
  · intro h
    exact Option.eq_none_iff_forall_ne_some.mpr fun b hb => h b (fencedHere?_sound hb)

/-! ### The search over the places -/

theorem not_opens_nil (b : Text) : ¬ Opens [] b := by
  rintro ⟨o, c, -, ⟨u, rfl⟩, -, h⟩
  simp at h

theorem isFirst_of_opens {s b₀ : Text} (h : Opens s b₀) (b : Text) :
    IsFirst s b ↔ IsShortest s b := by
  constructor
  · rintro ⟨front, rest, rfl, hb, hmin⟩
    have hnil := List.eq_nil_of_length_eq_zero (Nat.le_zero.mp (hmin [] _ b₀ rfl h))
    rwa [hnil]
  · intro hb
    exact ⟨[], s, rfl, hb, fun _ _ _ _ _ => Nat.zero_le _⟩

theorem isFirst_cons {c : CodePoint} {s : Text} (h : ∀ b, ¬ Opens (c :: s) b) (b : Text) :
    IsFirst (c :: s) b ↔ IsFirst s b := by
  constructor
  · rintro ⟨front, rest, heq, hb, hmin⟩
    cases front with
    | nil => exact absurd (heq ▸ hb.1) (h b)
    | cons d front =>
        obtain ⟨rfl, rfl⟩ := List.cons.inj heq
        refine ⟨front, rest, rfl, hb, fun front' rest' b' heq' hb' => ?_⟩
        have hle := hmin (c :: front') rest' b' (by rw [heq']; rfl) hb'
        simpa using hle
  · rintro ⟨front, rest, rfl, hb, hmin⟩
    refine ⟨c :: front, rest, rfl, hb, fun front' rest' b' heq hb' => ?_⟩
    cases front' with
    | nil => exact absurd (heq ▸ hb') (h b')
    | cons d front' =>
        have hle := hmin front' rest' b' (List.cons.inj heq).2 hb'
        simpa using hle

/-- The search finds the first block and the shortest text in it. -/
theorem fenced?_eq_some_iff {s b : Text} : fenced? s = some b ↔ IsFirst s b := by
  induction s with
  | nil =>
      refine ⟨(fun h => by cases h), ?_⟩
      rintro ⟨front, rest, heq, hb, -⟩
      rw [(List.append_eq_nil_iff.mp heq.symm).2] at hb
      exact absurd hb.1 (not_opens_nil b)
  | cons c s ih =>
      rw [fenced?]
      cases hh : fencedHere? (c :: s) with
      | some b₀ => rw [isFirst_of_opens (fencedHere?_sound hh), ← fencedHere?_eq_some_iff, hh]
      | none => rw [isFirst_cons (fencedHere?_eq_none_iff.mp hh), ← ih]

/-- The search finds nothing exactly in a text without a block. -/
theorem fenced?_eq_none_iff {s : Text} : fenced? s = none ↔ ¬ HasBlock s := by
  induction s with
  | nil =>
      refine ⟨fun _ => ?_, fun _ => rfl⟩
      rintro ⟨front, rest, b, heq, hb⟩
      rw [(List.append_eq_nil_iff.mp heq.symm).2] at hb
      exact not_opens_nil b hb
  | cons c s ih =>
      rw [fenced?]
      cases hh : fencedHere? (c :: s) with
      | some b₀ => simpa using ⟨[], c :: s, b₀, rfl, fencedHere?_sound hh⟩
      | none =>
          rw [ih]
          refine not_congr ⟨?_, ?_⟩
          · rintro ⟨front, rest, b, rfl, hb⟩
            exact ⟨c :: front, rest, b, rfl, hb⟩
          · rintro ⟨front, rest, b, heq, hb⟩
            cases front with
            | nil => exact absurd (heq ▸ hb) (fencedHere?_eq_none_iff.mp hh b)
            | cons d front => exact ⟨front, rest, b, (List.cons.inj heq).2, hb⟩

end Reply
end RouteScribe
