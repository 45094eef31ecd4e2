import Mathlib.Data.List.TakeWhile
import RouteScribe.Proofs.Except
import RouteScribe.Proofs.Json.Reading

/-! # The reader takes a front of the text

What is read as a value is a front of the text, and this front is read as the same value whatever
stands behind it, if that ends a value, with the same room and with as many steps of the recursion
as twice its length (`readValue_front`).  For numbers and strings the front belongs to the grammar (`readNumber_sound`,
`readPieces_sound`); a value need not, since the reader takes more than strict JSON.  So an object
with blanks around it is read as the object without them is (`exists_core_of_read`). -/

namespace RouteScribe
namespace Json

/-! ### Numbers -/

theorem takeDigits_sound (s : Text) :
    ∃ t, s = t ++ (takeDigits s).2 ∧ Digits t (takeDigits s).1 := by
  induction s with
  | nil => exact ⟨[], rfl, .nil⟩
  | cons c s ih =>
      cases hc : digit? c with
      | none => exact ⟨[], by simp [takeDigits, hc], by simp [takeDigits, hc]⟩
      | some d =>
          obtain ⟨t, hs, ht⟩ := ih
          refine ⟨c :: t, ?_, ?_⟩
          · rw [takeDigits, hc, List.cons_append, ← hs]
          · rw [takeDigits, hc]
            exact .cons hc ht

theorem takeSign_sound (s : Text) : ∃ t, s = t ++ (takeSign s).2 ∧ Sign t (takeSign s).1 := by
  cases s with
  | nil => exact ⟨[], rfl, .none⟩
  | cons c s =>
      by_cases hc : c = .scalar '-'
      · exact ⟨[.scalar '-'], by simp [takeSign, hc], by simpa [takeSign, hc] using .minus⟩
      · exact ⟨[], by simp [takeSign, hc], by simpa [takeSign, hc] using .none⟩

/-- The digit zero. -/
theorem eq_zero_of_digit {c : CodePoint} (h : digit? c = some 0) : c = .scalar '0' := by
  cases c with
  | surrogate u => cases h
  | scalar c =>
      simp only [digit?, Option.ite_none_right_eq_some, Bool.and_eq_true, decide_eq_true_eq,
        Option.some.injEq] at h
      obtain ⟨⟨hlo, -⟩, hsub⟩ := h
      have hle : '0'.toNat ≤ c.toNat := hlo
      exact congrArg CodePoint.scalar (Char.toNat_inj.mp (by omega))

theorem takeWhole_sound {s r : Text} {ds : List Nat} (h : takeWhole s = some (ds, r)) :
    ∃ t, s = t ++ r ∧ Whole t ds := by
  obtain ⟨t, hs, ht⟩ := takeDigits_sound s
  unfold takeWhole at h
  generalize takeDigits s = p at h hs ht
  split at h
  · cases h
  · cases h
    cases ht with
    | @cons c _ t _ hc _ =>
        obtain rfl := eq_zero_of_digit hc
        exact ⟨[.scalar '0'], by rw [hs]; rfl, .zero⟩
  · next hnil hzero =>
      cases h
      cases ht with
      | nil => exact (hnil rfl).elim
      | @cons c d t ds hc ht =>
          exact ⟨c :: t, hs, .digits (.cons hc ht) fun hd => hzero ds (by rw [hd])⟩

theorem takeFraction_sound {s r : Text} {fs : List Nat} (h : takeFraction s = some (fs, r)) :
    ∃ t, s = t ++ r ∧ Fraction t fs ∧ fs ≠ [] := by
  cases s with
  | nil => cases h
  | cons c s =>
      simp only [takeFraction, Option.ite_none_right_eq_some] at h
      obtain ⟨rfl, h⟩ := h
      obtain ⟨t, hs, ht⟩ := takeDigits_sound s
      generalize takeDigits s = p at h hs ht
      split at h
      · cases h
      · next hnil =>
          cases h
          cases ht with
          | nil => exact (hnil rfl).elim
          | cons hc ht => exact ⟨_, by rw [hs]; rfl, .digits (.cons hc ht), List.cons_ne_nil _ _⟩

/-- A sign before the digits of an exponent, and the text behind it. -/
def exponentSign (s : Text) : Bool × Text :=
  match s with
  | x :: r => if x = '-' then (true, r) else if x = '+' then (false, r) else (false, s)
  | [] => (false, s)

theorem exponentSign_sound (s : Text) :
    ∃ t, s = t ++ (exponentSign s).2 ∧ ExponentSign t (exponentSign s).1 := by
  cases s with
  | nil => exact ⟨[], rfl, .none⟩
  | cons c s =>
      rw [exponentSign]
      split
      · next hc => exact ⟨[.scalar '-'], by rw [hc]; rfl, .minus⟩
      · split
        · next hc => exact ⟨[.scalar '+'], by rw [hc]; rfl, .plus⟩
        · exact ⟨[], rfl, .none⟩

theorem takeExponent_cons (c : CodePoint) (s : Text) : takeExponent (c :: s) =
    if c = 'e' ∨ c = 'E' then
      match takeDigits (exponentSign s).2 with
      | ([], _) => none
      | (ds, r) => some (signed (exponentSign s).1 (digitsValue ds), r)
    else none := rfl

theorem takeExponent_sound {s r : Text} {e : Int} (h : takeExponent s = some (e, r)) :
    ∃ t, s = t ++ r ∧ Exponent t (some e) := by
  cases s with
  | nil => cases h
  | cons c s =>
      rw [takeExponent_cons, Option.ite_none_right_eq_some] at h
      obtain ⟨hc, h⟩ := h
      obtain ⟨x, hs, hx⟩ := exponentSign_sound s
      obtain ⟨t, hd, ht⟩ := takeDigits_sound (exponentSign s).2
      generalize takeDigits (exponentSign s).2 = p at h hd ht
      split at h
      · cases h
      · next hnil =>
          cases h
          cases ht with
          | nil => exact (hnil rfl).elim
          | cons hd' ht =>
              exact ⟨_, by rw [hs, hd]; simp, .digits hc hx (.cons hd' ht)⟩

/-- Behind the whole digits stand a fraction and an exponent or neither, and an integer is not too
long. -/
theorem finishNumber_sound {s r : Text} {negative : Bool} {ds : List Nat} {x : Number}
    (h : finishNumber negative ds s = .ok (x, r)) :
    ∃ f t fs e, s = f ++ (t ++ r) ∧ Fraction f fs ∧ Exponent t e ∧
      x = numberOf negative ds fs e ∧ (e = none → fs = [] → ds.length ≤ maxIntegerDigits) := by
  unfold finishNumber at h
  cases hf : takeFraction s with
  | none =>
      cases he : takeExponent s with
      | none =>
          rw [hf, he] at h
          dsimp only at h
          split at h
          · cases h
          · next hlen =>
              cases h
              exact ⟨[], [], [], none, rfl, .none, .none, rfl, fun _ _ => Nat.le_of_not_lt hlen⟩
      | some p =>
          rw [hf, he] at h
          cases h
          obtain ⟨t, hs, ht⟩ := takeExponent_sound he
          exact ⟨[], t, [], some p.1, hs, .none, ht, by simp [numberOf],
            fun hnone => (Option.some_ne_none _ hnone).elim⟩
  | some p =>
      rw [hf] at h
      obtain ⟨f, hs, hf', hne⟩ := takeFraction_sound hf
      cases he : takeExponent p.2 with
      | none =>
          simp only [he, Option.getD_none, Except.ok.injEq, Prod.mk.injEq] at h
          obtain ⟨rfl, rfl⟩ := h
          refine ⟨f, [], p.1, none, hs, hf', .none, ?_, fun _ hnil => absurd hnil hne⟩
          simp [numberOf, hne]
      | some q =>
          simp only [he, Option.getD_some, Except.ok.injEq, Prod.mk.injEq] at h
          obtain ⟨rfl, rfl⟩ := h
          obtain ⟨t, ht, ht'⟩ := takeExponent_sound he
          exact ⟨f, t, p.1, some q.1, by rw [hs, ht], hf', ht', rfl,
            fun hnone => (Option.some_ne_none _ hnone).elim⟩

/-- What is read as a number is one, and it is read again in front of every other end. -/
theorem readNumber_sound {s r : Text} {x : Number} (h : readNumber s = .ok (x, r)) :
    ∃ t, s = t ++ r ∧ NumberText t x ∧ ∀ r', Ends r' → readNumber (t ++ r') = .ok (x, r') := by
  obtain ⟨sign, hs, hsign⟩ := takeSign_sound s
  unfold readNumber at h
  split at h
  · cases h
  · next ds u hw =>
      obtain ⟨w, hu, hw⟩ := takeWhole_sound hw
      obtain ⟨f, t, fs, e, hr, hf, ht, rfl, hds⟩ := finishNumber_sound h
      refine ⟨sign ++ (w ++ (f ++ t)), ?_, .mk hsign hw hf ht, fun r' hr' => ?_⟩
      · rw [hs, hu, hr]
        simp only [List.append_assoc]
      · exact readNumber_parts hsign hw hf ht hds hr'

/-! ### Strings -/

theorem prepend_eq_ok {p : Piece} {x : Except JsonFault (List Piece × Text)} {ps : List Piece}
    {r : Text} (h : prepend p x = .ok (ps, r)) : ∃ ps', x = .ok (ps', r) ∧ ps = p :: ps' := by
  cases x with
  | error e => cases h
  | ok y =>
      cases h
      exact ⟨y.1, rfl, rfl⟩

/-- What is read as the inside of a string is one, and a quote stands behind it. -/
theorem readPieces_sound {s r : Text} {ps : List Piece} (h : readPieces s = .ok (ps, r)) :
    ∃ t, s = t ++ .scalar '"' :: r ∧ StringBody t ps := by
  fun_induction readPieces s generalizing ps with
  | case1 => cases h
  | case2 rest =>
      cases h
      exact ⟨[], rfl, .nil⟩
  | case3 => cases h
  | case4 c rest hq hc hb ih =>
      obtain ⟨ps, hps, rfl⟩ := prepend_eq_ok h
      obtain ⟨t, rfl, ht⟩ := ih hps
      exact ⟨c :: t, rfl, .plain hq hb (Nat.le_of_not_lt hc) ht⟩
  | case5 => cases h
  | case6 c _ _ hc e rest _ x hx ih =>
      obtain ⟨ps, hps, rfl⟩ := prepend_eq_ok h
      obtain ⟨t, rfl, ht⟩ := ih hps
      obtain rfl := Decidable.not_not.mp hc
      exact ⟨_ :: e :: t, rfl, .short hx ht⟩
  | case7 => cases h
  | case8 => cases h
  | case9 => cases h
  | case10 c _ _ hc e he h₁ h₂ h₃ h₄ rest _ n hn ih =>
      obtain ⟨ps, hps, rfl⟩ := prepend_eq_ok h
      obtain ⟨t, rfl, ht⟩ := ih hps
      obtain rfl := Decidable.not_not.mp hc
      obtain rfl := Decidable.not_not.mp he
      exact ⟨_ :: _ :: h₁ :: h₂ :: h₃ :: h₄ :: t, rfl, .unit hn ht⟩
  | case11 => cases h

/-- What is read as a string is read again in front of every text. -/
theorem readString_front {s r k : Text} (h : readString s = .ok (k, r)) :
    ∃ t, s = t ++ r ∧ ∀ r', readString (t ++ r') = .ok (k, r') := by
  obtain ⟨p, hp, heq⟩ := map_eq_ok_iff.mp h
  cases heq
  obtain ⟨t, rfl, ht⟩ := readPieces_sound hp
  refine ⟨t ++ [.scalar '"'], by simp, fun r' => ?_⟩
  rw [readString, List.append_assoc, List.singleton_append, readPieces_append ht]
  rfl

/-! ### Blanks -/

theorem exists_dropWhile {α : Type} (p : α → Bool) (s : List α) :
    ∃ b, (∀ c ∈ b, p c = true) ∧ s = b ++ s.dropWhile p :=
  ⟨s.takeWhile p, fun _ hc => List.mem_takeWhile_imp hc, (List.takeWhile_append_dropWhile).symm⟩

theorem exists_skipSpace (s : Text) : ∃ b, Blank b ∧ s = b ++ skipSpace s :=
  exists_dropWhile isSpace s

/-- A front of what stands behind the blanks does not begin with one. -/
theorem skipSpace_front {s t r : Text} (h : skipSpace s = t ++ r) (ht : t ≠ []) (r' : Text) :
    skipSpace (t ++ r') = t ++ r' := by
  cases t with
  | nil => exact absurd rfl ht
  | cons c t =>
      have hc : isSpace ((skipSpace s).head (by rw [h]; exact List.cons_ne_nil _ _)) = false :=
        List.head_dropWhile_not _ _
      simp only [h, List.cons_append, List.head_cons] at hc
      exact skipSpace_cons hc _

/-! ### Values -/

/-- The text is taken as `x` in front of every end of a value. -/
def Takes {α : Type} (read : Nat → Text → Except JsonFault (α × Text)) (t : Text) (x : α) : Prop :=
  ∀ m r, 2 * t.length ≤ m → Ends r → read m (t ++ r) = .ok (x, r)

/-- With `n` steps of the recursion, what the reader takes is a front of the text that has this
shape, and it is always taken so. -/
def Fronts {α : Type} (read : Nat → Text → Except JsonFault (α × Text)) (shape : α → Text → Prop)
    (n : Nat) : Prop :=
  ∀ s x r, read n s = .ok (x, r) → ∃ t, s = t ++ r ∧ t ≠ [] ∧ shape x t ∧ Takes read t x

/-- A text from an opening brace to a closing one. -/
def Braced (t : Text) : Prop := ∃ u, t = .scalar '\x7b' :: (u ++ [.scalar '\x7d'])

/-- An object stands in braces. -/
def InBraces (v : Json) (t : Text) : Prop := ∀ ms, v = .obj ms → Braced t

/-- The members of an object come up to its closing brace. -/
def ToBrace (_ : List (Text × Json)) (t : Text) : Prop := ∃ u, t = u ++ [.scalar '\x7d']

theorem fronts_readName {s r : Text} {v : Json} (h : readName? s = some (v, r)) (room : Nat) :
    ∃ t, s = t ++ r ∧ t ≠ [] ∧ InBraces v t ∧ Takes (readValue room) t v := by
  obtain ⟨⟨w, v'⟩, hw, hv⟩ := List.exists_of_findSome?_eq_some h
  obtain ⟨r', hr, heq⟩ := Option.map_eq_some_iff.mp hv
  cases heq
  refine ⟨Text.ofChars w, Json.after?_eq_some_iff.mp hr, ?_⟩
  simp only [names, List.mem_cons, Prod.mk.injEq, List.not_mem_nil, or_false] at hw
  rcases hw with ⟨rfl, rfl⟩ | ⟨rfl, rfl⟩ | ⟨rfl, rfl⟩ | ⟨rfl, rfl⟩ | ⟨rfl, rfl⟩ | ⟨rfl, rfl⟩
  all_goals
    refine ⟨List.cons_ne_nil _ _, (fun _ hobj => by cases hobj), fun m r hm _ => ?_⟩
    obtain ⟨m, rfl⟩ : ∃ k, m = k + 1 := ⟨m - 1, by simp [Text.ofChars] at hm; omega⟩
    rfl

variable {room n : Nat}

theorem head_of_append {s t r : Text} {c : CodePoint} (h : c :: s = t ++ r) (ht : t ≠ []) :
    ∃ u, t = c :: u := by
  cases t with
  | nil => exact absurd rfl ht
  | cons d t => exact ⟨t, by rw [(List.cons.inj h).1]⟩

/-- A container is taken if it is read from its first part on, whatever blanks stand before that. -/
theorem takes_container {o : CodePoint} {s t r : Text} {v : Json} (hs : skipSpace s = t ++ r)
    (ht : t ≠ []) (hread : ∀ m u r', 2 * t.length ≤ m → Ends r' → skipSpace u = t ++ r' →
      readValue room (m + 1) (o :: u) = .ok (v, r')) :
    ∃ b, o :: s = o :: (b ++ t) ++ r ∧ Takes (readValue room) (o :: (b ++ t)) v := by
  obtain ⟨b, hb, hsb⟩ := exists_skipSpace s
  refine ⟨b, by rw [List.cons_append, List.append_assoc, ← hs, ← hsb], fun m r' hm hr' => ?_⟩
  simp only [List.length_cons, List.length_append] at hm
  obtain ⟨m, rfl⟩ : ∃ k, m = k + 1 := ⟨m - 1, by omega⟩
  have hskip : skipSpace (b ++ t ++ r') = t ++ r' := by
    rw [List.append_assoc, skipSpace_blank_append hb, skipSpace_front hs ht]
  exact hread m _ r' (by omega) hr' hskip

theorem fronts_readArr (hitems : ∀ room, Fronts (readItems room) (fun _ _ => True) n)
    {s r : Text} {v : Json} (h : readValue room (n + 1) (.scalar '[' :: s) = .ok (v, r)) :
    ∃ t, .scalar '[' :: s = t ++ r ∧ t ≠ [] ∧ InBraces v t ∧ Takes (readValue room) t v := by
  simp only [readValue, CodePoint.scalar.injEq, Char.reduceEq, if_false, if_true] at h
  cases room with
  | zero => cases h
  | succ room =>
  dsimp only at h
  split at h
  · next d u hs =>
      split at h
      · next hd =>
          cases h
          obtain ⟨b, heq, ht⟩ := takes_container (t := [d]) hs (List.cons_ne_nil _ _)
            fun m u r' _ _ hu => readValue_emptyArr (hd ▸ hu)
          exact ⟨_, heq, List.cons_ne_nil _ _, (fun _ hobj => by cases hobj), ht⟩
      · next hd =>
          obtain ⟨⟨vs, r'⟩, hvs, heq⟩ := map_eq_ok_iff.mp h
          cases heq
          obtain ⟨t, heq, hne, -, ht⟩ := hitems room _ _ _ hvs
          obtain ⟨t', rfl⟩ := head_of_append heq hne
          obtain ⟨b, heq, ht⟩ := takes_container (hs.trans heq) hne fun m u r' hm hr' hu =>
            readValue_arr ⟨d, _, hu, hd⟩ (hu ▸ ht m r' hm hr')
          exact ⟨_, heq, List.cons_ne_nil _ _, (fun _ hobj => by cases hobj), ht⟩
  · cases h

theorem fronts_readObj (hmembers : ∀ room, Fronts (readMembers room) ToBrace n) {s r : Text}
    {v : Json} (h : readValue room (n + 1) (.scalar '\x7b' :: s) = .ok (v, r)) :
    ∃ t, .scalar '\x7b' :: s = t ++ r ∧ t ≠ [] ∧ InBraces v t ∧ Takes (readValue room) t v := by
  simp only [readValue, CodePoint.scalar.injEq, Char.reduceEq, if_false, if_true] at h
  cases room with
  | zero => cases h
  | succ room =>
  dsimp only at h
  split at h
  · next d u hs =>
      split at h
      · next hd =>
          cases h
          obtain ⟨b, heq, ht⟩ := takes_container (t := [d]) hs (List.cons_ne_nil _ _)
            fun m u r' _ _ hu => readValue_emptyObj (hd ▸ hu)
          exact ⟨_, heq, List.cons_ne_nil _ _, fun _ _ => ⟨b, by rw [hd]⟩, ht⟩
      · next hd =>
          obtain ⟨⟨ms, r'⟩, hms, heq⟩ := map_eq_ok_iff.mp h
          cases heq
          obtain ⟨t, heq, hne, ⟨w, hw⟩, ht⟩ := hmembers room _ _ _ hms
          obtain ⟨t', rfl⟩ := head_of_append heq hne
          obtain ⟨b, heq, ht⟩ := takes_container (hs.trans heq) hne fun m u r' hm hr' hu =>
            readValue_members ⟨d, _, hu, hd⟩ (hu ▸ ht m r' hm hr')
          refine ⟨_, heq, List.cons_ne_nil _ _, fun _ _ => ⟨b ++ w, ?_⟩, ht⟩
          rw [hw, List.append_assoc]
  · cases h

theorem fronts_readValue (hitems : ∀ room, Fronts (readItems room) (fun _ _ => True) n)
    (hmembers : ∀ room, Fronts (readMembers room) ToBrace n) :
    Fronts (readValue room) InBraces (n + 1) := by
  intro s v r h
  cases s with
  | nil => cases h
  | cons c s =>
      by_cases ha : c = .scalar '['
      · exact ha ▸ fronts_readArr hitems (ha ▸ h)
      by_cases ho : c = .scalar '\x7b'
      · exact ho ▸ fronts_readObj hmembers (ho ▸ h)
      simp only [readValue, ha, ho, if_false] at h
      split at h
      · next hc =>
          obtain ⟨⟨k, r'⟩, hk, heq⟩ := map_eq_ok_iff.mp h
          cases heq
          obtain ⟨t, rfl, ht⟩ := readString_front hk
          refine ⟨c :: t, rfl, List.cons_ne_nil _ _, (fun _ hobj => by cases hobj),
            fun m r' hm _ => ?_⟩
          obtain ⟨m, rfl⟩ : ∃ k, m = k + 1 := ⟨m - 1, by simp at hm; omega⟩
          simp [readValue, hc, ht r', Except.map]
      · split at h
        · next p hp =>
            cases h
            exact fronts_readName hp room
        · obtain ⟨⟨x, r'⟩, hx, heq⟩ := map_eq_ok_iff.mp h
          cases heq
          obtain ⟨t, hs, ht, hread⟩ := readNumber_sound hx
          obtain ⟨d, u, -, hfirst, -⟩ := ht.first
          have hne : t ≠ [] := by rcases hfirst with rfl | rfl <;> exact List.cons_ne_nil _ _
          refine ⟨t, hs, hne, (fun _ hobj => by cases hobj), fun m r' hm hr' => ?_⟩
          have hpos := List.length_pos_iff.mpr hne
          obtain ⟨m, rfl⟩ : ∃ k, m = k + 1 := ⟨m - 1, by omega⟩
          exact readValue_of_readNumber ht (hread r' hr') room m

section Parts

variable {α : Type} {read : Nat → Text → Except JsonFault (List α × Text)} {xs ys : List α}
  {P : Nat → Text → Text → Prop} {p r r₁ r₂ : Text}

/-- The last part of a container is taken with the bracket behind it. -/
theorem takes_last {c : CodePoint} (hp : ∀ m r', 2 * p.length ≤ m → Ends r' → P m (p ++ r') r')
    (hs : skipSpace r₁ = c :: r) (hc : ∀ u, Ends (c :: u))
    (hread : ∀ m s r' rest, P m s r' → skipSpace r' = c :: rest →
      read (m + 1) s = .ok (xs, rest)) :
    ∃ b, p ++ r₁ = p ++ (b ++ [c]) ++ r ∧ Takes read (p ++ (b ++ [c])) xs := by
  obtain ⟨b, hb, hr₁⟩ := exists_skipSpace r₁
  refine ⟨b, by rw [hr₁, hs]; simp, fun m r' hm hr' => ?_⟩
  simp only [List.length_append, List.length_singleton] at hm
  obtain ⟨m, rfl⟩ : ∃ k, m = k + 1 := ⟨m - 1, by omega⟩
  have hskip : skipSpace (b ++ c :: r') = c :: r' := by
    rw [skipSpace_blank_append hb]
    exact skipSpace_front (t := [c]) hs (List.cons_ne_nil _ _) r'
  have hpart := hp m (b ++ c :: r') (by omega) (ends_blank_append hb (hc r'))
  simpa using hread m _ _ r' hpart hskip

/-- A part of a container is taken with the comma and the parts behind it. -/
theorem takes_next {t : Text} (hp : ∀ m r', 2 * p.length ≤ m → Ends r' → P m (p ++ r') r')
    (hs : skipSpace r₁ = .scalar ',' :: r₂) (hr₂ : skipSpace r₂ = t ++ r) (hne : t ≠ [])
    (ht : Takes read t ys)
    (hread : ∀ m s r' r'' rest, P m s r' → skipSpace r' = .scalar ',' :: r'' →
      read m (skipSpace r'') = .ok (ys, rest) → read (m + 1) s = .ok (xs, rest)) :
    ∃ u, u ≠ [] ∧ p ++ r₁ = u ++ t ++ r ∧ Takes read (u ++ t) xs := by
  obtain ⟨b, hb, hr₁⟩ := exists_skipSpace r₁
  obtain ⟨b', hb', hr₂'⟩ := exists_skipSpace r₂
  refine ⟨p ++ (b ++ .scalar ',' :: b'), by simp, ?_, fun m r' hm hr' => ?_⟩
  · rw [hr₁, hs, hr₂', hr₂]
    simp
  · simp only [List.length_append, List.length_cons] at hm
    obtain ⟨m, rfl⟩ : ∃ k, m = k + 1 := ⟨m - 1, by omega⟩
    have hskip : skipSpace (b ++ .scalar ',' :: (b' ++ (t ++ r'))) =
        .scalar ',' :: (b' ++ (t ++ r')) := skipSpace_blank_append hb _
    have hnext : skipSpace (b' ++ (t ++ r')) = t ++ r' := by
      rw [skipSpace_blank_append hb', skipSpace_front hr₂ hne]
    have hpart := hp m _ (by omega) (ends_blank_append hb (ends_comma (b' ++ (t ++ r'))))
    have hrest : read m (skipSpace (b' ++ (t ++ r'))) = .ok (ys, r') := by
      rw [hnext]
      exact ht m r' (by omega) hr'
    simpa using hread m _ _ _ r' hpart hskip hrest

end Parts

/-- What the reader of items does: behind an item it comes to the bracket, or over a comma to more.
-/
theorem readItems_cases {s r : Text} {vs : List Json}
    (h : readItems room (n + 1) s = .ok (vs, r)) :
    ∃ v r₁, readValue room n s = .ok (v, r₁) ∧ (skipSpace r₁ = .scalar ']' :: r ∧ vs = [v] ∨
      ∃ r₂ vs', skipSpace r₁ = .scalar ',' :: r₂ ∧
        readItems room n (skipSpace r₂) = .ok (vs', r) ∧ vs = v :: vs') := by
  obtain ⟨⟨v, r₁⟩, hv, h'⟩ := bind_eq_ok_iff.mp h
  refine ⟨v, r₁, hv, ?_⟩
  dsimp only at h'
  split at h'
  · next c r₂ hs =>
      split at h'
      · next hc =>
          cases h'
          exact .inl ⟨hc ▸ hs, rfl⟩
      · split at h'
        · next hc =>
            obtain ⟨⟨vs', r₃⟩, hvs, heq⟩ := bind_eq_ok_iff.mp h'
            cases heq
            exact .inr ⟨r₂, vs', hc ▸ hs, hvs, rfl⟩
        · cases h'
  · cases h'

theorem fronts_readItems (hvalue : Fronts (readValue room) InBraces n)
    (hitems : Fronts (readItems room) (fun _ _ => True) n) :
    Fronts (readItems room) (fun _ _ => True) (n + 1) := by
  intro s vs r h
  obtain ⟨v, r₁, hv, ⟨hs, rfl⟩ | ⟨r₂, vs', hs, hvs, rfl⟩⟩ := readItems_cases h
  all_goals obtain ⟨t, rfl, -, -, ht⟩ := hvalue _ _ _ hv
  · obtain ⟨b, heq, htake⟩ := takes_last (P := fun n s r => readValue room n s = .ok (v, r)) ht
      hs ends_bracket fun _ _ _ _ => readItems_last
    exact ⟨_, heq, by simp, trivial, htake⟩
  · obtain ⟨t', hr₂, hne, -, ht'⟩ := hitems _ _ _ hvs
    obtain ⟨u, hu, heq, htake⟩ := takes_next (P := fun n s r => readValue room n s = .ok (v, r))
      ht hs hr₂ hne ht' fun _ _ _ _ _ => readItems_next
    exact ⟨_, heq, by simp [hu], trivial, htake⟩

/-- A name, a colon and a value are read again in front of every end. -/
theorem readsMember_front (hvalue : Fronts (readValue room) InBraces n) {s u r₁ r₂ r₃ : Text}
    {m : Text × Json} (hm : ReadsMember room n s m u r₁ r₂ r₃) :
    ∃ p, s = p ++ r₃ ∧ ∀ k r', 2 * p.length ≤ k → Ends r' →
      ∃ u r₁ r₂, ReadsMember room k (p ++ r') m u r₁ r₂ r' := by
  obtain ⟨rfl, hk, hs, hv⟩ := hm
  obtain ⟨q, rfl, hq⟩ := readString_front hk
  obtain ⟨b, hb, hr₁⟩ := exists_skipSpace r₁
  obtain ⟨b', hb', hr₂⟩ := exists_skipSpace r₂
  obtain ⟨t, ht, hne, -, htake⟩ := hvalue _ _ _ hv
  refine ⟨.scalar '"' :: (q ++ (b ++ .scalar ':' :: (b' ++ t))), ?_, fun k r' hlen hr' => ?_⟩
  · rw [hr₁, hs, hr₂, ht]
    simp
  · simp only [List.length_append, List.length_cons] at hlen
    have hnext : skipSpace (b' ++ (t ++ r')) = t ++ r' := by
      rw [skipSpace_blank_append hb', skipSpace_front ht hne]
    refine ⟨q ++ (b ++ .scalar ':' :: (b' ++ (t ++ r'))), _, b' ++ (t ++ r'), by simp, hq _,
      skipSpace_blank_append hb _, ?_⟩
    rw [hnext]
    exact htake k r' (by omega) hr'

/-- What the reader of members does: behind a name, a colon and a value it comes to the brace, or
over a comma to more. -/
theorem readMembers_cases {s r : Text} {ms : List (Text × Json)}
    (h : readMembers room (n + 1) s = .ok (ms, r)) :
    ∃ k v u r₁ r₂ r₃, ReadsMember room n s (k, v) u r₁ r₂ r₃ ∧
      (skipSpace r₃ = .scalar '\x7d' :: r ∧ ms = [(k, v)] ∨
        ∃ r₄ ms', skipSpace r₃ = .scalar ',' :: r₄ ∧
          readMembers room n (skipSpace r₄) = .ok (ms', r) ∧ ms = (k, v) :: ms') := by
  cases s with
  | nil => cases h
  | cons q s =>
      rw [readMembers] at h
      split at h
      · cases h
      · next hq =>
          obtain ⟨⟨k, r₁⟩, hk, h'⟩ := bind_eq_ok_iff.mp h
          dsimp only at h'
          split at h'
          · next c r₂ hs =>
              split at h'
              · cases h'
              · next hc =>
                  obtain rfl := Decidable.not_not.mp hq
                  obtain rfl := Decidable.not_not.mp hc
                  obtain ⟨⟨v, r₃⟩, hv, h''⟩ := bind_eq_ok_iff.mp h'
                  refine ⟨k, v, s, r₁, r₂, r₃, ⟨rfl, hk, hs, hv⟩, ?_⟩
                  dsimp only at h''
                  split at h''
                  · next d r₄ hs' =>
                      split at h''
                      · next hd =>
                          cases h''
                          exact .inl ⟨hd ▸ hs', rfl⟩
                      · split at h''
                        · next hd =>
                            obtain ⟨⟨ms', r₅⟩, hms, heq⟩ := bind_eq_ok_iff.mp h''
                            cases heq
                            exact .inr ⟨r₄, ms', hd ▸ hs', hms, rfl⟩
                        · cases h''
                  · cases h''
          · cases h'

theorem fronts_readMembers (hvalue : Fronts (readValue room) InBraces n)
    (hmembers : Fronts (readMembers room) ToBrace n) :
    Fronts (readMembers room) ToBrace (n + 1) := by
  intro s ms r h
  obtain ⟨k, v, u, r₁, r₂, r₃, hm, ⟨hs, rfl⟩ | ⟨r₄, ms', hs, hms, rfl⟩⟩ := readMembers_cases h
  all_goals obtain ⟨p, rfl, hpart⟩ := readsMember_front hvalue hm
  · obtain ⟨b, heq, htake⟩ := takes_last
      (P := fun n s r => ∃ u r₁ r₂, ReadsMember room n s (k, v) u r₁ r₂ r) hpart hs ends_brace
      fun _ _ _ _ ⟨_, _, _, hm⟩ hr => readMembers_last hm hr
    exact ⟨_, heq, by simp, ⟨p ++ b, by simp⟩, htake⟩
  · obtain ⟨t, hr₄, hne, ⟨w, hw⟩, ht⟩ := hmembers _ _ _ hms
    obtain ⟨x, hx, heq, htake⟩ := takes_next
      (P := fun n s r => ∃ u r₁ r₂, ReadsMember room n s (k, v) u r₁ r₂ r) hpart hs hr₄ hne ht
      fun _ _ _ _ _ ⟨_, _, _, hm⟩ => readMembers_next hm
    exact ⟨_, heq, by simp [hx], ⟨x ++ w, by simp [hw]⟩, htake⟩

/-- The three readers take fronts, by induction on the number of steps: the room is another one
inside a container. -/
theorem fronts (n room : Nat) : Fronts (readValue room) InBraces n ∧
    Fronts (readItems room) (fun _ _ => True) n ∧ Fronts (readMembers room) ToBrace n := by
  induction n generalizing room with
  | zero =>
      refine ⟨?_, ?_, ?_⟩ <;> exact fun _ _ _ h => by cases h
  | succ n ih =>
      obtain ⟨hvalue, hitems, hmembers⟩ := ih room
      exact ⟨fronts_readValue (fun less => (ih less).2.1) fun less => (ih less).2.2,
        fronts_readItems hvalue hitems, fronts_readMembers hvalue hmembers⟩

/-- What is read as a value is a front of the text, and is read as this value wherever one ends. -/
theorem readValue_front {s r : Text} {v : Json} (h : readValue room n s = .ok (v, r)) :
    ∃ t, s = t ++ r ∧ t ≠ [] ∧ InBraces v t ∧ Takes (readValue room) t v :=
  (fronts n room).1 s v r h

theorem read_eq_ok {s : Text} {v : Json} (h : read room s = .ok v) :
    ∃ r, readValue room (2 * s.length + 2) (skipSpace s) = .ok (v, r) ∧ skipSpace r = [] := by
  unfold read at h
  split at h
  · cases h
  · obtain ⟨⟨v', r⟩, hv, h'⟩ := bind_eq_ok_iff.mp h
    dsimp only at h'
    split at h'
    · next hr =>
        cases h'
        exact ⟨r, hv, hr⟩
    · cases h'

/-- A text that is read as an object is a text in braces between blanks, and this one is read as the
same object. -/
theorem exists_core_of_read {s : Text} {ms : List (Text × Json)}
    (h : read room s = .ok (.obj ms)) :
    ∃ a t b, Blank a ∧ Blank b ∧ s = a ++ (t ++ b) ∧
      Braced t ∧ read room t = .ok (.obj ms) := by
  obtain ⟨r, hv, hr⟩ := read_eq_ok h
  obtain ⟨a, ha, hs⟩ := exists_skipSpace s
  obtain ⟨b, hb, hrb⟩ := exists_skipSpace r
  obtain ⟨t, ht, -, hbraces, htake⟩ := readValue_front hv
  obtain ⟨u, rfl⟩ := hbraces ms rfl
  refine ⟨a, _, b, ha, hb, by rw [hs, ht, hrb, hr, List.append_nil], ⟨u, rfl⟩, ?_⟩
  have hread := htake _ [] (Nat.le_add_right _ 2) ends_nil
  rw [List.append_nil] at hread
  unfold read
  split
  · next hmark => cases hmark
  · rw [skipSpace_cons (by decide), hread]
    rfl

end Json
end RouteScribe
