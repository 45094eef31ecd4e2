import RouteScribe.Proofs.Json.Front

/-! # Where a text asks too much of the reader

Two refusals do not speak of the grammar: a whole number has more digits than can be read, and a
bracket opens a container for which there is no room.  Such a refusal happens exactly where the
number or the bracket stands at a place at which a value may begin, behind a text without a fault
(`read_eq_excess_iff`).  `Awaits` describes these places and the room that is left there; its rules
follow the recursion of the reader, so that both directions are an induction over them. -/

namespace RouteScribe
namespace Json

/-! ### Numbers -/

/-- A whole number of `k` digits, which are too many to be read. -/
inductive LongInteger : Text → Nat → Prop where
  | mk {s w : Text} {negative : Bool} {ds : List Nat} (hs : Sign s negative) (hw : Whole w ds)
      (hlong : maxIntegerDigits < ds.length) : LongInteger (s ++ w) ds.length

/-- The text does not go on with a digit, a fraction or an exponent. -/
structure Stops (rest : Text) : Prop where
  noDigit : NoDigit rest
  noFraction : ∀ f u d ds, Fraction f (d :: ds) → rest ≠ f ++ u
  noExponent : ∀ x u e, Exponent x (some e) → rest ≠ x ++ u

theorem noDigit_takeDigits (s : Text) : NoDigit (takeDigits s).2 := by
  induction s with
  | nil => simp [takeDigits, NoDigit]
  | cons c s ih =>
      unfold takeDigits
      cases hc : digit? c with
      | none =>
          rintro x ⟨⟩
          exact hc
      | some d => exact ih

theorem takeDigits_cons {t u : Text} {d : Nat} {ds : List Nat} (h : Digits t (d :: ds)) :
    ∃ fs r, takeDigits (t ++ u) = (d :: fs, r) := by
  cases h with
  | cons hc _ =>
      rw [List.cons_append]
      unfold takeDigits
      rw [hc]
      exact ⟨_, _, rfl⟩

theorem takeFraction_eq_none_iff {s : Text} :
    takeFraction s = none ↔ ∀ f u d ds, Fraction f (d :: ds) → s ≠ f ++ u := by
  constructor
  · rintro h f u d ds hf rfl
    cases hf with
    | digits hd =>
        obtain ⟨fs, r, htake⟩ := takeDigits_cons (u := u) hd
        simp [takeFraction, htake] at h
  · intro h
    cases hs : takeFraction s with
    | none => rfl
    | some p =>
        obtain ⟨f, heq, hf, hne⟩ := takeFraction_sound hs
        obtain ⟨d, ds, hp⟩ := List.exists_cons_of_ne_nil hne
        rw [hp] at hf
        exact absurd heq (h f p.2 d ds hf)

theorem takeExponent_eq_none_iff {s : Text} :
    takeExponent s = none ↔ ∀ x u e, Exponent x (some e) → s ≠ x ++ u := by
  constructor
  · rintro h x u e hx rfl
    cases hx with
    | @digits e sign t negative d ds he hsign hd =>
        obtain ⟨fs, r, htake⟩ := takeDigits_cons (u := u) hd
        have hrest : (exponentSign (sign ++ (t ++ u))).2 = t ++ u := by
          cases hsign with
          | plus | minus => rfl
          | none =>
              cases hd with
              | cons hc _ =>
                  have hm := ne_of_digit hc (x := .scalar '-') rfl
                  have hp := ne_of_digit hc (x := .scalar '+') rfl
                  simp [exponentSign, hm, hp]
        rw [List.cons_append, takeExponent_cons, if_pos he, List.append_assoc, hrest, htake] at h
        cases h
  · intro h
    cases hs : takeExponent s with
    | none => rfl
    | some p =>
        obtain ⟨x, heq, hx⟩ := takeExponent_sound hs
        exact absurd heq (h x p.2 p.1 hx)

theorem Ends.stops {rest : Text} (h : Ends rest) : Stops rest := by
  have hfraction := takeFraction_append .none h.noDigit (Exponent.none.head_ne_point h)
  have hexponent := takeExponent_append .none h
  exact ⟨h.noDigit, takeFraction_eq_none_iff.mp hfraction, takeExponent_eq_none_iff.mp hexponent⟩

theorem finishNumber_eq_longInteger_iff {negative : Bool} {ds : List Nat} {r : Text} {k : Nat} :
    finishNumber negative ds r = .error (.longInteger k) ↔
      takeFraction r = none ∧ takeExponent r = none ∧ maxIntegerDigits < ds.length ∧
        ds.length = k := by
  unfold finishNumber
  cases takeFraction r with
  | some p => simp
  | none =>
      cases takeExponent r with
      | some p => simp
      | none => by_cases hlong : maxIntegerDigits < ds.length <;> simp [hlong]

/-- The reader of numbers finds an integer too long exactly if one stands here. -/
theorem readNumber_eq_longInteger_iff {s : Text} {k : Nat} :
    readNumber s = .error (.longInteger k) ↔
      ∃ num rest, s = num ++ rest ∧ LongInteger num k ∧ Stops rest := by
  constructor
  · intro h
    unfold readNumber at h
    split at h
    · cases h
    · next ds r hw =>
        obtain ⟨hf, he, hlong, rfl⟩ := finishNumber_eq_longInteger_iff.mp h
        obtain ⟨sign, hs, hsign⟩ := takeSign_sound s
        obtain ⟨w, hr, hwhole⟩ := takeWhole_sound hw
        have hdigit : NoDigit r := by
          unfold takeWhole at hw
          have hstop := noDigit_takeDigits (takeSign s).2
          generalize takeDigits (takeSign s).2 = p at hw hstop
          split at hw
          · cases hw
          · cases hw
            exact absurd hlong (by decide)
          · cases hw
            exact hstop
        refine ⟨sign ++ w, r, ?_, .mk hsign hwhole hlong, hdigit,
          takeFraction_eq_none_iff.mp hf, takeExponent_eq_none_iff.mp he⟩
        rw [List.append_assoc, ← hr, ← hs]
  · rintro ⟨num, rest, rfl, hnum, hstops⟩
    cases hnum with
    | mk hs hw hlong =>
        rw [List.append_assoc, readNumber_whole hs hw hstops.noDigit]
        exact finishNumber_eq_longInteger_iff.mpr ⟨takeFraction_eq_none_iff.mpr hstops.noFraction,
          takeExponent_eq_none_iff.mpr hstops.noExponent, hlong, rfl⟩

theorem exists_longInteger_of_readNumber {s : Text} {e : JsonFault}
    (h : readNumber s = .error e) (he : e.isSyntax = false) : ∃ k, e = .longInteger k := by
  unfold readNumber finishNumber at h
  split at h
  · cases h
    cases he
  · split at h
    · split at h
      · cases h
        exact ⟨_, rfl⟩
      · cases h
    · cases h
    · cases h

/-! ### Strings and values -/

theorem prepend_eq_error {p : Piece} {x : Except JsonFault (List Piece × Text)} {e : JsonFault}
    (h : prepend p x = .error e) : x = .error e := by
  cases x with
  | ok y => cases h
  | error f => exact h

/-- A string is refused for its grammar only. -/
theorem isSyntax_readPieces {s : Text} {e : JsonFault} (h : readPieces s = .error e) :
    e.isSyntax = true := by
  fun_induction readPieces s with
  | case1 | case3 | case5 | case7 | case8 | case9 | case11 =>
      cases h
      rfl
  | case2 => cases h
  | case4 _ _ _ _ _ ih => exact ih (prepend_eq_error h)
  | case6 _ _ _ _ _ _ _ _ _ ih => exact ih (prepend_eq_error h)
  | case10 _ _ _ _ _ _ _ _ _ _ _ _ _ _ ih => exact ih (prepend_eq_error h)

theorem isSyntax_readString {s : Text} {e : JsonFault} (h : readString s = .error e) :
    e.isSyntax = true := isSyntax_readPieces (map_eq_error_iff.mp h)

/-! ### Values between blanks -/

theorem Blank.append {a b : Text} (ha : Blank a) (hb : Blank b) : Blank (a ++ b) := by
  intro c hc
  rcases List.mem_append.mp hc with hc | hc
  · exact ha c hc
  · exact hb c hc

variable {room left n k : Nat} {s r u : Text} {v : Json} {e : JsonFault}

/-- No value begins with a blank or with a mark of a byte order. -/
theorem readValue_head {c : CodePoint} (h : readValue room n (c :: s) = .ok (v, r)) :
    isSpace c = false ∧ c ≠ '\uFEFF' := by
  have hne (x : CodePoint) (hx : x = ' ' ∨ x = '\t' ∨ x = '\n' ∨ x = '\r' ∨ x = '\uFEFF') :
      c ≠ x := by
    rintro rfl
    cases n with
    | zero => cases h
    | succ n => rcases hx with rfl | rfl | rfl | rfl | rfl <;> cases h
  refine ⟨?_, hne _ (by simp)⟩
  simp only [isSpace, Bool.or_eq_false_iff, beq_eq_false_iff_ne, and_assoc]
  exact ⟨hne _ (by simp), hne _ (by simp), hne _ (by simp), hne _ (by simp)⟩

/-- A text that is read as a value is a value between blanks. -/
theorem exists_takes_of_read (h : read room s = .ok v) :
    ∃ a t b, s = a ++ (t ++ b) ∧ Blank a ∧ Blank b ∧ t ≠ [] ∧ Takes (readValue room) t v := by
  obtain ⟨r, hv, hr⟩ := read_eq_ok h
  obtain ⟨a, ha, hs⟩ := exists_skipSpace s
  obtain ⟨b, hb, hrb⟩ := exists_skipSpace r
  obtain ⟨t, ht, hne, -, htake⟩ := readValue_front hv
  rw [hr, List.append_nil] at hrb
  exact ⟨a, t, b, by rw [← hrb, ← ht, ← hs], ha, hb, hne, htake⟩

/-- What is taken as a value is found behind blanks. -/
theorem skipSpace_takes {a t : Text} (ha : Blank a) (hne : t ≠ [])
    (h : Takes (readValue room) t v) (r : Text) : skipSpace (a ++ (t ++ r)) = t ++ r := by
  rw [skipSpace_blank_append ha]
  cases t with
  | nil => exact absurd rfl hne
  | cons c t => exact skipSpace_cons (readValue_head (h _ [] le_rfl ends_nil)).1 _

theorem read_of_takes {a t b : Text} (ha : Blank a) (hb : Blank b) (hne : t ≠ [])
    (h : Takes (readValue room) t v) : read room (a ++ (t ++ b)) = .ok v := by
  have hskip := skipSpace_takes ha hne h b
  have hends : Ends b := by simpa using ends_blank_append hb ends_nil
  have hread := h (2 * (a ++ (t ++ b)).length + 2) b (by simp only [List.length_append]; omega) hends
  have hblank : skipSpace b = [] := List.dropWhile_eq_nil_iff.mpr hb
  unfold read
  split
  · next hmark =>
      -- neither a blank nor the beginning of a value is such a mark
      cases a with
      | cons c a =>
          have hc := ha c List.mem_cons_self
          rw [(List.cons.inj hmark).1] at hc
          cases hc
      | nil =>
          cases t with
          | nil => exact absurd rfl hne
          | cons c t =>
              have hc := (readValue_head (h _ [] le_rfl ends_nil)).2
              exact absurd (List.cons.inj hmark).1 hc
  · rw [hskip]
    refine bind_eq_ok_iff.mpr ⟨(v, b), hread, ?_⟩
    simp only [hblank]

/-- A value that is read up to the blanks before a code point is read by itself. -/
theorem exists_read_of_readValue {c : CodePoint} (h : readValue room n s = .ok (v, r))
    (hr : skipSpace r = c :: u) : ∃ t, s = t ++ c :: u ∧ read room t = .ok v := by
  obtain ⟨t, rfl, hne, -, htake⟩ := readValue_front h
  obtain ⟨b, hb, hrb⟩ := exists_skipSpace r
  refine ⟨t ++ b, by rw [List.append_assoc, ← hr, ← hrb], ?_⟩
  have hblank : Blank [] := by simp [Blank]
  exact read_of_takes hblank hb hne htake

/-- A text that is read as a value is read so in front of what ends a value. -/
theorem readValue_of_read {t : Text} (h : read room t = .ok v) (hn : 2 * t.length ≤ n)
    (hu : Ends u) :
    ∃ r, readValue room n (skipSpace (t ++ u)) = .ok (v, r) ∧ skipSpace r = skipSpace u := by
  obtain ⟨a, w, b, rfl, ha, hb, hne, htake⟩ := exists_takes_of_read h
  simp only [List.length_append] at hn
  have hread := htake n (b ++ u) (by omega) (ends_blank_append hb hu)
  refine ⟨b ++ u, ?_, skipSpace_blank_append hb u⟩
  rw [List.append_assoc, List.append_assoc, skipSpace_takes ha hne htake, hread]

/-! ### Places where a value may begin -/

/-- The name of a member, between blanks. -/
inductive MemberName : Text → Prop where
  | mk {a q b k : Text} (ha : Blank a) (hq : StringText q k) (hb : Blank b) :
      MemberName (a ++ (q ++ b))

mutual

/-- Behind this front of a text a value may begin.  The numbers are the room in front of it and the
room that is left behind it. -/
inductive Awaits : Nat → Nat → Text → Prop where
  | here {room : Nat} {b : Text} (hb : Blank b) : Awaits room room b
  | arr {room left : Nat} {b a : Text} (hb : Blank b) (h : AwaitsItem room left a) :
      Awaits (room + 1) left (b ++ .scalar '[' :: a)
  | obj {room left : Nat} {b a : Text} (hb : Blank b) (h : AwaitsMember room left a) :
      Awaits (room + 1) left (b ++ .scalar '\x7b' :: a)

/-- The same behind the opening bracket of an array, or behind a comma in it. -/
inductive AwaitsItem : Nat → Nat → Text → Prop where
  | here {room left : Nat} {a : Text} (h : Awaits room left a) : AwaitsItem room left a
  | next {room left : Nat} {t a : Text} {v : Json} (ht : read room t = .ok v)
      (h : AwaitsItem room left a) : AwaitsItem room left (t ++ .scalar ',' :: a)

/-- The same behind the opening brace of an object, or behind a comma in it. -/
inductive AwaitsMember : Nat → Nat → Text → Prop where
  | here {room left : Nat} {q a : Text} (hq : MemberName q) (h : Awaits room left a) :
      AwaitsMember room left (q ++ .scalar ':' :: a)
  | next {room left : Nat} {q t a : Text} {v : Json} (hq : MemberName q)
      (ht : read room t = .ok v) (h : AwaitsMember room left a) :
      AwaitsMember room left (q ++ .scalar ':' :: (t ++ .scalar ',' :: a))

end

section Blanks

variable {b a : Text} (hb : Blank b)
include hb

theorem read_blank_append {t : Text} {v : Json} (h : read room t = .ok v) :
    read room (b ++ t) = .ok v := by
  obtain ⟨a, t, c, rfl, ha, hc, hne, htake⟩ := exists_takes_of_read h
  rw [← List.append_assoc]
  exact read_of_takes (hb.append ha) hc hne htake

theorem MemberName.blank (h : MemberName a) : MemberName (b ++ a) := by
  cases h with
  | mk ha hq hb' =>
      rw [← List.append_assoc]
      exact .mk (hb.append ha) hq hb'

theorem Awaits.blank (h : Awaits room left a) : Awaits room left (b ++ a) := by
  cases h with
  | here ha => exact .here (hb.append ha)
  | arr ha h =>
      rw [← List.append_assoc]
      exact .arr (hb.append ha) h
  | obj ha h =>
      rw [← List.append_assoc]
      exact .obj (hb.append ha) h

theorem AwaitsItem.blank (h : AwaitsItem room left a) : AwaitsItem room left (b ++ a) := by
  cases h with
  | here h => exact .here (h.blank hb)
  | next ht h =>
      rw [← List.append_assoc]
      exact .next (read_blank_append hb ht) h

theorem AwaitsMember.blank (h : AwaitsMember room left a) : AwaitsMember room left (b ++ a) := by
  cases h with
  | here hq h =>
      rw [← List.append_assoc]
      exact .here (hq.blank hb) h
  | next hq ht h =>
      rw [← List.append_assoc]
      exact .next (hq.blank hb) ht h

end Blanks

/-! ### What stands at such a place -/

/-- With so much room, what begins here is refused with this fault: it is an integer of too many
digits, or a container for which no room is left. -/
inductive Exceeds : Nat → Text → JsonFault → Prop where
  | longInteger {room k : Nat} {num rest : Text} (hnum : LongInteger num k) (hrest : Stops rest) :
      Exceeds room (num ++ rest) (.longInteger k)
  | array {rest : Text} : Exceeds 0 (.scalar '[' :: rest) (.tooDeep .array)
  | object {rest : Text} : Exceeds 0 (.scalar '\x7b' :: rest) (.tooDeep .object)

/-- Behind a front with this property, with the room that it leaves, stands what is refused with
this fault. -/
def HasExcess (front : Nat → Text → Prop) (s : Text) (e : JsonFault) : Prop :=
  ∃ left a u, s = a ++ u ∧ front left a ∧ Exceeds left u e

theorem HasExcess.behind {p q : Nat → Text → Prop} (h : HasExcess p s e) (f : Text)
    (hf : ∀ left a, p left a → q left (f ++ a)) : HasExcess q (f ++ s) e := by
  obtain ⟨left, a, u, rfl, ha, hu⟩ := h
  exact ⟨left, f ++ a, u, by rw [List.append_assoc], hf left a ha, hu⟩

theorem LongInteger.exists_numberText {num : Text} (h : LongInteger num k) :
    ∃ x, NumberText num x := by
  cases h with
  | mk hs hw => exact ⟨_, by simpa using NumberText.mk hs hw .none .none⟩

theorem Exceeds.starts (h : Exceeds left u e) : ∃ c t, StartsWith u c t := by
  cases h with
  | longInteger hnum =>
      obtain ⟨x, hx⟩ := hnum.exists_numberText
      obtain ⟨c, t, hc⟩ := (Denotes.num hx).starts
      exact ⟨c, _, by rw [hc.eq]; rfl, hc.noSpace, hc.noBracket, hc.noMark⟩
  | array | object => exact ⟨_, _, rfl, rfl, by decide, by decide⟩

theorem Exceeds.not_isSyntax (h : Exceeds left u e) : e.isSyntax = false := by
  cases h <;> rfl

theorem HasExcess.not_isSyntax {front : Nat → Text → Prop} (h : HasExcess front s e) :
    e.isSyntax = false := by
  obtain ⟨_, _, _, -, -, hu⟩ := h
  exact hu.not_isSyntax

theorem Exceeds.skipSpace (h : Exceeds left u e) : Json.skipSpace u = u := by
  obtain ⟨c, t, hc⟩ := h.starts
  rw [hc.eq]
  exact skipSpace_cons hc.noSpace t

/-- What exceeds a limit is refused where it stands. -/
theorem Exceeds.readValue (h : Exceeds left u e) (n : Nat) :
    Json.readValue left (n + 1) u = .error e := by
  cases h with
  | longInteger hnum hrest =>
      obtain ⟨x, hx⟩ := hnum.exists_numberText
      rw [readValue_numberText hx,
        readNumber_eq_longInteger_iff.mpr ⟨_, _, rfl, hnum, hrest⟩]
      rfl
  | array => rfl
  | object => rfl

/-! ### What is refused for such an excess has one -/

/-- With `n` steps of the recursion, a text that is refused for no fault of its grammar has such an
excess behind such a front. -/
def FindsExcess {α : Type} (read : Nat → Text → Except JsonFault (α × Text))
    (front : Nat → Text → Prop) (n : Nat) : Prop :=
  ∀ s e, e.isSyntax = false → read n s = .error e → HasExcess front s e

theorem blank_empty : Blank [] := by simp [Blank]

theorem exists_name_of_readString {c : CodePoint} {k : Text} (h : readString s = .ok (k, r))
    (hr : skipSpace r = c :: u) : ∃ q, .scalar '"' :: s = q ++ c :: u ∧ MemberName q := by
  obtain ⟨⟨ps, r'⟩, hp, heq⟩ := map_eq_ok_iff.mp h
  cases heq
  obtain ⟨t, rfl, ht⟩ := readPieces_sound hp
  obtain ⟨b, hb, hrb⟩ := exists_skipSpace r
  refine ⟨[] ++ (.scalar '"' :: (t ++ [.scalar '"']) ++ b), ?_, .mk blank_empty (.mk ht) hb⟩
  rw [hr] at hrb
  simp [hrb]

/-- An array that is refused so has its excess behind the bracket, or is one itself. -/
theorem findsExcess_readArr (hitems : ∀ room, FindsExcess (readItems room) (AwaitsItem room) n)
    (he : e.isSyntax = false) (h : readValue room (n + 1) (.scalar '[' :: s) = .error e) :
    HasExcess (Awaits room) (.scalar '[' :: s) e := by
  simp only [readValue, CodePoint.scalar.injEq, Char.reduceEq, if_false, if_true] at h
  cases room with
  | zero =>
      cases h
      exact ⟨0, [], _, rfl, .here blank_empty, .array⟩
  | succ room =>
      obtain ⟨b, hb, hs⟩ := exists_skipSpace s
      have hfound : HasExcess (AwaitsItem room) (skipSpace s) e := by
        dsimp only at h
        split at h
        · next d u hskip =>
            split at h
            · cases h
            · rw [hskip]
              exact hitems room _ e he (map_eq_error_iff.mp h)
        · cases h
          cases he
      rw [hs]
      exact hfound.behind (.scalar '[' :: b) fun _ _ ha => .arr blank_empty (ha.blank hb)

theorem findsExcess_readObj
    (hmembers : ∀ room, FindsExcess (readMembers room) (AwaitsMember room) n)
    (he : e.isSyntax = false) (h : readValue room (n + 1) (.scalar '\x7b' :: s) = .error e) :
    HasExcess (Awaits room) (.scalar '\x7b' :: s) e := by
  simp only [readValue, CodePoint.scalar.injEq, Char.reduceEq, if_false, if_true] at h
  cases room with
  | zero =>
      cases h
      exact ⟨0, [], _, rfl, .here blank_empty, .object⟩
  | succ room =>
      obtain ⟨b, hb, hs⟩ := exists_skipSpace s
      have hfound : HasExcess (AwaitsMember room) (skipSpace s) e := by
        dsimp only at h
        split at h
        · next d u hskip =>
            split at h
            · cases h
            · rw [hskip]
              exact hmembers room _ e he (map_eq_error_iff.mp h)
        · cases h
          cases he
      rw [hs]
      exact hfound.behind (.scalar '\x7b' :: b) fun _ _ ha => .obj blank_empty (ha.blank hb)

theorem findsExcess_readValue
    (hitems : ∀ room, FindsExcess (readItems room) (AwaitsItem room) n)
    (hmembers : ∀ room, FindsExcess (readMembers room) (AwaitsMember room) n) :
    FindsExcess (readValue room) (Awaits room) (n + 1) := by
  intro s e he h
  cases s with
  | nil =>
      cases h
      cases he
  | cons c s =>
      by_cases ha : c = .scalar '['
      · exact ha ▸ findsExcess_readArr hitems he (ha ▸ h)
      by_cases ho : c = .scalar '\x7b'
      · exact ho ▸ findsExcess_readObj hmembers he (ho ▸ h)
      simp only [readValue, ha, ho, if_false] at h
      split at h
      · rw [isSyntax_readString (map_eq_error_iff.mp h)] at he
        cases he
      split at h
      · cases h
      · have hnumber := map_eq_error_iff.mp h
        obtain ⟨k, rfl⟩ := exists_longInteger_of_readNumber hnumber he
        obtain ⟨num, rest, hs, hnum, hrest⟩ := readNumber_eq_longInteger_iff.mp hnumber
        exact ⟨room, [], _, rfl, .here blank_empty, hs ▸ .longInteger hnum hrest⟩

/-- Where the reader of items meets an excess: in the first item, or over a comma behind it. -/
theorem readItems_excess_cases (he : e.isSyntax = false)
    (h : readItems room (n + 1) s = .error e) :
    readValue room n s = .error e ∨ ∃ v r r', readValue room n s = .ok (v, r) ∧
      skipSpace r = .scalar ',' :: r' ∧ readItems room n (skipSpace r') = .error e := by
  rcases bind_eq_error_iff.mp h with hvalue | ⟨⟨v, r⟩, hv, h⟩
  · exact .inl hvalue
  · dsimp only at h
    split at h
    · next c r' hr =>
        split at h
        · cases h
        · split at h
          · next hc =>
              rcases bind_eq_error_iff.mp h with hitems | ⟨_, _, h⟩
              · exact .inr ⟨v, r, r', hv, hc ▸ hr, hitems⟩
              · cases h
          · cases h
            cases he
    · cases h
      cases he

theorem findsExcess_readItems (hvalue : FindsExcess (readValue room) (Awaits room) n)
    (hitems : FindsExcess (readItems room) (AwaitsItem room) n) :
    FindsExcess (readItems room) (AwaitsItem room) (n + 1) := by
  intro s e he h
  rcases readItems_excess_cases he h with hfirst | ⟨v, r, r', hv, hr, hnext⟩
  · exact (hvalue s e he hfirst).behind [] fun _ _ ha => .here ha
  · obtain ⟨t, rfl, ht⟩ := exists_read_of_readValue hv hr
    obtain ⟨b, hb, hr'⟩ := exists_skipSpace r'
    have hfound : HasExcess (AwaitsItem room) (t ++ .scalar ',' :: b ++ skipSpace r') e :=
      (hitems _ e he hnext).behind (t ++ .scalar ',' :: b) fun left a ha => by
        rw [List.append_assoc]
        exact .next ht (ha.blank hb)
    rwa [List.append_assoc, List.cons_append, ← hr'] at hfound

/-- Where the reader of members meets an excess: in the value behind the first name and its colon,
or over a comma behind this value. -/
theorem readMembers_excess_cases (he : e.isSyntax = false)
    (h : readMembers room (n + 1) s = .error e) :
    ∃ u name r r', s = .scalar '"' :: u ∧ readString u = .ok (name, r) ∧
      skipSpace r = .scalar ':' :: r' ∧ (readValue room n (skipSpace r') = .error e ∨
        ∃ v r₂ r₃, readValue room n (skipSpace r') = .ok (v, r₂) ∧
          skipSpace r₂ = .scalar ',' :: r₃ ∧ readMembers room n (skipSpace r₃) = .error e) := by
  cases s with
  | nil =>
      cases h
      cases he
  | cons q s =>
      unfold readMembers at h
      split at h
      · cases h
        cases he
      next hq =>
      obtain rfl := Decidable.not_not.mp hq
      rcases bind_eq_error_iff.mp h with hname | ⟨⟨name, r⟩, hname, h⟩
      · rw [isSyntax_readString hname] at he
        cases he
      dsimp only at h
      split at h
      · next c r' hr =>
          split at h
          · cases h
            cases he
          next hc =>
          obtain rfl := Decidable.not_not.mp hc
          refine ⟨s, name, r, r', rfl, hname, hr, ?_⟩
          rcases bind_eq_error_iff.mp h with hvalue | ⟨⟨v, r₂⟩, hv, h⟩
          · exact .inl hvalue
          dsimp only at h
          split at h
          · next d r₃ hr₂ =>
              split at h
              · cases h
              · split at h
                · next hd =>
                    rcases bind_eq_error_iff.mp h with hmembers | ⟨_, _, h⟩
                    · exact .inr ⟨v, r₂, r₃, hv, hd ▸ hr₂, hmembers⟩
                    · cases h
                · cases h
                  cases he
          · cases h
            cases he
      · cases h
        cases he

theorem findsExcess_readMembers (hvalue : FindsExcess (readValue room) (Awaits room) n)
    (hmembers : FindsExcess (readMembers room) (AwaitsMember room) n) :
    FindsExcess (readMembers room) (AwaitsMember room) (n + 1) := by
  intro s e he h
  obtain ⟨u, name, r, r', rfl, hname, hr, h⟩ := readMembers_excess_cases he h
  obtain ⟨q, hs, hq⟩ := exists_name_of_readString hname hr
  obtain ⟨b, hb, hr'⟩ := exists_skipSpace r'
  rw [hs]
  rcases h with h | ⟨v, r₂, r₃, hv, hr₂, h⟩
  · have hfound : HasExcess (AwaitsMember room) (q ++ .scalar ':' :: b ++ skipSpace r') e :=
      (hvalue _ e he h).behind (q ++ .scalar ':' :: b) fun left a ha => by
        rw [List.append_assoc]
        exact .here hq (ha.blank hb)
    rwa [List.append_assoc, List.cons_append, ← hr'] at hfound
  · obtain ⟨t, ht', ht⟩ := exists_read_of_readValue hv hr₂
    obtain ⟨b₃, hb₃, hr₃⟩ := exists_skipSpace r₃
    have hvalue := read_blank_append hb ht
    have hfound : HasExcess (AwaitsMember room)
        (q ++ .scalar ':' :: (b ++ t ++ .scalar ',' :: b₃) ++ skipSpace r₃) e :=
      (hmembers _ e he h).behind _ fun left a ha => by
        have hnext := AwaitsMember.next hq hvalue (ha.blank hb₃)
        simpa using hnext
    rw [ht'] at hr'
    rw [hr', hr₃]
    simpa using hfound

/-- The three readers find what exceeds a limit, by induction on the number of steps. -/
theorem findsExcess (n room : Nat) : FindsExcess (readValue room) (Awaits room) n ∧
    FindsExcess (readItems room) (AwaitsItem room) n ∧
    FindsExcess (readMembers room) (AwaitsMember room) n := by
  induction n generalizing room with
  | zero =>
      refine ⟨?_, ?_, ?_⟩ <;>
      · intro _ _ he h
        cases h
        cases he
  | succ n ih =>
      obtain ⟨hvalue, hitems, hmembers⟩ := ih room
      exact ⟨findsExcess_readValue (fun less => (ih less).2.1) fun less => (ih less).2.2,
        findsExcess_readItems hvalue hitems, findsExcess_readMembers hvalue hmembers⟩

/-! ### An excess is refused -/

section Refusals

variable {name : Text} {r₁ r₂ r' : Text}

/-- A refusal inside an array, which no closing bracket follows. -/
theorem readValue_arr_error (he : e.isSyntax = false)
    (h : readItems room n (skipSpace s) = .error e) :
    readValue (room + 1) (n + 1) (.scalar '[' :: s) = .error e := by
  have hvalue : e ≠ .value := by
    rintro rfl
    cases he
  cases hs : skipSpace s with
  | nil =>
      rw [hs] at h
      cases n with
      | zero => exact absurd (Except.error.inj h).symm hvalue
      | succ n => cases n <;> exact absurd (Except.error.inj h).symm hvalue
  | cons c t =>
      rw [hs] at h
      by_cases hc : c = .scalar ']'
      · rw [hc] at h
        cases n with
        | zero => exact absurd (Except.error.inj h).symm hvalue
        | succ n => cases n <;> exact absurd (Except.error.inj h).symm hvalue
      · simp [readValue, hs, hc, h, Except.map]

theorem readValue_obj_error (he : e.isSyntax = false)
    (h : readMembers room n (skipSpace s) = .error e) :
    readValue (room + 1) (n + 1) (.scalar '\x7b' :: s) = .error e := by
  have hname : e ≠ .memberName := by
    rintro rfl
    cases he
  cases hs : skipSpace s with
  | nil =>
      rw [hs] at h
      cases n <;> exact absurd (Except.error.inj h).symm hname
  | cons c t =>
      rw [hs] at h
      by_cases hc : c = .scalar '\x7d'
      · rw [hc] at h
        cases n <;> exact absurd (Except.error.inj h).symm hname
      · simp [readValue, hs, hc, h, Except.map]

theorem readItems_first_error (h : readValue room n s = .error e) :
    readItems room (n + 1) s = .error e := by
  simp [readItems, h, bind, Except.bind]

theorem readItems_next_error (hv : readValue room n s = .ok (v, r))
    (hr : skipSpace r = .scalar ',' :: r') (h : readItems room n (skipSpace r') = .error e) :
    readItems room (n + 1) s = .error e := by
  simp [readItems, hv, hr, h, bind, Except.bind]

theorem readMembers_first_error (hk : readString u = .ok (name, r₁))
    (hc : skipSpace r₁ = .scalar ':' :: r₂) (h : readValue room n (skipSpace r₂) = .error e) :
    readMembers room (n + 1) (.scalar '"' :: u) = .error e := by
  simp [readMembers, hk, hc, h, bind, Except.bind]

theorem readMembers_next_error {m : Text × Json} {r₃ : Text}
    (hm : ReadsMember room n s m u r₁ r₂ r₃) (hr : skipSpace r₃ = .scalar ',' :: r')
    (h : readMembers room n (skipSpace r') = .error e) :
    readMembers room (n + 1) s = .error e := by
  obtain ⟨rfl, hk, hc, hv⟩ := hm
  simp [readMembers, hk, hc, hv, hr, h, bind, Except.bind]

/-- The name of a member is read with the colon behind it. -/
theorem MemberName.read {q : Text} (h : MemberName q) (t : Text) :
    ∃ u name r, skipSpace (q ++ .scalar ':' :: t) = .scalar '"' :: u ∧
      readString u = .ok (name, r) ∧ skipSpace r = .scalar ':' :: t := by
  cases h with
  | @mk a q b name ha hq hb =>
      obtain ⟨u, rfl, hu⟩ := readString_append hq (b ++ .scalar ':' :: t)
      refine ⟨u ++ (b ++ .scalar ':' :: t), name, _, ?_, hu, ?_⟩
      · rw [List.append_assoc, skipSpace_blank_append ha, List.append_assoc]
        rfl
      · rw [skipSpace_blank_append hb]
        rfl

end Refusals

mutual

theorem Awaits.refused {room left : Nat} {a : Text} : Awaits room left a → Exceeds left u e →
    ∀ {n : Nat}, 2 * a.length + 1 ≤ n → readValue room n (skipSpace (a ++ u)) = .error e
  | .here hb, hu, n, hn => by
      obtain ⟨m, rfl⟩ : ∃ m, n = m + 1 := ⟨n - 1, by omega⟩
      rw [skipSpace_blank_append hb, hu.skipSpace]
      exact hu.readValue m
  | .arr hb h, hu, n, hn => by
      simp only [List.length_append, List.length_cons] at hn
      obtain ⟨m, rfl⟩ : ∃ m, n = m + 1 := ⟨n - 1, by omega⟩
      have hitems := AwaitsItem.refused h hu (n := m) (by omega)
      rw [List.append_assoc, skipSpace_blank_append hb, List.cons_append]
      exact readValue_arr_error hu.not_isSyntax hitems
  | .obj hb h, hu, n, hn => by
      simp only [List.length_append, List.length_cons] at hn
      obtain ⟨m, rfl⟩ : ∃ m, n = m + 1 := ⟨n - 1, by omega⟩
      have hmembers := AwaitsMember.refused h hu (n := m) (by omega)
      rw [List.append_assoc, skipSpace_blank_append hb, List.cons_append]
      exact readValue_obj_error hu.not_isSyntax hmembers

theorem AwaitsItem.refused {room left : Nat} {a : Text} : AwaitsItem room left a →
    Exceeds left u e → ∀ {n : Nat}, 2 * a.length + 2 ≤ n →
    readItems room n (skipSpace (a ++ u)) = .error e
  | .here h, hu, n, hn => by
      obtain ⟨m, rfl⟩ : ∃ m, n = m + 1 := ⟨n - 1, by omega⟩
      exact readItems_first_error (Awaits.refused h hu (by omega))
  | .next ht h, hu, n, hn => by
      simp only [List.length_append, List.length_cons] at hn
      obtain ⟨m, rfl⟩ : ∃ m, n = m + 1 := ⟨n - 1, by omega⟩
      obtain ⟨r, hv, hr⟩ := readValue_of_read ht (n := m) (by omega) (ends_comma (_ ++ u))
      have hitems := AwaitsItem.refused h hu (n := m) (by omega)
      rw [List.append_assoc, List.cons_append]
      exact readItems_next_error hv hr hitems

theorem AwaitsMember.refused {room left : Nat} {a : Text} : AwaitsMember room left a →
    Exceeds left u e → ∀ {n : Nat}, 2 * a.length + 2 ≤ n →
    readMembers room n (skipSpace (a ++ u)) = .error e
  | .here hq h, hu, n, hn => by
      simp only [List.length_append, List.length_cons] at hn
      obtain ⟨m, rfl⟩ : ∃ m, n = m + 1 := ⟨n - 1, by omega⟩
      obtain ⟨t, name, r, hs, hname, hr⟩ := hq.read (_ ++ u)
      have hvalue := Awaits.refused h hu (n := m) (by omega)
      rw [List.append_assoc, List.cons_append, hs]
      exact readMembers_first_error hname hr hvalue
  | @AwaitsMember.next _ _ q t a v hq ht h, hu, n, hn => by
      simp only [List.length_append, List.length_cons] at hn
      obtain ⟨m, rfl⟩ : ∃ m, n = m + 1 := ⟨n - 1, by omega⟩
      obtain ⟨w, name, r, hs, hname, hr⟩ := hq.read (t ++ .scalar ',' :: (a ++ u))
      obtain ⟨r', hv, hr'⟩ := readValue_of_read ht (n := m) (by omega) (ends_comma (a ++ u))
      have hmembers := AwaitsMember.refused h hu (n := m) (by omega)
      simp only [List.append_assoc, List.cons_append]
      exact readMembers_next_error (m := (name, v)) ⟨hs, hname, hr, hv⟩ hr' hmembers

end

/-- Before such an excess there is no mark of a byte order. -/
theorem HasExcess.no_mark (h : HasExcess (Awaits room) s e) (t : Text) :
    s ≠ .scalar '\uFEFF' :: t := by
  obtain ⟨left, a, u, rfl, ha, hu⟩ := h
  have hspace {b w : Text} {c : CodePoint} (hb : Blank b) (hc : c ≠ '\uFEFF') :
      b ++ c :: w ≠ .scalar '\uFEFF' :: t := by
    cases b with
    | nil => exact fun heq => hc (List.cons.inj heq).1
    | cons d b =>
        intro heq
        have hd := hb d List.mem_cons_self
        rw [(List.cons.inj heq).1] at hd
        cases hd
  cases ha with
  | here hb =>
      obtain ⟨c, w, hc⟩ := hu.starts
      rw [hc.eq]
      exact hspace hb hc.noMark
  | arr hb | obj hb =>
      rw [List.append_assoc]
      exact hspace hb (by decide)

/-- A text is refused for no fault of its grammar exactly if what exceeds a limit stands where a
value may begin, behind a text in which the reader meets no fault. -/
theorem read_eq_excess_iff (he : e.isSyntax = false) :
    read room s = .error e ↔ HasExcess (Awaits room) s e := by
  constructor
  · intro h
    unfold read at h
    split at h
    · cases h
      cases he
    · rcases bind_eq_error_iff.mp h with hvalue | ⟨⟨v, r⟩, -, h⟩
      · obtain ⟨b, hb, hs⟩ := exists_skipSpace s
        rw [hs]
        exact ((findsExcess _ room).1 _ e he hvalue).behind b fun _ _ ha => ha.blank hb
      · dsimp only at h
        split at h
        · cases h
        · cases h
          cases he
  · intro h
    have hmark := h.no_mark
    obtain ⟨left, a, u, rfl, ha, hu⟩ := h
    unfold read
    split
    · next hs => exact absurd hs (hmark _)
    · rw [Awaits.refused ha hu (by simp only [List.length_append]; omega)]
      rfl

end Json
end RouteScribe
