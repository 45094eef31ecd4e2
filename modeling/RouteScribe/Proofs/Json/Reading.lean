import Mathlib.Tactic.Ring
import RouteScribe.Proofs.Assoc
import RouteScribe.Proofs.Json.Grammar
import RouteScribe.Proofs.Json.Value

/-! # Strict JSON is read as the value that it stands for

Behind a value a text ends, or goes on with a blank, a comma or a closing bracket (`Ends`).  So the
reader knows where a number is over (`readNumber_append`), a string is over at its quote
(`readString_append`), and the reader of values comes to the end of each rule of the grammar with
what stands behind it (`readValue_append`, by recursion on the grammar).  It needs as many steps of
its recursion as twice the number of code points, and room for as many open containers as the value
has levels.  `read_of_denotes` puts this together: a text of strict JSON whose integers are not too
long is read as the value that it denotes, if there is room for it. -/

namespace RouteScribe
namespace Json

/-! ### What stands behind a value -/

/-- Behind a value: the end of the text, a blank, a comma or a closing bracket. -/
def Ends (rest : Text) : Prop :=
  ∀ c ∈ rest.head?, isSpace c = true ∨ c = ',' ∨ c = ']' ∨ c = '\x7d'

/-- The text does not begin with a digit. -/
def NoDigit (rest : Text) : Prop := ∀ c ∈ rest.head?, digit? c = none

theorem ends_nil : Ends [] := by simp [Ends]

theorem ends_blank_append {b rest : Text} (hb : Blank b) (hr : Ends rest) : Ends (b ++ rest) := by
  cases b with
  | nil => exact hr
  | cons c b =>
      intro x hx
      cases hx
      exact .inl (hb c List.mem_cons_self)

theorem ends_cases {c : CodePoint} {rest : Text} (h : Ends (c :: rest)) :
    c = ' ' ∨ c = '\t' ∨ c = '\n' ∨ c = '\r' ∨ c = ',' ∨ c = ']' ∨ c = '\x7d' := by
  have hc := h c rfl
  simpa only [isSpace, Bool.or_eq_true, beq_iff_eq, or_assoc] using hc

theorem Ends.noDigit {rest : Text} (h : Ends rest) : NoDigit rest := by
  cases rest with
  | nil => simp [NoDigit]
  | cons c rest =>
      rintro x ⟨⟩
      rcases ends_cases h with rfl | rfl | rfl | rfl | rfl | rfl | rfl <;> rfl

/-! ### Numbers -/

theorem takeDigits_append {t rest : Text} {ds : List Nat} (h : Digits t ds) (hr : NoDigit rest) :
    takeDigits (t ++ rest) = (ds, rest) := by
  induction h with
  | nil =>
      cases rest with
      | nil => rfl
      | cons c rest => simp only [List.nil_append, takeDigits, hr c rfl]
  | cons hc _ ih => simp only [List.cons_append, takeDigits, hc, ih]

theorem ne_of_digit {c x : CodePoint} {d : Nat} (h : digit? c = some d) (hx : digit? x = none) :
    c ≠ x := by
  rintro rfl
  rw [hx] at h
  cases h

theorem takeExponent_append {x rest : Text} {e : Option Int} (h : Exponent x e) (hr : Ends rest) :
    takeExponent (x ++ rest) = e.map fun e => (e, rest) := by
  cases h with
  | none =>
      cases rest with
      | nil => rfl
      | cons c rest =>
          rcases ends_cases hr with rfl | rfl | rfl | rfl | rfl | rfl | rfl <;> rfl
  | digits he hs h =>
      have hd := takeDigits_append h hr.noDigit
      cases hs with
      | none =>
          cases h with
          | cons hc h =>
              have hm := ne_of_digit hc (x := .scalar '-') rfl
              have hp := ne_of_digit hc (x := .scalar '+') rfl
              rw [List.cons_append] at hd
              simp [takeExponent, he, hm, hp, hd, signed]
      | plus => simp [takeExponent, he, hd, signed]
      | minus => simp [takeExponent, he, hd, signed]

theorem Exponent.noDigit {x rest : Text} {e : Option Int} (h : Exponent x e) (hr : Ends rest) :
    NoDigit (x ++ rest) := by
  cases h with
  | none => exact hr.noDigit
  | digits he =>
      rintro c ⟨⟩
      rcases he with rfl | rfl <;> rfl

theorem takeFraction_append {f rest : Text} {fs : List Nat} (h : Fraction f fs)
    (hr : NoDigit rest) (hp : rest.head? ≠ some (.scalar '.')) :
    takeFraction (f ++ rest) = if fs.isEmpty then none else some (fs, rest) := by
  cases h with
  | none =>
      cases rest with
      | nil => rfl
      | cons c rest =>
          have hc : c ≠ '.' := fun hc => hp (by rw [hc]; rfl)
          simp [takeFraction, hc]
  | digits h =>
      have hd := takeDigits_append h hr
      simp [takeFraction, hd]

theorem takeSign_append {s w r : Text} {negative : Bool} {ds : List Nat} (hs : Sign s negative)
    (hw : Whole w ds) : takeSign (s ++ (w ++ r)) = (negative, w ++ r) := by
  cases hs with
  | minus => rfl
  | none =>
      cases hw with
      | zero => rfl
      | digits h =>
          cases h with
          | cons hc => simp [takeSign, ne_of_digit hc (x := .scalar '-') rfl]

theorem takeWhole_append {w r : Text} {ds : List Nat} (hw : Whole w ds) (hr : NoDigit r) :
    takeWhole (w ++ r) = some (ds, r) := by
  cases hw with
  | zero => rfl
  | @digits c t d ds h hd =>
      rw [takeWhole, takeDigits_append h hr]
      cases d with
      | zero => exact absurd rfl hd
      | succ d => rfl

theorem readNumber_whole {s w r : Text} {negative : Bool} {ds : List Nat} (hs : Sign s negative)
    (hw : Whole w ds) (hr : NoDigit r) :
    readNumber (s ++ (w ++ r)) = finishNumber negative ds r := by
  rw [readNumber, takeSign_append hs hw, takeWhole_append hw hr]

theorem le_foldl_digits (ds : List Nat) (n : Nat) :
    n * 10 ^ ds.length ≤ ds.foldl (fun n d => 10 * n + d) n := by
  induction ds generalizing n with
  | nil => simp
  | cons d ds ih =>
      calc n * 10 ^ (ds.length + 1) = 10 * n * 10 ^ ds.length := by rw [Nat.pow_succ]; ring
        _ ≤ (10 * n + d) * 10 ^ ds.length := Nat.mul_le_mul_right _ (Nat.le_add_right _ _)
        _ ≤ _ := ih (10 * n + d)

/-- Without leading zeros a whole part has no more digits than its value. -/
theorem Whole.length_le {w : Text} {ds : List Nat} (h : Whole w ds) {k : Nat} (hk : 0 < k)
    (hv : Binary64.digitCount (digitsValue ds) ≤ k) : ds.length ≤ k := by
  cases h with
  | zero => exact hk
  | @digits c t d ds h hd =>
      rw [Binary64.digitCount, Nat.length_toDigits_le_iff (by decide) hk] at hv
      have hle := le_foldl_digits ds d
      have hpow : 10 ^ ds.length < 10 ^ k :=
        calc 10 ^ ds.length ≤ d * 10 ^ ds.length := Nat.le_mul_of_pos_left _ (Nat.pos_of_ne_zero hd)
          _ ≤ digitsValue (d :: ds) := by simpa [digitsValue] using hle
          _ < 10 ^ k := hv
      exact (Nat.pow_lt_pow_iff_right (by decide)).mp hpow

theorem Exponent.head_ne_point {x rest : Text} {e : Option Int} (h : Exponent x e)
    (hr : Ends rest) : (x ++ rest).head? ≠ some (.scalar '.') := by
  cases h with
  | none =>
      intro hc
      rcases hr _ hc with h | h | h | h <;> exact absurd h (by decide)
  | digits he =>
      rintro ⟨⟩
      exact absurd he (by decide)

theorem finishNumber_append {f x rest : Text} {negative : Bool} {ds fs : List Nat}
    {e : Option Int} (hf : Fraction f fs) (hx : Exponent x e) (hr : Ends rest)
    (hds : e = none → fs = [] → ds.length ≤ maxIntegerDigits) :
    finishNumber negative ds (f ++ (x ++ rest)) = .ok (numberOf negative ds fs e, rest) := by
  have hfr := takeFraction_append hf (hx.noDigit hr) (hx.head_ne_point hr)
  have hex := takeExponent_append hx hr
  cases hf with
  | none =>
      rw [finishNumber, hfr, List.nil_append, hex]
      cases e with
      | none =>
          have hshort := Nat.not_lt_of_ge (hds rfl rfl)
          cases hx
          simp [hshort, numberOf, signed]
      | some e => simp [numberOf]
  | digits h =>
      rw [finishNumber, hfr]
      cases e with
      | none =>
          cases hx
          simp_all [numberOf]
      | some e => simp [hex, numberOf]

theorem readNumber_parts {s w f x rest : Text} {negative : Bool} {ds fs : List Nat}
    {e : Option Int} (hs : Sign s negative) (hw : Whole w ds) (hf : Fraction f fs)
    (hx : Exponent x e) (hds : e = none → fs = [] → ds.length ≤ maxIntegerDigits)
    (hr : Ends rest) :
    readNumber (s ++ (w ++ (f ++ x)) ++ rest) = .ok (numberOf negative ds fs e, rest) := by
  have hfx : NoDigit (f ++ (x ++ rest)) := by
    cases hf with
    | none => exact hx.noDigit hr
    | digits => rintro c ⟨⟩; rfl
  simp only [List.append_assoc]
  rw [readNumber_whole hs hw hfx]
  exact finishNumber_append hf hx hr hds

theorem readNumber_append {t rest : Text} {n : Number} (h : NumberText t n) (hn : n.IsShort)
    (hr : Ends rest) : readNumber (t ++ rest) = .ok (n, rest) := by
  cases h with
  | @mk s w f x negative ds fs e hs hw hf hx =>
      refine readNumber_parts hs hw hf hx ?_ hr
      rintro rfl rfl
      refine hw.length_le (by decide) ?_
      cases negative <;> simpa [numberOf, signed, Number.IsShort] using hn

/-! ### Strings -/

theorem readPieces_append {t rest : Text} {ps : List Piece} (h : StringBody t ps) :
    readPieces (t ++ .scalar '"' :: rest) = .ok (ps, rest) := by
  induction h with
  | nil =>
      unfold readPieces
      rfl
  | plain hq hb hc _ ih =>
      unfold readPieces
      simp [hq, hb, Nat.not_lt_of_ge hc, ih, prepend]
  | @short e x t ps he _ ih =>
      have hu : e ≠ .scalar 'u' := by
        rintro rfl
        cases he
      have hcode : ¬ (CodePoint.scalar '\\').code < 0x20 := by decide
      unfold readPieces
      simp [hu, he, ih, prepend, hcode]
  | unit hn _ ih =>
      have hcode : ¬ (CodePoint.scalar '\\').code < 0x20 := by decide
      unfold readPieces
      simp [hn, ih, prepend, hcode]

theorem readString_append {q s : Text} (h : StringText q s) (rest : Text) :
    ∃ u, q = .scalar '"' :: u ∧ readString (u ++ rest) = .ok (s, rest) := by
  cases h with
  | mk h =>
      refine ⟨_, rfl, ?_⟩
      rw [readString, List.append_assoc, List.singleton_append, readPieces_append h]
      rfl

/-! ### Blanks and first characters -/

theorem skipSpace_blank_append {b : Text} (hb : Blank b) (s : Text) :
    skipSpace (b ++ s) = skipSpace s := by
  rw [skipSpace, List.dropWhile_append_of_pos hb, skipSpace]

theorem skipSpace_cons {c : CodePoint} (hc : isSpace c = false) (s : Text) :
    skipSpace (c :: s) = c :: s := by
  rw [skipSpace, List.dropWhile_cons_of_neg (by rw [hc]; exact Bool.false_ne_true)]

/-- The text begins as a value does: with no blank, no closing bracket and no mark of a byte order.
-/
structure StartsWith (t : Text) (c : CodePoint) (u : Text) : Prop where
  eq : t = c :: u
  noSpace : isSpace c = false
  noBracket : c ≠ ']'
  noMark : c ≠ '\uFEFF'

theorem Whole.first {w : Text} {ds : List Nat} (h : Whole w ds) :
    ∃ c u d, w = c :: u ∧ digit? c = some d := by
  cases h with
  | zero => exact ⟨_, _, 0, rfl, rfl⟩
  | digits h =>
      cases h with
      | cons hc => exact ⟨_, _, _, rfl, hc⟩

theorem NumberText.first {t : Text} {n : Number} (h : NumberText t n) :
    ∃ c u d, (t = c :: u ∨ t = .scalar '-' :: c :: u) ∧ digit? c = some d := by
  cases h with
  | mk hs hw =>
      obtain ⟨c, u, d, rfl, hd⟩ := hw.first
      cases hs with
      | none => exact ⟨c, _, d, .inl rfl, hd⟩
      | minus => exact ⟨c, _, d, .inr rfl, hd⟩

theorem Denotes.starts {t : Text} {v : Json} (h : Denotes t v) : ∃ c u, StartsWith t c u := by
  cases h with
  | null | isTrue | isFalse | emptyArr _ | arr _ | emptyObj _ | obj _ _ =>
      exact ⟨_, _, rfl, rfl, by decide, by decide⟩
  | str h =>
      cases h
      exact ⟨_, _, rfl, rfl, by decide, by decide⟩
  | num h =>
      obtain ⟨c, u, d, rfl | rfl, hd⟩ := h.first
      · refine ⟨c, u, rfl, ?_, ne_of_digit hd rfl, ne_of_digit hd rfl⟩
        have h1 := ne_of_digit hd (x := .scalar ' ') rfl
        have h2 := ne_of_digit hd (x := .scalar '\t') rfl
        have h3 := ne_of_digit hd (x := .scalar '\n') rfl
        have h4 := ne_of_digit hd (x := .scalar '\r') rfl
        simp [isSpace, h1, h2, h3, h4]
      · exact ⟨_, _, rfl, rfl, by decide, by decide⟩

theorem skipSpace_denotes {t : Text} {v : Json} (h : Denotes t v) (s : Text) :
    skipSpace (t ++ s) = t ++ s := by
  obtain ⟨c, u, rfl, hc⟩ := h.starts
  exact skipSpace_cons hc (u ++ s)

/-! ### What the reader of values does at each character -/

section Steps

variable {room n : Nat} {s u r r' rest k : Text} {v : Json} {vs : List Json} {ms : List (Text × Json)}

theorem readName?_number {t : Text} {x : Number} (h : NumberText t x) (rest : Text) :
    readName? (t ++ rest) = none := by
  obtain ⟨c, u, d, ht, hd⟩ := h.first
  have hne (y : Char) (hy : digit? y = none) : c ≠ .scalar y := ne_of_digit hd hy
  have hn := hne 'n' rfl
  have ht' := hne 't' rfl
  have hf := hne 'f' rfl
  have hN := hne 'N' rfl
  have hI := hne 'I' rfl
  have hm := hne '-' rfl
  rcases ht with rfl | rfl <;> simp [readName?, names, after?, hn, ht', hf, hN, hI, hm]

/-- At a number the reader of values is the reader of numbers. -/
theorem readValue_numberText {t : Text} {x : Number} (h : NumberText t x) (rest : Text)
    (room n : Nat) : readValue room (n + 1) (t ++ rest) =
      (readNumber (t ++ rest)).map fun p => (.num p.1, p.2) := by
  have hname := readName?_number h rest
  obtain ⟨c, u, d, rfl | rfl, hd⟩ := h.first
  · have hq := ne_of_digit hd (x := .scalar '"') rfl
    have ha := ne_of_digit hd (x := .scalar '[') rfl
    have ho := ne_of_digit hd (x := .scalar '\x7b') rfl
    rw [List.cons_append] at hname ⊢
    simp [readValue, hq, ha, ho, hname]
  · rw [List.cons_append, List.cons_append] at hname
    simp [readValue, hname]

theorem readValue_of_readNumber {t : Text} {x : Number} (h : NumberText t x)
    (hnum : readNumber (t ++ rest) = .ok (x, rest)) (room n : Nat) :
    readValue room (n + 1) (t ++ rest) = .ok (.num x, rest) := by
  rw [readValue_numberText h, hnum]
  rfl

theorem readValue_number {t : Text} {x : Number} (h : NumberText t x) (hx : x.IsShort)
    (hr : Ends rest) (room n : Nat) : readValue room (n + 1) (t ++ rest) = .ok (.num x, rest) :=
  readValue_of_readNumber h (readNumber_append h hx hr) room n

theorem readValue_emptyArr (hs : skipSpace u = .scalar ']' :: rest) :
    readValue (room + 1) (n + 1) (.scalar '[' :: u) = .ok (.arr [], rest) := by
  simp [readValue, hs]

theorem readValue_arr (hs : ∃ c t, skipSpace u = c :: t ∧ c ≠ ']')
    (h : readItems room n (skipSpace u) = .ok (vs, rest)) :
    readValue (room + 1) (n + 1) (.scalar '[' :: u) = .ok (.arr vs, rest) := by
  obtain ⟨c, t, hs, hc⟩ := hs
  rw [hs] at h
  simp [readValue, hs, hc, h, Except.map]

theorem readValue_emptyObj (hs : skipSpace u = .scalar '\x7d' :: rest) :
    readValue (room + 1) (n + 1) (.scalar '\x7b' :: u) = .ok (.obj [], rest) := by
  simp [readValue, hs]

theorem readValue_members (hs : ∃ c t, skipSpace u = c :: t ∧ c ≠ '\x7d')
    (h : readMembers room n (skipSpace u) = .ok (ms, rest)) :
    readValue (room + 1) (n + 1) (.scalar '\x7b' :: u) = .ok (.obj (Fields.ofPairs ms), rest) := by
  obtain ⟨c, t, hs, hc⟩ := hs
  rw [hs] at h
  simp [readValue, hs, hc, h, Except.map]

theorem readValue_obj (hs : ∃ t, skipSpace u = .scalar '"' :: t)
    (h : readMembers room n (skipSpace u) = .ok (ms, rest)) (hn : (ms.map Prod.fst).Nodup) :
    readValue (room + 1) (n + 1) (.scalar '\x7b' :: u) = .ok (.obj ms, rest) := by
  obtain ⟨t, hs⟩ := hs
  rw [readValue_members ⟨_, t, hs, by decide⟩ h, Fields.ofPairs, Assoc.ofPairs_eq_self hn]

theorem readItems_last (hv : readValue room n s = .ok (v, r)) (hr : skipSpace r = .scalar ']' :: rest) :
    readItems room (n + 1) s = .ok ([v], rest) := by
  simp [readItems, hv, hr, bind, Except.bind]

theorem readItems_next (hv : readValue room n s = .ok (v, r)) (hr : skipSpace r = .scalar ',' :: r')
    (h : readItems room n (skipSpace r') = .ok (vs, rest)) :
    readItems room (n + 1) s = .ok (v :: vs, rest) := by
  simp [readItems, hv, hr, h, bind, Except.bind]

/-- The reader comes over a name, a colon and a value. -/
structure ReadsMember (room n : Nat) (s : Text) (m : Text × Json) (u r₁ r₂ r₃ : Text) : Prop where
  quote : s = .scalar '"' :: u
  name : readString u = .ok (m.1, r₁)
  colon : skipSpace r₁ = .scalar ':' :: r₂
  value : readValue room n (skipSpace r₂) = .ok (m.2, r₃)

theorem readMembers_last {m : Text × Json} {r₁ r₂ r₃ : Text} (h : ReadsMember room n s m u r₁ r₂ r₃)
    (hr : skipSpace r₃ = .scalar '\x7d' :: rest) : readMembers room (n + 1) s = .ok ([m], rest) := by
  obtain ⟨rfl, hk, hc, hv⟩ := h
  simp [readMembers, hk, hc, hv, hr, bind, Except.bind]

theorem readMembers_next {m : Text × Json} {r₁ r₂ r₃ : Text} (h : ReadsMember room n s m u r₁ r₂ r₃)
    (hr : skipSpace r₃ = .scalar ',' :: r') (hms : readMembers room n (skipSpace r') = .ok (ms, rest)) :
    readMembers room (n + 1) s = .ok (m :: ms, rest) := by
  obtain ⟨rfl, hk, hc, hv⟩ := h
  simp [readMembers, hk, hc, hv, hr, hms, bind, Except.bind]

end Steps

theorem Item.skipSpace {t : Text} {v : Json} (h : Item t v) (s : Text) :
    ∃ c u, Json.skipSpace (t ++ s) = c :: u ∧ c ≠ ']' := by
  cases h with
  | @mk a t b v ha h hb =>
      obtain ⟨c, u, hc⟩ := h.starts
      rw [List.append_assoc, List.append_assoc, skipSpace_blank_append ha, skipSpace_denotes h,
        hc.eq]
      exact ⟨c, _, rfl, hc.noBracket⟩

theorem Items.skipSpace {t : Text} {vs : List Json} (h : Items t vs) (s : Text) :
    ∃ c u, Json.skipSpace (t ++ s) = c :: u ∧ c ≠ ']' := by
  cases h with
  | one h => exact h.skipSpace s
  | cons h hr =>
      rw [List.append_assoc]
      exact h.skipSpace _

theorem Member.skipSpace {t : Text} {m : Text × Json} (h : Member t m) (s : Text) :
    ∃ u, Json.skipSpace (t ++ s) = .scalar '"' :: u := by
  cases h with
  | mk ha hk =>
      cases hk
      rw [List.append_assoc, skipSpace_blank_append ha]
      exact ⟨_, rfl⟩

theorem Members.skipSpace {t : Text} {ms : List (Text × Json)} (h : Members t ms) (s : Text) :
    ∃ u, Json.skipSpace (t ++ s) = .scalar '"' :: u := by
  cases h with
  | one h => exact h.skipSpace s
  | cons h hr =>
      rw [List.append_assoc]
      exact h.skipSpace _

/-! ### Values -/

/-- No integer in the value is too long to be read. -/
abbrev ShortIntegers (v : Json) : Prop := v.Holds Number.IsShort fun _ => True

theorem ends_comma (s : Text) : Ends (.scalar ',' :: s) := by
  rintro _ ⟨⟩
  exact .inr (.inl rfl)

theorem ends_bracket (s : Text) : Ends (.scalar ']' :: s) := by
  rintro _ ⟨⟩
  exact .inr (.inr (.inl rfl))

theorem ends_brace (s : Text) : Ends (.scalar '\x7d' :: s) := by
  rintro _ ⟨⟩
  exact .inr (.inr (.inr rfl))

theorem Denotes.length_pos {t : Text} {v : Json} (h : Denotes t v) : 0 < t.length := by
  obtain ⟨c, u, hc⟩ := h.starts
  rw [hc.eq]
  exact Nat.zero_lt_succ _

/-- The value has at most so many levels, and no integer in it is too long. -/
structure HasRoom (room : Nat) (v : Json) : Prop where
  depth : v.depth ≤ room
  short : v.ShortIntegers

theorem depth_pos (v : Json) : 0 < v.depth := by
  cases v <;> simp [depth]

theorem HasRoom.exists_succ {room : Nat} {v : Json} (h : HasRoom room v) :
    ∃ less, room = less + 1 := by
  have hpos := v.depth_pos
  have hdepth := h.depth
  exact ⟨room - 1, by omega⟩

theorem HasRoom.items {room : Nat} {vs : List Json} (h : HasRoom (room + 1) (.arr vs)) :
    ∀ v ∈ vs, HasRoom room v := by
  have hdepth := h.depth
  rw [Json.depth, Nat.add_comm, Nat.add_le_add_iff_right, depthOfItems_le_iff] at hdepth
  exact fun v hv => ⟨hdepth v hv, holds_arr.mp h.short v hv⟩

theorem HasRoom.members {room : Nat} {ms : List (Text × Json)} (h : HasRoom (room + 1) (.obj ms)) :
    ∀ m ∈ ms, HasRoom room m.2 := by
  have hdepth := h.depth
  rw [Json.depth, Nat.add_comm, Nat.add_le_add_iff_right, depthOfMembers_le_iff] at hdepth
  exact fun m hm => ⟨hdepth m hm, (holds_obj.mp h.short).2 m hm⟩

mutual

theorem readValue_append {t : Text} {v : Json} : Denotes t v → ∀ {room n : Nat}, HasRoom room v →
    2 * t.length ≤ n + 1 → ∀ {rest : Text}, Ends rest →
      readValue room (n + 1) (t ++ rest) = .ok (v, rest)
  | .null, _, _, _, _, _, _ => rfl
  | .isTrue, _, _, _, _, _, _ => rfl
  | .isFalse, _, _, _, _, _, _ => rfl
  | .num h, room, n, hv, _, _, hr => readValue_number h hv.short hr room n
  | .str h, _, _, _, _, rest, _ => by
      obtain ⟨u, rfl, hu⟩ := readString_append h rest
      simp [readValue, hu, Except.map]
  | .emptyArr hb, _, _, hv, _, _, _ => by
      obtain ⟨room, rfl⟩ := hv.exists_succ
      rw [List.cons_append, List.append_assoc]
      exact readValue_emptyArr (skipSpace_blank_append hb _)
  | .arr h, _, n, hv, hn, rest, _ => by
      obtain ⟨room, rfl⟩ := hv.exists_succ
      have ih := readItems_append h hv.items (n := n)
        (by simp only [List.length_cons, List.length_append] at hn; omega) rest
      rw [List.cons_append, List.append_assoc]
      exact readValue_arr (h.skipSpace _) ih
  | .emptyObj hb, _, _, hv, _, _, _ => by
      obtain ⟨room, rfl⟩ := hv.exists_succ
      rw [List.cons_append, List.append_assoc]
      exact readValue_emptyObj (skipSpace_blank_append hb _)
  | .obj h hd, _, n, hv, hn, rest, _ => by
      obtain ⟨room, rfl⟩ := hv.exists_succ
      have ih := readMembers_append h hv.members (n := n)
        (by simp only [List.length_cons, List.length_append] at hn; omega) rest
      rw [List.cons_append, List.append_assoc]
      exact readValue_obj (h.skipSpace _) ih hd

theorem readItem_append {t : Text} {v : Json} : Item t v → ∀ {room n : Nat}, HasRoom room v →
    2 * t.length ≤ n → ∀ {rest : Text}, Ends rest →
      ∃ r, readValue room n (skipSpace (t ++ rest)) = .ok (v, r) ∧ skipSpace r = skipSpace rest
  | .mk ha h hb, _, n, hv, hn, rest, hr => by
      have hpos := h.length_pos
      simp only [List.length_append] at hn
      obtain ⟨m, rfl⟩ : ∃ m, n = m + 1 := ⟨n - 1, by omega⟩
      have ih := readValue_append h hv (n := m) (by omega) (ends_blank_append hb hr)
      refine ⟨_ ++ rest, ?_, skipSpace_blank_append hb rest⟩
      rw [List.append_assoc, List.append_assoc, skipSpace_blank_append ha, skipSpace_denotes h]
      exact ih

theorem readItems_append {t : Text} {vs : List Json} : Items t vs → ∀ {room n : Nat},
    (∀ v ∈ vs, HasRoom room v) → 2 * t.length + 1 ≤ n → ∀ rest : Text,
      readItems room n (skipSpace (t ++ .scalar ']' :: rest)) = .ok (vs, rest)
  | .one h, _, n, hv, hn, rest => by
      obtain ⟨m, rfl⟩ : ∃ m, n = m + 1 := ⟨n - 1, by omega⟩
      obtain ⟨r, hv', hr⟩ := readItem_append h (hv _ List.mem_cons_self) (n := m) (by omega)
        (ends_bracket rest)
      exact readItems_last hv' hr
  | .cons h hr, _, n, hv, hn, rest => by
      rw [List.length_append, List.length_cons] at hn
      obtain ⟨m, rfl⟩ : ∃ m, n = m + 1 := ⟨n - 1, by omega⟩
      obtain ⟨r', hv', hr'⟩ := readItem_append h (hv _ List.mem_cons_self) (n := m) (by omega)
        (ends_comma (_ ++ .scalar ']' :: rest))
      have ih := readItems_append hr (fun v hm => hv v (List.mem_cons_of_mem _ hm)) (n := m)
        (by omega) rest
      rw [List.append_assoc, List.cons_append]
      exact readItems_next hv' hr' ih

theorem readMember_append {t : Text} {m : Text × Json} : Member t m → ∀ {room n : Nat},
    HasRoom room m.2 → 2 * t.length ≤ n → ∀ {rest : Text}, Ends rest →
      ∃ u r₁ r₂ r₃, ReadsMember room n (skipSpace (t ++ rest)) m u r₁ r₂ r₃ ∧
        skipSpace r₃ = skipSpace rest
  | @Member.mk a q b t k v ha hk hb h, _, n, hv, hn, rest, hr => by
      simp only [List.length_append, List.length_cons] at hn
      obtain ⟨r, hvr, hrr⟩ := readItem_append h hv (n := n) (by omega) hr
      obtain ⟨u, rfl, hu⟩ := readString_append hk (b ++ .scalar ':' :: (t ++ rest))
      refine ⟨_, _, t ++ rest, r, ⟨?_, hu, ?_, hvr⟩, hrr⟩
      · simp only [List.append_assoc, List.cons_append]
        rw [skipSpace_blank_append ha]
        rfl
      · rw [skipSpace_blank_append hb]
        rfl

theorem readMembers_append {t : Text} {ms : List (Text × Json)} : Members t ms →
    ∀ {room n : Nat}, (∀ m ∈ ms, HasRoom room m.2) → 2 * t.length + 1 ≤ n → ∀ rest : Text,
      readMembers room n (skipSpace (t ++ .scalar '\x7d' :: rest)) = .ok (ms, rest)
  | .one h, _, n, hv, hn, rest => by
      obtain ⟨m, rfl⟩ : ∃ m, n = m + 1 := ⟨n - 1, by omega⟩
      obtain ⟨u, r₁, r₂, r₃, hm, hr⟩ := readMember_append h (hv _ List.mem_cons_self) (n := m)
        (by omega) (ends_brace rest)
      exact readMembers_last hm hr
  | .cons h hr, _, n, hv, hn, rest => by
      rw [List.length_append, List.length_cons] at hn
      obtain ⟨m, rfl⟩ : ∃ m, n = m + 1 := ⟨n - 1, by omega⟩
      obtain ⟨u, r₁, r₂, r₃, hm, hr'⟩ := readMember_append h (hv _ List.mem_cons_self) (n := m)
        (by omega) (ends_comma (_ ++ .scalar '\x7d' :: rest))
      have ih := readMembers_append hr (fun e he => hv e (List.mem_cons_of_mem _ he)) (n := m)
        (by omega) rest
      rw [List.append_assoc, List.cons_append]
      exact readMembers_next hm hr' ih

end

/-- A text of strict JSON is read as the value that it stands for, if there is room for its levels.
-/
theorem read_of_denotes {t : Text} {v : Json} (h : Denotes t v) {room : Nat}
    (hv : HasRoom room v) : read room t = .ok v := by
  obtain ⟨c, u, hc⟩ := h.starts
  have hs : skipSpace t = t := by simpa using skipSpace_denotes h []
  have hr : readValue room (2 * t.length + 2) t = .ok (v, []) := by
    simpa using readValue_append h hv (n := 2 * t.length + 1) (by omega) ends_nil
  unfold read
  split
  · exact absurd (List.cons.inj hc.eq).1.symm hc.noMark
  · rw [hs, hr]
    rfl

end Json
end RouteScribe
