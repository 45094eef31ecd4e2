import Mathlib.Data.List.DropRight
import RouteScribe.Json.Printer
import RouteScribe.Proofs.Json.Grammar

/-! # Numbers are written as the grammar asks

An integer is written without leading zeros, and the text stands for it (`numberText_integer`).  A
finite double precision number is written with a fraction or an exponent and without leading zeros,
in every layout (`numberText_finite`); that the text stands for the same number is the property
`Binary64.ReadsBack`. -/

namespace RouteScribe
namespace Json

open Binary64 (Layout)

/-! ### Digits -/

/-- The value of a digit. -/
def digitNat (c : Char) : Nat := c.toNat - '0'.toNat

/-- All characters are decimal digits. -/
def AllDigits (cs : List Char) : Prop := ∀ c ∈ cs, c.isDigit = true

theorem digit?_scalar {c : Char} (h : c.isDigit = true) :
    digit? (.scalar c) = some (digitNat c) := by
  rw [Char.isDigit, Bool.and_eq_true, decide_eq_true_eq, decide_eq_true_eq] at h
  have hge : '0' ≤ c := h.1
  have hle : c ≤ '9' := h.2
  simp [digit?, hge, hle, digitNat]

theorem digits_ofChars {cs : List Char} (h : AllDigits cs) :
    Digits (Text.ofChars cs) (cs.map digitNat) := by
  rw [Text.ofChars, Digits, List.forall₂_map_left_iff, List.forall₂_map_right_iff,
    List.forall₂_same]
  exact fun c hc => digit?_scalar (h c hc)

theorem allDigits_toDigits (n : Nat) : AllDigits (Nat.toDigits 10 n) := fun _ hc =>
  Nat.isDigit_of_mem_toDigits (by decide) (by decide) hc

theorem allDigits_zeros (n : Nat) : AllDigits (List.replicate n '0') := by
  intro c hc
  rw [List.eq_of_mem_replicate hc]
  rfl

theorem AllDigits.append {a b : List Char} (ha : AllDigits a) (hb : AllDigits b) :
    AllDigits (a ++ b) := by
  intro c hc
  exact (List.mem_append.mp hc).elim (ha c) (hb c)

theorem digitsValue_toDigits (n : Nat) : digitsValue ((Nat.toDigits 10 n).map digitNat) = n := by
  rw [digitsValue, List.foldl_map]
  exact Nat.ofDigitChars_ten_toDigits

theorem digitNat_ne_zero {c : Char} (h : c.isDigit = true) (hc : c ≠ '0') : digitNat c ≠ 0 := by
  rw [Char.isDigit, Bool.and_eq_true, decide_eq_true_eq, decide_eq_true_eq] at h
  intro h0
  apply hc
  have hle : c.toNat ≤ 48 := Nat.sub_eq_zero_iff_le.mp h0
  have hge : 48 ≤ c.toNat := h.1
  exact Char.toNat_inj.mp (Nat.le_antisymm hle hge)

theorem digitChar_ne_zero : ∀ n < 10, 0 < n → n.digitChar ≠ '0' := by decide

/-- A positive number does not begin with a zero. -/
theorem exists_toDigits_cons {n : Nat} (h : 0 < n) :
    ∃ c cs, Nat.toDigits 10 n = c :: cs ∧ c ≠ '0' := by
  induction n using Nat.strong_induction_on with
  | _ n ih =>
      by_cases hn : n < 10
      · exact ⟨n.digitChar, [], Nat.toDigits_of_lt_base hn, digitChar_ne_zero n hn h⟩
      · obtain ⟨c, cs, hcs, hc⟩ := ih (n / 10) (by omega) (by omega)
        rw [Nat.toDigits_of_base_le (by decide) (by omega), hcs]
        exact ⟨c, _, rfl, hc⟩

/-! ### The parts of a number -/

/-- Digits that do not begin with a zero are a whole part, and so is a zero alone. -/
theorem whole_ofChars {c : Char} {cs : List Char} (h : AllDigits (c :: cs))
    (hz : c = '0' → cs = []) : Whole (Text.ofChars (c :: cs)) ((c :: cs).map digitNat) := by
  by_cases hc : c = '0'
  · rw [hc, hz hc]
    exact .zero
  · exact .digits (digits_ofChars h) (digitNat_ne_zero (h c List.mem_cons_self) hc)

theorem fraction_ofChars {cs : List Char} (h : AllDigits cs) (hne : cs ≠ []) :
    Fraction (Text.ofChars ('.' :: cs)) (cs.map digitNat) := by
  obtain ⟨c, cs, rfl⟩ := List.exists_cons_of_ne_nil hne
  exact .digits (digits_ofChars h)

theorem exponent_ofChars {sign : Char} (hs : sign = '-' ∨ sign = '+') {cs : List Char}
    (h : AllDigits cs) (hne : cs ≠ []) :
    ∃ e, Exponent (Text.ofChars ('e' :: sign :: cs)) (some e) := by
  obtain ⟨c, cs, rfl⟩ := List.exists_cons_of_ne_nil hne
  rcases hs with rfl | rfl
  · exact ⟨_, .digits (.inl rfl) .minus (digits_ofChars h)⟩
  · exact ⟨_, .digits (.inl rfl) .plus (digits_ofChars h)⟩

/-! ### Integers -/

theorem whole_toDigits (n : Nat) :
    Whole (Text.ofChars (Nat.toDigits 10 n)) ((Nat.toDigits 10 n).map digitNat) := by
  rcases Nat.eq_zero_or_pos n with rfl | hn
  · exact .zero
  · obtain ⟨c, cs, hcs, hc⟩ := exists_toDigits_cons hn
    have hd := allDigits_toDigits n
    rw [hcs] at hd ⊢
    exact whole_ofChars hd fun h => absurd h hc

theorem numberText_integer (n : Int) :
    NumberText (Text.ofChars (numeral (.integer n))) (.integer n) := by
  cases n with
  | ofNat m =>
      have h := NumberText.mk .none (whole_toDigits m) .none .none
      simpa [numberOf, signed, digitsValue_toDigits, numeral, toString, Int.repr] using h
  | negSucc m =>
      have h := NumberText.mk .minus (whole_toDigits (m + 1)) .none .none
      simpa [numberOf, signed, digitsValue_toDigits, numeral, toString, Int.repr, Text.ofChars,
        Int.negSucc_eq] using h

/-! ### Double precision numbers -/

/-- Digits to be laid out with the exponent of the first one: they begin with a zero only if they
are a zero alone. -/
structure Normal (ds : List Char) (order : Int) : Prop where
  digits : AllDigits ds
  ne_nil : ds ≠ []
  zero : ∀ cs, ds = '0' :: cs → cs = [] ∧ order = 0

theorem normal_normal (d : Decimal) : Normal (Layout.normal d).1 (Layout.normal d).2 := by
  rcases Nat.eq_zero_or_pos d.digits with h0 | hpos
  · have hn : Layout.normal d = (['0'], 0) := by simp [Layout.normal, h0]
    rw [hn]
    exact ⟨by simp [AllDigits], by simp, by simp⟩
  · obtain ⟨c, cs, hcs, hc⟩ := exists_toDigits_cons hpos
    have hkept : (c :: cs).rdropWhile (· == '0') ≠ [] := by
      rw [Ne, List.rdropWhile_eq_nil_iff]
      intro h
      exact hc (by simpa using h c List.mem_cons_self)
    have hds : (Layout.normal d).1 = (c :: cs).rdropWhile (· == '0') := by
      rw [Layout.normal, hcs]
      exact if_neg fun h => hkept (List.isEmpty_iff.mp h)
    have hpre : (c :: cs).rdropWhile (· == '0') <+: c :: cs := List.rdropWhile_prefix _ _
    rw [hds]
    refine ⟨?_, hkept, ?_⟩
    · intro x hx
      exact allDigits_toDigits d.digits x (hcs ▸ hpre.subset hx)
    · intro cs' h
      rw [h] at hpre
      exact absurd (List.cons_prefix_cons.mp hpre).1.symm hc

/-- A number without its sign that has a fraction or an exponent. -/
inductive RealBody : Text → Prop where
  | mk {w f x : Text} {ds fs : List Nat} {e : Option Int} (hw : Whole w ds) (hf : Fraction f fs)
      (hx : Exponent x e) (h : e = none → fs ≠ []) : RealBody (w ++ (f ++ x))

section Bodies

variable {ds : List Char} {order : Int}

theorem realBody_exponent (h : Normal ds order) (zero : Bool) {sign : Char}
    (hs : sign = '-' ∨ sign = '+') {power : List Char} (hp : AllDigits power) (hne : power ≠ []) :
    RealBody (Text.ofChars (ds.take 1 ++
      (if (ds.drop 1).isEmpty then (if zero then ['.', '0'] else []) else '.' :: ds.drop 1) ++
        'e' :: sign :: power)) := by
  obtain ⟨c, cs, rfl⟩ := List.exists_cons_of_ne_nil h.ne_nil
  obtain ⟨hc, hcs⟩ := List.forall_mem_cons.mp h.digits
  obtain ⟨e, he⟩ := exponent_ofChars hs hp hne
  have hw : Whole (Text.ofChars [c]) [digitNat c] :=
    whole_ofChars (List.forall_mem_singleton.mpr hc) fun _ => rfl
  obtain ⟨fs, hf⟩ : ∃ fs, Fraction (Text.ofChars
      (if cs.isEmpty then (if zero then ['.', '0'] else []) else '.' :: cs)) fs := by
    cases cs with
    | nil =>
        cases zero with
        | true => exact ⟨_, fraction_ofChars (allDigits_zeros 1) (List.cons_ne_nil _ _)⟩
        | false => exact ⟨_, .none⟩
    | cons d cs => exact ⟨_, fraction_ofChars hcs (List.cons_ne_nil d cs)⟩
  have hbody := RealBody.mk hw hf he nofun
  simpa [Text.ofChars] using hbody

theorem realBody_small (h : Normal ds order) (n : Nat) :
    RealBody (Text.ofChars (['0', '.'] ++ List.replicate n '0' ++ ds)) := by
  have hne : List.replicate n '0' ++ ds ≠ [] := by simp [h.ne_nil]
  have hf := fraction_ofChars ((allDigits_zeros n).append h.digits) hne
  have hbody := RealBody.mk .zero hf .none fun _ => by simpa using hne
  simpa [Text.ofChars] using hbody

theorem realBody_plain (h : Normal ds order) :
    RealBody (Text.ofChars (ds.take (order.toNat + 1) ++
      List.replicate (order.toNat + 1 - (ds.take (order.toNat + 1)).length) '0' ++ ['.'] ++
      (if (ds.drop (order.toNat + 1)).isEmpty then ['0'] else ds.drop (order.toNat + 1)))) := by
  obtain ⟨c, cs, rfl⟩ := List.exists_cons_of_ne_nil h.ne_nil
  obtain ⟨hc, hcs⟩ := List.forall_mem_cons.mp h.digits
  rw [List.take_succ_cons, List.drop_succ_cons, List.length_cons, Nat.add_sub_add_right]
  have hfront : AllDigits (c :: (cs.take order.toNat ++
      List.replicate (order.toNat - (cs.take order.toNat).length) '0')) := by
    have htake : AllDigits (cs.take order.toNat) := fun x hx => hcs x (List.mem_of_mem_take hx)
    exact List.forall_mem_cons.mpr ⟨hc, htake.append (allDigits_zeros _)⟩
  have hw := whole_ofChars hfront fun hz => by
    obtain ⟨rfl, rfl⟩ := h.zero cs (by rw [hz])
    rfl
  have hback : AllDigits (if (cs.drop order.toNat).isEmpty then ['0'] else cs.drop order.toNat) ∧
      (if (cs.drop order.toNat).isEmpty then ['0'] else cs.drop order.toNat) ≠ [] := by
    split
    · exact ⟨allDigits_zeros 1, List.cons_ne_nil _ _⟩
    · next hne => exact ⟨fun x hx => hcs x (List.mem_of_mem_drop hx), fun h => hne (by rw [h]; rfl)⟩
  have hf := fraction_ofChars hback.1 hback.2
  have hbody := RealBody.mk hw hf .none fun _ => by simpa using hback.2
  simpa [Text.ofChars] using hbody

end Bodies

theorem exists_realBody (l : Layout) (x : Binary64) :
    ∃ body, RealBody (Text.ofChars body) ∧
      l.finite x = if x.negative then '-' :: body else body := by
  have hn := normal_normal x.shortest
  unfold Layout.finite
  generalize Layout.normal x.shortest = p at hn ⊢
  obtain ⟨ds, order⟩ := p
  refine ⟨_, ?_, rfl⟩
  split
  · have hpower := (allDigits_zeros (2 - (Nat.toDigits 10 order.natAbs).length)).append
      (allDigits_toDigits order.natAbs)
    have hsign : (if order < 0 then '-' else '+') = '-' ∨
        (if order < 0 then '-' else '+') = '+' := by
      split
      · exact .inl rfl
      · exact .inr rfl
    have hbody := realBody_exponent hn l.pointBeforeExponent hsign hpower (by simp)
    simpa using hbody
  · split
    · exact realBody_small hn _
    · exact realBody_plain hn

/-- A finite number is written as the grammar asks for a number with a fraction or an exponent. -/
theorem numberText_finite (l : Layout) (x : Binary64) :
    ∃ y, NumberText (Text.ofChars (l.finite x)) (.real y) := by
  obtain ⟨body, hbody, hl⟩ := exists_realBody l x
  rw [hl]
  generalize ht : Text.ofChars body = t at hbody
  cases hbody with
  | @mk w f x' ds fs e hw hf hx h =>
      have hreal (negative : Bool) : ∃ y, numberOf negative ds fs e = .real y := by
        cases e with
        | some e => exact ⟨_, rfl⟩
        | none => exact ⟨_, if_neg (by simpa using h rfl)⟩
      cases x.negative with
      | false =>
          obtain ⟨y, hy⟩ := hreal false
          have hnum := NumberText.mk .none hw hf hx
          rw [hy, List.nil_append, ← ht] at hnum
          exact ⟨y, hnum⟩
      | true =>
          obtain ⟨y, hy⟩ := hreal true
          have hnum := NumberText.mk .minus hw hf hx
          rw [hy, ← ht] at hnum
          exact ⟨y, hnum⟩

end Json
end RouteScribe
