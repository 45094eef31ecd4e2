import RouteScribe.Proofs.Json.Reading
import RouteScribe.Proofs.Text.Replace

/-! # A backslash between `<` and `/`

`guarded` puts a backslash into each `</` of a text.  A less-than sign stands in strict JSON only
inside a string, where a solidus may be written with a backslash before it, so the guarded text
stands for the same value (`denotes_guarded`).  The rewriting goes through the rules of the grammar
one by one, as no `</` reaches over the border of two of them: behind every part stands something
other than a solidus (`guarded_append`). -/

namespace RouteScribe
namespace Json

/-- The text with a backslash in each `</`. -/
def guarded (t : Text) : Text := replaceAll "</" "<\\/" t

/-- The text does not begin with a solidus. -/
def NoSolidus (t : Text) : Prop := t.head? ≠ some (.scalar '/')

theorem noSolidus_cons {c : CodePoint} (h : c ≠ '/') (t : Text) : NoSolidus (c :: t) :=
  fun hc => h (Option.some.inj hc)

theorem noSolidus_nil : NoSolidus [] := nofun

/-! ### Rewriting one character after the other -/

theorem mark_ne_nil : ("</" : Text) ≠ [] := List.cons_ne_nil _ _

theorem mark_prefix_iff {c : CodePoint} {s : Text} :
    ("</" : Text) <+: c :: s ↔ .scalar '<' = c ∧ s.head? = some (.scalar '/') :=
  pair_prefix_iff

theorem guarded_cons {c : CodePoint} (h : c ≠ '<') (t : Text) :
    guarded (c :: t) = c :: guarded t :=
  replaceAll_cons fun hp => h (mark_prefix_iff.mp hp).1.symm

theorem guarded_less {t : Text} (h : NoSolidus t) :
    guarded (.scalar '<' :: t) = .scalar '<' :: guarded t :=
  replaceAll_cons fun hp => h (mark_prefix_iff.mp hp).2

theorem guarded_mark (t : Text) :
    guarded (.scalar '<' :: .scalar '/' :: t) =
      .scalar '<' :: .scalar '\\' :: .scalar '/' :: guarded t :=
  replaceAll_pattern mark_ne_nil _ t

/-- What stands before and behind a border that is no solidus is rewritten apart. -/
theorem guarded_append (a : Text) {s : Text} (h : NoSolidus s) :
    guarded (a ++ s) = guarded a ++ guarded s := by
  induction a using replace_induction mark_ne_nil with
  | nil => rfl
  | pattern a ih =>
      change guarded (.scalar '<' :: .scalar '/' :: (a ++ s)) =
        guarded (.scalar '<' :: .scalar '/' :: a) ++ guarded s
      rw [guarded_mark, guarded_mark, ih]
      rfl
  | cons c a hc ih =>
      have hc' : ¬ ("</" : Text) <+: c :: (a ++ s) := by
        rw [mark_prefix_iff] at hc ⊢
        rintro ⟨hless, hsolidus⟩
        cases a with
        | nil => exact h hsolidus
        | cons d a => exact hc ⟨hless, hsolidus⟩
      unfold guarded at ih ⊢
      rw [List.cons_append, replaceAll_cons hc', replaceAll_cons hc, ih, List.cons_append]

theorem guarded_append_of_not_mem {a : Text} (h : .scalar '<' ∉ a) (s : Text) :
    guarded (a ++ s) = a ++ guarded s := by
  induction a with
  | nil => rfl
  | cons c a ih =>
      rw [List.mem_cons, not_or] at h
      rw [List.cons_append, guarded_cons (Ne.symm h.1), ih h.2, List.cons_append]

theorem guarded_eq_self {a : Text} (h : .scalar '<' ∉ a) : guarded a = a := by
  simpa [guarded, replaceAll, replaceFrom] using guarded_append_of_not_mem h []

/-! ### Blanks, numbers and strings -/

theorem Blank.not_mem_less {b : Text} (hb : Blank b) : .scalar '<' ∉ b := fun h =>
  absurd (hb _ h) (by decide)

theorem noSolidus_blank_append {b s : Text} (hb : Blank b) (hs : NoSolidus s) :
    NoSolidus (b ++ s) := by
  cases b with
  | nil => exact hs
  | cons c b =>
      rintro ⟨⟩
      exact absurd (hb _ List.mem_cons_self) (by decide)

theorem Digits.not_mem_less {t : Text} {ds : List Nat} (h : Digits t ds) : .scalar '<' ∉ t := by
  induction h with
  | nil => exact List.not_mem_nil
  | cons hc _ ih =>
      rw [List.mem_cons, not_or]
      exact ⟨(ne_of_digit hc rfl).symm, ih⟩

theorem NumberText.not_mem_less {t : Text} {n : Number} (h : NumberText t n) :
    .scalar '<' ∉ t := by
  cases h with
  | mk hs hw hf hx =>
      simp only [List.mem_append, not_or]
      refine ⟨?_, ?_, ?_, ?_⟩
      · cases hs <;> decide
      · cases hw with
        | zero => decide
        | digits h => exact h.not_mem_less
      · cases hf with
        | none => exact List.not_mem_nil
        | digits h => simpa using h.not_mem_less
      · cases hx with
        | none => exact List.not_mem_nil
        | digits he hs h =>
            rcases he with rfl | rfl <;> cases hs <;> simpa using h.not_mem_less

theorem hexDigit_ne_less {a b c d : CodePoint} {n : Nat} (h : hex4? a b c d = some n) :
    a ≠ '<' ∧ b ≠ '<' ∧ c ≠ '<' ∧ d ≠ '<' := by
  have hless : hexDigit? (.scalar '<') = none := rfl
  refine ⟨?_, ?_, ?_, ?_⟩ <;> rintro rfl <;> simp [hex4?, hless] at h

/-- Behind a less-than sign the rest of a string begins with a solidus, which takes an escape, or
with anything else, which stays. -/
theorem stringBody_guarded_less {t : Text} {ps : List Piece} (h : StringBody t ps)
    (ih : StringBody (guarded t) ps) :
    StringBody (guarded (.scalar '<' :: t)) (.plain (.scalar '<') :: ps) := by
  cases h with
  | nil => exact .plain (by decide) (by decide) (by decide) .nil
  | short =>
      rw [guarded_less (noSolidus_cons (by decide) _)]
      exact .plain (by decide) (by decide) (by decide) ih
  | unit =>
      rw [guarded_less (noSolidus_cons (by decide) _)]
      exact .plain (by decide) (by decide) (by decide) ih
  | @plain c t ps hq hb hc h =>
      by_cases hs : c = .scalar '/'
      · subst hs
        rw [guarded_cons (by decide)] at ih
        rw [guarded_mark]
        cases ih with
        | plain _ _ _ ih => exact .plain (by decide) (by decide) (by decide) (.short rfl ih)
      · rw [guarded_less (noSolidus_cons hs t)]
        exact .plain (by decide) (by decide) (by decide) ih

theorem stringBody_guarded {t : Text} {ps : List Piece} (h : StringBody t ps) :
    StringBody (guarded t) ps := by
  induction h with
  | nil => exact .nil
  | @plain c t ps hq hb hc h ih =>
      by_cases hl : c = .scalar '<'
      · subst hl
        exact stringBody_guarded_less h ih
      · rw [guarded_cons hl]
        exact .plain hq hb hc ih
  | @short e x t ps he _ ih =>
      have hl : e ≠ .scalar '<' := by
        rintro rfl
        cases he
      rw [guarded_cons (by decide), guarded_cons hl]
      exact .short he ih
  | unit hn _ ih =>
      obtain ⟨ha, hb, hc, hd⟩ := hexDigit_ne_less hn
      rw [guarded_cons (by decide), guarded_cons (by decide), guarded_cons ha, guarded_cons hb,
        guarded_cons hc, guarded_cons hd]
      exact .unit hn ih

theorem stringText_guarded {t s : Text} (h : StringText t s) : StringText (guarded t) s := by
  cases h with
  | mk h =>
      rw [guarded_cons (by decide), guarded_append _ (noSolidus_cons (by decide) [])]
      exact .mk (stringBody_guarded h)

/-! ### Values -/

/-- Rewriting between two brackets leaves the brackets alone. -/
theorem guarded_bracketed {o c : CodePoint} (ho : o ≠ '<') (hc : c ≠ '<') (hs : c ≠ '/')
    (t : Text) : guarded (o :: (t ++ [c])) = o :: (guarded t ++ [c]) := by
  rw [guarded_cons ho, guarded_append t (noSolidus_cons hs []), guarded_cons hc]
  rfl

theorem guarded_comma (t r : Text) :
    guarded (t ++ .scalar ',' :: r) = guarded t ++ .scalar ',' :: guarded r := by
  rw [guarded_append t (noSolidus_cons (by decide) r), guarded_cons (by decide)]

mutual

theorem denotes_guarded {t : Text} {v : Json} : Denotes t v → Denotes (guarded t) v
  | .null => .null
  | .isTrue => .isTrue
  | .isFalse => .isFalse
  | .num h => by
      rw [guarded_eq_self h.not_mem_less]
      exact .num h
  | .str h => .str (stringText_guarded h)
  | .emptyArr hb => by
      rw [guarded_bracketed (by decide) (by decide) (by decide), guarded_eq_self hb.not_mem_less]
      exact .emptyArr hb
  | .arr h => by
      have ih := items_guarded h
      rw [guarded_bracketed (by decide) (by decide) (by decide)]
      exact .arr ih
  | .emptyObj hb => by
      rw [guarded_bracketed (by decide) (by decide) (by decide), guarded_eq_self hb.not_mem_less]
      exact .emptyObj hb
  | .obj h hn => by
      have ih := members_guarded h
      rw [guarded_bracketed (by decide) (by decide) (by decide)]
      exact .obj ih hn

theorem item_guarded {t : Text} {v : Json} : Item t v → Item (guarded t) v
  | .mk ha h hb => by
      have ih := denotes_guarded h
      have hs := noSolidus_blank_append hb noSolidus_nil
      rw [List.append_nil] at hs
      rw [guarded_append_of_not_mem ha.not_mem_less, guarded_append _ hs,
        guarded_eq_self hb.not_mem_less]
      exact .mk ha ih hb

theorem items_guarded {t : Text} {vs : List Json} : Items t vs → Items (guarded t) vs
  | .one h => .one (item_guarded h)
  | .cons h hr => by
      have ih := item_guarded h
      have ihr := items_guarded hr
      rw [guarded_comma]
      exact .cons ih ihr

theorem member_guarded {t : Text} {m : Text × Json} : Member t m → Member (guarded t) m
  | .mk ha hk hb h => by
      have ih := item_guarded h
      rw [guarded_append_of_not_mem ha.not_mem_less,
        guarded_append _ (noSolidus_blank_append hb (noSolidus_cons (by decide) _)),
        guarded_append_of_not_mem hb.not_mem_less, guarded_cons (by decide)]
      exact .mk ha (stringText_guarded hk) hb ih

theorem members_guarded {t : Text} {ms : List (Text × Json)} :
    Members t ms → Members (guarded t) ms
  | .one h => .one (member_guarded h)
  | .cons h hr => by
      have ih := member_guarded h
      have ihr := members_guarded hr
      rw [guarded_comma]
      exact .cons ih ihr

end

/-- No `</` is left. -/
theorem not_infix_guarded (t : Text) : ¬ ("</" : Text) <:+: guarded t := by
  have hzero : occurrences ("</" : Text) (guarded t) = 0 :=
    occurrences_replaceAll_pair (by decide) (by decide) (by decide) t
  exact (occurrences_eq_zero_iff mark_ne_nil).mp hzero

end Json
end RouteScribe
