import RouteScribe.Proofs.Routes.Methods
import RouteScribe.Routes.Handler

/-! # What a source text exports, piece by piece

An export is a chain of words and blanks, so none goes over a parenthesis, a brace or a sign of
equality: what a text exports is what the pieces between such characters export
(`exports_divided`).  The header of a handler exports the method that it names (`exports_header`). -/

namespace RouteScribe
namespace Source

/-! ### Characters that no export goes over -/

/-- The words in an export. -/
def words : List (List Char) :=
  ["export".toList, "async".toList] ++ declarations ++ methodNames

theorem export_mem_words : "export".toList ∈ words := List.mem_cons_self

theorem async_mem_words : "async".toList ∈ words := List.mem_cons_of_mem _ List.mem_cons_self

theorem declaration_mem_words {d : List Char} (h : d ∈ declarations) : d ∈ words :=
  List.mem_append_left _ (List.mem_append_right _ h)

theorem methodName_mem_words {w : List Char} (h : w ∈ methodNames) : w ∈ words :=
  List.mem_append_right _ h

/-- The letters of these words. -/
def letters : List Char := "exportasyncfuilvGETPOSUACHDLIN".toList

theorem mem_letters : ∀ w ∈ words, ∀ p ∈ w, p ∈ letters := by
  have hall : ∀ w ∈ words, w.all letters.contains = true := by decide +kernel
  intro w hw p hp
  exact List.contains_iff_mem.mp (List.all_eq_true.mp (hall w hw) p hp)

/-- The character is neither a blank nor part of a word in an export. -/
structure Divides (c : Char) : Prop where
  noBlank : isBlank c = false
  noWord : isWord c = false
  noLetter : ∀ p ∈ letters, sameLetter p c = false

theorem noLetter_of_sign {c : Char} (hc : IsSign c) : ∀ p ∈ letters, sameLetter p c = false := by
  have hletters : letters.all (fun p => !decide (IsSign p)) = true := by decide
  intro p hp
  refine Bool.eq_false_iff.mpr fun h => ?_
  have hsign := List.all_eq_true.mp hletters p hp
  rw [eq_of_sameLetter hc h, decide_eq_true hc] at hsign
  cases hsign

/-- The signs between the pieces of a handler. -/
def dividers : List Char := ['(', ')', '\x7b', '\x7d']

theorem divides_of_mem {c : Char} (hc : c ∈ dividers) : Divides c := by
  have hall : (dividers.all fun c =>
      !isBlank c && !isWord c && letters.all fun p => !sameLetter p c) = true := by decide +kernel
  have hown := List.all_eq_true.mp hall c hc
  simp only [Bool.and_eq_true, Bool.not_eq_true', List.all_eq_true] at hown
  exact ⟨hown.1.1, hown.1.2, hown.2⟩

variable {c : Char} {w a b s r : List Char} {ws : List (List Char)}

theorem word?_divided (hw : ∀ p ∈ w, sameLetter p c = false) :
    word? w (a ++ c :: b) = (word? w a).map (· ++ c :: b) := by
  induction w generalizing a with
  | nil => rfl
  | cons p w ih =>
      rw [List.forall_mem_cons] at hw
      cases a with
      | nil => simp [word?, hw.1]
      | cons d a =>
          rw [List.cons_append, word?, word?, ih hw.2]
          split <;> rfl

theorem dropWhile_divided {p : Char → Bool} (hc : p c = false) :
    (a ++ c :: b).dropWhile p = a.dropWhile p ++ c :: b := by
  induction a with
  | nil => simp [hc]
  | cons d a ih =>
      rw [List.cons_append, List.dropWhile_cons, List.dropWhile_cons, ih]
      split <;> rfl

theorem blanks?_divided (hc : isBlank c = false) :
    blanks? (a ++ c :: b) = (blanks? a).map (· ++ c :: b) := by
  cases a with
  | nil => simp [blanks?, hc]
  | cons d a =>
      rw [List.cons_append, blanks?, blanks?, dropWhile_divided hc]
      split <;> rfl

theorem optionalWord_divided (hc : isBlank c = false) (hw : ∀ p ∈ w, sameLetter p c = false) :
    optionalWord w (a ++ c :: b) = optionalWord w a ++ c :: b := by
  unfold optionalWord
  rw [word?_divided hw]
  cases word? w a with
  | none => rfl
  | some r =>
      have hblanks := blanks?_divided (a := r) (b := b) hc
      rw [Option.map_some, Option.bind_some, Option.bind_some, hblanks]
      cases blanks? r <;> rfl

/-- A search whose results all change in one way. -/
theorem findSome?_eq_map {α β γ : Type} {l : List α} {f : α → Option β} {g : α → Option γ}
    {k : γ → β} (h : ∀ x ∈ l, f x = (g x).map k) : l.findSome? f = (l.findSome? g).map k := by
  induction l with
  | nil => rfl
  | cons x l ih =>
      rw [List.forall_mem_cons] at h
      rw [List.findSome?_cons, List.findSome?_cons, h.1, ih h.2]
      cases g x <;> rfl

theorem oneOf?_divided (hws : ∀ w ∈ ws, ∀ p ∈ w, sameLetter p c = false) :
    oneOf? ws (a ++ c :: b) = (oneOf? ws a).map (· ++ c :: b) :=
  findSome?_eq_map fun w hw => word?_divided (hws w hw)

theorem word?_eq_some_iff : word? w s = some r ↔ ∃ x, s = x ++ r ∧ sameWord w x = true := by
  induction w generalizing s with
  | nil =>
      constructor
      · intro h
        cases h
        exact ⟨[], rfl, rfl⟩
      · rintro ⟨x, rfl, hx⟩
        cases x with
        | nil => rfl
        | cons c x => cases hx
  | cons p w ih =>
      cases s with
      | nil =>
          refine ⟨nofun, ?_⟩
          rintro ⟨x, hs, hx⟩
          rw [(List.append_eq_nil_iff.mp hs.symm).1] at hx
          cases hx
      | cons c s =>
          rw [word?, Option.ite_none_right_eq_some, ih]
          constructor
          · rintro ⟨hc, x, rfl, hx⟩
            exact ⟨c :: x, rfl, by rw [sameWord, hc, hx]; rfl⟩
          · rintro ⟨x, hs, hx⟩
            cases x with
            | nil => cases hx
            | cons d x =>
                obtain ⟨rfl, rfl⟩ := List.cons.inj hs
                rw [sameWord, Bool.and_eq_true] at hx
                exact ⟨hx.1, x, rfl, hx.2⟩

theorem length_le_of_word? (h : word? w s = some r) : w.length ≤ s.length := by
  induction w generalizing s with
  | nil => exact Nat.zero_le _
  | cons p w ih =>
      cases s with
      | nil => cases h
      | cons d s =>
          rw [word?, Option.ite_none_right_eq_some] at h
          exact Nat.succ_le_succ (ih h.2)

theorem wordEnds_divided (hc : isWord c = false) : wordEnds (a ++ c :: b) = wordEnds a := by
  cases a with
  | nil => simp [wordEnds, hc]
  | cons d a => rfl

/-- What stands behind a divider plays no part in a search. -/
def behind (c : Char) (b : List Char) (x : List Char × List Char) : List Char × List Char :=
  (x.1, x.2 ++ c :: b)

theorem methodName?_divided (hw : isWord c = false) (hl : ∀ p ∈ letters, sameLetter p c = false) :
    methodName? (a ++ c :: b) = (methodName? a).map (behind c b) := by
  refine findSome?_eq_map fun w hmem => ?_
  have hword : ∀ p ∈ w, sameLetter p c = false := fun p hp =>
    hl p (mem_letters w (methodName_mem_words hmem) p hp)
  rw [word?_divided hword]
  cases hr : word? w a with
  | none => rfl
  | some r =>
      have hlen := length_le_of_word? hr
      rw [Option.map_some, Option.bind_some, Option.bind_some, wordEnds_divided hw,
        List.take_append_of_le_length hlen]
      split <;> rfl

theorem exportHere?_eq (s : List Char) : exportHere? s =
    (word? "export".toList s).bind fun s => (blanks? s).bind fun s =>
      (oneOf? declarations (optionalWord "async".toList s)).bind fun s =>
        (blanks? s).bind methodName? := rfl

section Divided

variable (hc : Divides c)
include hc

theorem Divides.noLetter_of_word (hw : w ∈ words) : ∀ p ∈ w, sameLetter p c = false := fun p hp =>
  hc.noLetter p (mem_letters w hw p hp)

theorem exportHere?_divided : exportHere? (a ++ c :: b) = (exportHere? a).map (behind c b) := by
  have hbind {β : Type} (x : Option (List Char)) (f : List Char → Option β) (g : β → β)
      (hf : ∀ r, f (r ++ c :: b) = (f r).map g) :
      (x.map (· ++ c :: b)).bind f = (x.bind f).map g := by
    cases x with
    | none => rfl
    | some r => exact hf r
  rw [exportHere?_eq, exportHere?_eq, word?_divided (hc.noLetter_of_word export_mem_words)]
  refine hbind _ _ _ fun r => ?_
  rw [blanks?_divided hc.noBlank]
  refine hbind _ _ _ fun r => ?_
  rw [optionalWord_divided hc.noBlank (hc.noLetter_of_word async_mem_words),
    oneOf?_divided fun w hw => hc.noLetter_of_word (declaration_mem_words hw)]
  refine hbind _ _ _ fun r => ?_
  rw [blanks?_divided hc.noBlank]
  exact hbind _ _ _ fun r => methodName?_divided hc.noWord hc.noLetter

/-- The exports of a text up to a divider and those behind it follow each other. -/
theorem exportsFrom_divided {skip : Nat} (hskip : skip ≤ a.length) :
    exportsFrom skip (a ++ c :: b) = exportsFrom skip a ++ exports b := by
  induction a generalizing skip with
  | nil =>
      obtain rfl := Nat.le_zero.mp hskip
      have hhere : exportHere? (c :: b) = none := exportHere?_divided (a := []) hc
      rw [List.nil_append]
      unfold exportsFrom
      rw [hhere]
      rfl
  | cons d a ih =>
      cases skip with
      | succ skip =>
          have hle : skip ≤ a.length := Nat.le_of_succ_le_succ hskip
          rw [List.cons_append]
          unfold exportsFrom
          exact ih hle
      | zero =>
          have hhere : exportHere? (d :: (a ++ c :: b)) = (exportHere? (d :: a)).map (behind c b) :=
            exportHere?_divided (a := d :: a) hc
          rw [List.cons_append]
          unfold exportsFrom
          rw [hhere]
          cases exportHere? (d :: a) with
          | none => exact ih (Nat.zero_le _)
          | some x =>
              have hlen : (a ++ c :: b).length - (x.2 ++ c :: b).length = a.length - x.2.length := by
                simp only [List.length_append, List.length_cons]
                omega
              show x.1 :: exportsFrom ((a ++ c :: b).length - (x.2 ++ c :: b).length) _ =
                x.1 :: exportsFrom (a.length - x.2.length) a ++ exports b
              rw [hlen, ih (Nat.sub_le _ _)]
              rfl

theorem exports_divided (a b : List Char) : exports (a ++ c :: b) = exports a ++ exports b :=
  exportsFrom_divided hc (Nat.zero_le _)

theorem exports_divider (b : List Char) : exports (c :: b) = exports b := by
  have hnil : exports [] = [] := rfl
  have h := exports_divided hc [] b
  rwa [hnil, List.nil_append, List.nil_append] at h

end Divided

/-! ### The header of an export -/

theorem word?_append (w s : List Char) : word? w (w ++ s) = some s := by
  induction w with
  | nil => rfl
  | cons p w ih =>
      rw [List.cons_append]
      unfold word?
      rw [if_pos (sameLetter_self p), ih]

/-- The text begins with no blank. -/
def StartsWord (s : List Char) : Prop := ∀ c ∈ s.head?, isBlank c = false

instance (s : List Char) : Decidable (StartsWord s) :=
  decidable_of_iff (s.head?.all (fun c => !isBlank c) = true) (by
    unfold StartsWord
    cases s.head? <;> simp)

theorem StartsWord.append {w : List Char} (h : StartsWord w) (hw : w ≠ []) (s : List Char) :
    StartsWord (w ++ s) := by
  unfold StartsWord
  rw [List.head?_append_of_ne_nil _ hw]
  exact h

theorem StartsWord.skipBlanks (hs : StartsWord s) : skipBlanks s = s := by
  cases s with
  | nil => rfl
  | cons d s =>
      unfold Source.skipBlanks
      rw [List.dropWhile_cons_of_neg (by rw [hs d rfl]; exact Bool.false_ne_true)]

theorem StartsWord.blanks? (hs : StartsWord s) : blanks? (' ' :: s) = some s := by
  have hskip : s.dropWhile isBlank = s := hs.skipBlanks
  rw [Source.blanks?, if_pos (by decide), hskip]

/-- A word is over at a sign. -/
theorem word?_sign {d : List Char} (hc : IsSign c) (hw : w ∈ words) (b : List Char) :
    word? w (d ++ c :: b) = (word? w d).map (· ++ c :: b) :=
  word?_divided fun p hp => noLetter_of_sign hc p (mem_letters w hw p hp)

/-- The word that may stand before a function. -/
def asyncWord (isAsync : Bool) : List Char := if isAsync then "async ".toList else []

theorem startsWord_asyncWord (isAsync : Bool) (hs : StartsWord s) :
    StartsWord (asyncWord isAsync ++ s) := by
  cases isAsync with
  | false => exact hs
  | true =>
      rintro c ⟨⟩
      decide

theorem optionalWord_asyncWord (isAsync : Bool) (hnone : word? "async".toList s = none)
    (hs : StartsWord s) : optionalWord "async".toList (asyncWord isAsync ++ s) = s := by
  unfold optionalWord
  cases isAsync with
  | false =>
      show ((word? _ s).bind Source.blanks?).getD s = s
      rw [hnone]
      rfl
  | true =>
      show ((word? _ ("async".toList ++ ' ' :: s)).bind Source.blanks?).getD _ = s
      rw [word?_append, Option.bind_some, hs.blanks?]
      rfl

/-- The header of an exported handler: what declares it, and the name of its method. -/
def header (isAsync : Bool) (d : List Char) (m : Method) : List Char :=
  "export".toList ++ ' ' :: (asyncWord isAsync ++ (d ++ ' ' :: upper m))

/-- What the searches see in a word that declares, when it stands alone. -/
theorem declaration_alone : ∀ d ∈ declarations, d ≠ [] ∧ StartsWord d ∧
    word? "async".toList d = none ∧ oneOf? declarations d = some [] := by decide +kernel

/-- What they see in the name of a method. -/
theorem name_alone : ∀ m ∈ Method.known, upper m ≠ [] ∧ StartsWord (upper m) ∧
    methodName? (upper m) = some (upper m, []) ∧ lower (upper m) = m := by decide +kernel

section Declarations

variable {d : List Char} (hd : d ∈ declarations)
include hd

theorem startsWord_declaration (s : List Char) : StartsWord (d ++ s) :=
  StartsWord.append (declaration_alone d hd).2.1 (declaration_alone d hd).1 s

theorem word?_async_declaration (s : List Char) :
    word? "async".toList (d ++ ' ' :: s) = none := by
  rw [word?_sign (by decide) async_mem_words, (declaration_alone d hd).2.2.1]
  rfl

theorem oneOf?_declaration (s : List Char) :
    oneOf? declarations (d ++ ' ' :: s) = some (' ' :: s) := by
  have hspace : oneOf? declarations (d ++ ' ' :: s) = (oneOf? declarations d).map (· ++ ' ' :: s) :=
    findSome?_eq_map fun w hw => word?_sign (by decide) (declaration_mem_words hw) s
  rw [hspace, (declaration_alone d hd).2.2.2]
  rfl

end Declarations

theorem startsWord_upper {m : Method} (hm : m ∈ Method.known) (s : List Char) :
    StartsWord (upper m ++ s) :=
  StartsWord.append (name_alone m hm).2.1 (name_alone m hm).1 s

theorem exportsFrom_append (a b : List Char) : exportsFrom a.length (a ++ b) = exports b := by
  induction a with
  | nil => rfl
  | cons c a ih =>
      rw [List.length_cons, List.cons_append]
      unfold exportsFrom
      exact ih

theorem exports_of_none (h : exportHere? (c :: s) = none) : exports (c :: s) = exports s := by
  show exportsFrom 0 (c :: s) = exportsFrom 0 s
  conv_lhs => unfold exportsFrom
  rw [h]

/-- An export is told, and the search goes on behind it. -/
theorem exports_of_exportHere? {name : List Char}
    (h : exportHere? (c :: (a ++ b)) = some (name, b)) : exports (c :: (a ++ b)) = name :: exports b := by
  have hlen : (a ++ b).length - b.length = a.length := by
    rw [List.length_append]
    omega
  show exportsFrom 0 (c :: (a ++ b)) = _
  conv_lhs => unfold exportsFrom
  rw [h]
  show name :: exportsFrom ((a ++ b).length - b.length) (a ++ b) = _
  rw [hlen, exportsFrom_append]

theorem header_append (isAsync : Bool) (d : List Char) (m : Method) (s : List Char) :
    header isAsync d m ++ s =
      "export".toList ++ ' ' :: (asyncWord isAsync ++ (d ++ ' ' :: (upper m ++ s))) := by
  unfold header
  rw [List.append_assoc, List.cons_append, List.append_assoc, List.append_assoc, List.cons_append]

/-- The header of a handler exports the method that it names. -/
theorem exports_header (isAsync : Bool) {d : List Char} (hd : d ∈ declarations) {m : Method}
    (hm : m ∈ Method.known) (hc : IsSign c) (hw : isWord c = false) (b : List Char) :
    exports (header isAsync d m ++ c :: b) = upper m :: exports (c :: b) := by
  have hmethod : methodName? (upper m ++ c :: b) = some (upper m, c :: b) := by
    rw [methodName?_divided hw (noLetter_of_sign hc), (name_alone m hm).2.2.1]
    rfl
  have hdecl := startsWord_declaration hd (' ' :: (upper m ++ c :: b))
  have hhere : exportHere? (header isAsync d m ++ c :: b) = some (upper m, c :: b) := by
    rw [header_append, exportHere?_eq, word?_append, Option.bind_some,
      (startsWord_asyncWord isAsync hdecl).blanks?, Option.bind_some,
      optionalWord_asyncWord isAsync (word?_async_declaration hd _) hdecl, oneOf?_declaration hd,
      Option.bind_some, (startsWord_upper hm _).blanks?, Option.bind_some]
    exact hmethod
  have hfirst : header isAsync d m ++ c :: b = 'e' :: ((header isAsync d m).tail ++ c :: b) := rfl
  rw [hfirst] at hhere ⊢
  exact exports_of_exportHere? hhere

end Source

open Source

theorem mem_exportedMethods {s : List Char} {m : Method} :
    m ∈ exportedMethods s ↔ ∃ name ∈ exports s, lower name = m := by
  rw [exportedMethods, Method.sort, (List.mergeSort_perm _ _).mem_iff, List.mem_eraseDups,
    List.mem_map]

theorem lower_upper {m : Method} (hm : m ∈ Method.known) : lower (upper m) = m :=
  (name_alone m hm).2.2.2

/-- A text exports one method only if the list of its methods is this one. -/
theorem exportedMethods_eq_singleton_iff {s : List Char} {m : Method} :
    exportedMethods s = [m] ↔ ∀ n, n ∈ exportedMethods s ↔ n = m := by
  constructor
  · intro h n
    rw [h, List.mem_singleton]
  · intro h
    have hperm : (exportedMethods s).Perm [m] :=
      (List.perm_ext_iff_of_nodup (nodup_exportedMethods s) (List.nodup_singleton m)).mpr fun n => by
        rw [h n, List.mem_singleton]
    exact List.perm_singleton.mp hperm

end RouteScribe
