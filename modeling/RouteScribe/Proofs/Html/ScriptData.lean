import Mathlib
import RouteScribe.OpenApi.Check

/-! # How the text of a script is read in a page

Behind the tag `<script>` a page is read by rules of their own: nothing counts but the end tag
`</script`, with an exception for old pages that put their scripts into comments.  `<!--` escapes
the script until `-->`, and inside this `<script` escapes it once more; then the next `</script>`
only takes back the second escape and does not end the script.  `State` has the states of the
standard for these rules, and `step` their transitions.

A text without `</` never ends the script, and behind it the script is escaped twice exactly if the
text begins a comment that it does not end and has the tag of a script behind this beginning
(`depth_read_eq_two_iff`).

The states that are met on the way remember the last characters of what has been read, as far as
these can begin something (`pending`).  `moves_step` says what a step can do to them and to the
depth of the escapes; both directions are inductions over the text that use nothing else. -/

namespace RouteScribe
namespace ScriptData

/-- What the reader of a script is about to see. -/
inductive State where
  | plain
  | lessThan
  | endTagOpen
  | endTagName (name : Text)
  | escapeStart
  | escapeStartDash
  | escaped
  | escapedDash
  | escapedDashDash
  | escapedLessThan
  | escapedEndTagOpen
  | escapedEndTagName (name : Text)
  | doubleEscapeStart (name : Text)
  | doubleEscaped
  | doubleEscapedDash
  | doubleEscapedDashDash
  | doubleEscapedLessThan
  | doubleEscapeEnd (name : Text)
  /-- The script has ended. -/
  | closed
deriving DecidableEq, Repr

/-- The letter in lower case, if the code point is an ASCII letter. -/
def letter? : CodePoint → Option CodePoint
  | .scalar c => if c.isAlpha then some (.scalar c.toLower) else none
  | .surrogate _ => none

/-- The code point ends the name of a tag. -/
def endsName (c : CodePoint) : Bool :=
  c = '\t' || c = '\n' || c = '\x0c' || c = ' ' || c = '/' || c = '>'

/-- The name of the element that is read. -/
def scriptName : Text := ['s', 'c', 'r', 'i', 'p', 't']

/-- The next state in a script that is not escaped. -/
def plainStep (c : CodePoint) : State := if c = '<' then .lessThan else .plain

/-- The next state in a script that is escaped once. -/
def escapedStep (c : CodePoint) : State :=
  if c = '-' then .escapedDash else if c = '<' then .escapedLessThan else .escaped

/-- The next state in a script that is escaped twice. -/
def doubleEscapedStep (c : CodePoint) : State :=
  if c = '-' then .doubleEscapedDash else if c = '<' then .doubleEscapedLessThan else .doubleEscaped

/-- The next state inside a name: it goes on, or it ends as the name of the element or as another
one, or it is no name of a tag at all. -/
def nameStep (more : Text → State) (script other none : State) (name : Text) (c : CodePoint) :
    State :=
  match letter? c with
  | some l => more (name ++ [l])
  | .none => if endsName c then if name = scriptName then script else other else none

/-- The state behind the next code point. -/
def step : State → CodePoint → State
  | .plain, c => plainStep c
  | .lessThan, c => if c = '/' then .endTagOpen else if c = '!' then .escapeStart else plainStep c
  | .endTagOpen, c => match letter? c with
    | some l => .endTagName [l]
    | none => plainStep c
  | .endTagName name, c => nameStep .endTagName .closed (plainStep c) (plainStep c) name c
  | .escapeStart, c => if c = '-' then .escapeStartDash else plainStep c
  | .escapeStartDash, c => if c = '-' then .escapedDashDash else plainStep c
  | .escaped, c => escapedStep c
  | .escapedDash, c => if c = '-' then .escapedDashDash else escapedStep c
  | .escapedDashDash, c =>
    if c = '-' then .escapedDashDash else if c = '>' then .plain else escapedStep c
  | .escapedLessThan, c =>
    if c = '/' then .escapedEndTagOpen
    else match letter? c with
      | some l => .doubleEscapeStart [l]
      | none => escapedStep c
  | .escapedEndTagOpen, c => match letter? c with
    | some l => .escapedEndTagName [l]
    | none => escapedStep c
  | .escapedEndTagName name, c =>
    nameStep .escapedEndTagName .closed (escapedStep c) (escapedStep c) name c
  | .doubleEscapeStart name, c =>
    nameStep .doubleEscapeStart .doubleEscaped .escaped (escapedStep c) name c
  | .doubleEscaped, c => doubleEscapedStep c
  | .doubleEscapedDash, c => if c = '-' then .doubleEscapedDashDash else doubleEscapedStep c
  | .doubleEscapedDashDash, c =>
    if c = '-' then .doubleEscapedDashDash else if c = '>' then .plain else doubleEscapedStep c
  | .doubleEscapedLessThan, c => if c = '/' then .doubleEscapeEnd [] else doubleEscapedStep c
  | .doubleEscapeEnd name, c =>
    nameStep .doubleEscapeEnd .escaped .doubleEscaped (doubleEscapedStep c) name c
  | .closed, _ => .closed

/-- The state behind a text. -/
def read (s : State) (t : Text) : State := t.foldl step s

@[simp] theorem read_nil (s : State) : read s [] = s := rfl

@[simp] theorem read_cons (s : State) (c : CodePoint) (t : Text) :
    read s (c :: t) = read (step s c) t := rfl

theorem read_append (s : State) (t u : Text) : read s (t ++ u) = read (read s t) u :=
  List.foldl_append

@[simp] theorem read_closed (t : Text) : read .closed t = .closed := by
  induction t with
  | nil => rfl
  | cons c t ih => exact ih

/-- How often the script is escaped. -/
def State.depth : State → Nat
  | .escaped | .escapedDash | .escapedDashDash | .escapedLessThan | .escapedEndTagOpen
  | .escapedEndTagName _ | .doubleEscapeStart _ => 1
  | .doubleEscaped | .doubleEscapedDash | .doubleEscapedDashDash | .doubleEscapedLessThan
  | .doubleEscapeEnd _ => 2
  | _ => 0

/-! ### Letters of either case -/

theorem ne_of_letter? {c l d : CodePoint} (h : letter? c = some l) (hd : letter? d = none) :
    c ≠ d := by
  rintro rfl
  rw [hd] at h
  cases h

/-- A letter is only looked at in lower case. -/
theorem step_of_letter? {c l : CodePoint} (s : State) (h : letter? c = some l) :
    step s c = match s with
      | .lessThan | .plain | .escapeStart | .escapeStartDash => .plain
      | .endTagOpen => .endTagName [l]
      | .endTagName name => .endTagName (name ++ [l])
      | .escaped | .escapedDash | .escapedDashDash => .escaped
      | .escapedLessThan => .doubleEscapeStart [l]
      | .escapedEndTagOpen => .escapedEndTagName [l]
      | .escapedEndTagName name => .escapedEndTagName (name ++ [l])
      | .doubleEscapeStart name => .doubleEscapeStart (name ++ [l])
      | .doubleEscaped | .doubleEscapedDash | .doubleEscapedDashDash | .doubleEscapedLessThan =>
        .doubleEscaped
      | .doubleEscapeEnd name => .doubleEscapeEnd (name ++ [l])
      | .closed => .closed := by
  have hless := ne_of_letter? h (show letter? '<' = none by decide)
  have hdash := ne_of_letter? h (show letter? '-' = none by decide)
  have hslash := ne_of_letter? h (show letter? '/' = none by decide)
  have hmark := ne_of_letter? h (show letter? '!' = none by decide)
  have hgt := ne_of_letter? h (show letter? '>' = none by decide)
  cases s <;> simp [step, plainStep, escapedStep, doubleEscapedStep, nameStep, h, hless, hdash,
    hslash, hmark, hgt]

theorem letter?_toLower (c : Char) : letter? (.scalar c.toLower) = letter? (.scalar c) := by
  rw [letter?, letter?, Char.isAlpha_toLower_eq_isAlpha, Char.toLower_toLower_eq_toLower]

theorem not_isUpper_of_letter? {c : Char} (h : letter? (.scalar c) = none) : ¬ c.isUpper := by
  intro hu
  simp [letter?, Char.isAlpha, hu] at h

theorem step_toLower (s : State) (c : Char) : step s (.scalar c.toLower) = step s (.scalar c) := by
  cases h : letter? (.scalar c) with
  | some l => rw [step_of_letter? s h, step_of_letter? s (letter?_toLower c ▸ h)]
  | none => rw [Char.toLower_eq_of_not_isUpper (not_isUpper_of_letter? h)]

/-- It does not matter in which case letters are written. -/
theorem read_asciiLower (s : State) (t : Text) : read s (Check.asciiLower t) = read s t := by
  induction t generalizing s with
  | nil => rfl
  | cons c t ih =>
      cases c with
      | scalar c => exact (ih _).trans (congrArg (read · t) (step_toLower s c))
      | surrogate u => exact ih _

/-! ### What a step can do -/

/-- The dashes of a comment, which can stand for its beginning and for its end. -/
def dashes : Text := ['-', '-']

/-- The beginning of a comment. -/
def commentStart : Text := .scalar '<' :: .scalar '!' :: dashes

/-- The end of a comment. -/
def commentEnd : Text := ['-', '-', '>']

/-- The beginning of the tag of a script, in lower case. -/
def scriptTag : Text := .scalar '<' :: scriptName

/-- The beginning of an end tag. -/
def endTag : Text := ['<', '/']

namespace State

/-- The last characters of what has been read, as far as they can begin a comment, its end or a tag.
-/
def pending : State → Text
  | .lessThan | .escapedLessThan | .doubleEscapedLessThan => ['<']
  | .escapeStart => ['<', '!']
  | .escapeStartDash => ['<', '!', '-']
  | .escapedDash | .doubleEscapedDash => ['-']
  | .escapedDashDash | .doubleEscapedDashDash => dashes
  | .doubleEscapeStart name => .scalar '<' :: name
  | _ => []

/-- No end tag is being read. -/
def Inside : State → Prop
  | .endTagOpen | .endTagName _ | .escapedEndTagOpen | .escapedEndTagName _ | .doubleEscapeEnd _
  | .closed => False
  | .doubleEscapeStart name => .scalar '-' ∉ name
  | _ => True

end State

/-- The code point is no upper-case letter. -/
def IsLower (c : CodePoint) : Prop := ∀ l, letter? c = some l → l = c

/-- What the step from one state to another can be, if no end tag begins. -/
inductive Moves (s : State) (c : CodePoint) (t : State) : Prop
  /-- The script is not escaped, and stays so. -/
  | plain (q : Text) (h : s.pending ++ [c] = q ++ t.pending) (hs : s.depth = 0) (ht : t.depth = 0)
  /-- The script stays escaped as it is.  No end of a comment begins in what is forgotten. -/
  | keeps (q : Text) (h : s.pending ++ [c] = q ++ t.pending) (hs : s.depth ≠ 0)
      (ht : t.depth = s.depth)
      (hq : ∀ y, commentEnd <:+: q ++ (t.pending ++ y) → commentEnd <:+: t.pending ++ y)
  /-- A comment begins. -/
  | escapes (h : s.pending ++ [c] = commentStart) (hs : s.depth = 0) (ht : t.depth = 1)
      (hp : t.pending = dashes)
  /-- The tag of a script begins inside the comment. -/
  | doubles (h : s.pending = scriptTag) (hc : endsName c = true) (hs : s.depth = 1)
      (ht : t.depth = 2) (hp : t.pending = [])
  /-- The comment ends. -/
  | ends (h : s.pending ++ [c] = commentEnd) (hs : s.depth ≠ 0) (ht : t.depth = 0)
      (hp : t.pending = [])

variable {s t : State} {c : CodePoint}

/-- No end of a comment begins in a text in front of the code point. -/
def Dull (p : Text) (c : CodePoint) : Prop :=
  ∀ y, commentEnd <:+: p ++ c :: y → commentEnd <:+: c :: y

theorem infix_of_infix_cons (h : c ≠ '-') {y : Text} (hy : commentEnd <:+: c :: y) :
    commentEnd <:+: y := by
  refine (List.infix_cons_iff.mp hy).resolve_left ?_
  intro hp
  exact h (List.cons_prefix_cons.mp hp).1.symm

theorem dull_of_not_mem {p : Text} (h : .scalar '-' ∉ p) (c : CodePoint) : Dull p c := by
  intro y hy
  induction p with
  | nil => exact hy
  | cons d p ih =>
      rw [List.mem_cons, not_or] at h
      exact ih h.2 (infix_of_infix_cons (Ne.symm h.1) hy)

theorem dull_dash (h : c ≠ '-') : Dull ['-'] c := by
  intro y hy
  refine (List.infix_cons_iff.mp hy).resolve_left ?_
  intro hp
  simp [commentEnd, List.cons_prefix_cons, Ne.symm h] at hp

theorem dull_dash_dash (h : c ≠ '-') (h' : c ≠ '>') : Dull dashes c := by
  intro y hy
  refine dull_dash h y ((List.infix_cons_iff.mp hy).resolve_left ?_)
  intro hp
  simp [commentEnd, List.cons_prefix_cons, Ne.symm h'] at hp

theorem Moves.of_dull (hs : s.depth ≠ 0) (ht : t.depth = s.depth) (hd : Dull s.pending c)
    (hp : t.pending = [c] ∨ t.pending = [] ∧ c ≠ '-') : Moves s c t := by
  rcases hp with hp | ⟨hp, hc⟩
  · refine .keeps s.pending (by rw [hp]) hs ht ?_
    rw [hp]
    exact hd
  · refine .keeps (s.pending ++ [c]) (by rw [hp, List.append_nil]) hs ht ?_
    intro y hy
    rw [hp, List.nil_append] at hy ⊢
    rw [List.append_assoc] at hy
    exact infix_of_infix_cons hc (hd y hy)

theorem moves_plainStep (hs : s.depth = 0) (c : CodePoint) :
    (plainStep c).Inside ∧ Moves s c (plainStep c) := by
  unfold plainStep
  split
  · next h => exact ⟨trivial, .plain s.pending (by rw [h]; rfl) hs rfl⟩
  · exact ⟨trivial, .plain (s.pending ++ [c]) (List.append_nil _).symm hs rfl⟩

theorem moves_escapedStep (hs : s.depth = 1) (hd : Dull s.pending c) :
    (escapedStep c).Inside ∧ Moves s c (escapedStep c) := by
  have hs' : s.depth ≠ 0 := by omega
  unfold escapedStep
  split
  · next h => exact ⟨trivial, .of_dull hs' hs.symm hd (.inl (by rw [h]; rfl))⟩
  · next hc =>
      split
      · next h => exact ⟨trivial, .of_dull hs' hs.symm hd (.inl (by rw [h]; rfl))⟩
      · exact ⟨trivial, .of_dull hs' hs.symm hd (.inr ⟨rfl, hc⟩)⟩

theorem moves_doubleEscapedStep (hs : s.depth = 2) (hd : Dull s.pending c) :
    (doubleEscapedStep c).Inside ∧ Moves s c (doubleEscapedStep c) := by
  have hs' : s.depth ≠ 0 := by omega
  unfold doubleEscapedStep
  split
  · next h => exact ⟨trivial, .of_dull hs' hs.symm hd (.inl (by rw [h]; rfl))⟩
  · next hc =>
      split
      · next h => exact ⟨trivial, .of_dull hs' hs.symm hd (.inl (by rw [h]; rfl))⟩
      · exact ⟨trivial, .of_dull hs' hs.symm hd (.inr ⟨rfl, hc⟩)⟩

/-- Dashes in a row can all belong to the end of the comment, but only the last two count. -/
theorem moves_dashes (hs : s.depth ≠ 0) (ht : t.depth = s.depth)
    (hp : s.pending = [.scalar '-'] ∨ s.pending = dashes) (hq : t.pending = dashes) :
    Moves s '-' t := by
  rcases hp with hp | hp
  · exact .keeps [] (by rw [hp, hq]; rfl) hs ht fun y => id
  · refine .keeps ['-'] (by rw [hp, hq]; rfl) hs ht ?_
    rw [hq]
    intro y hy
    refine (List.infix_cons_iff.mp hy).resolve_left ?_
    intro h
    simp [commentEnd, dashes, List.cons_prefix_cons] at h

/-- A name behind a less-than sign goes on, or opens the second level, or was no name at all. -/
theorem moves_doubleEscapeStart {name : Text}
    (hs : (State.doubleEscapeStart name).Inside) (hc : IsLower c) :
    (step (.doubleEscapeStart name) c).Inside ∧
      Moves (.doubleEscapeStart name) c (step (.doubleEscapeStart name) c) := by
  have hname : .scalar '-' ∉ .scalar '<' :: name := by
    rw [List.mem_cons, not_or]
    exact ⟨by decide, hs⟩
  have hd := dull_of_not_mem hname c
  have hpos : State.depth (.doubleEscapeStart name) ≠ 0 := Nat.one_ne_zero
  simp only [step, nameStep]
  split
  · next l hl =>
      cases hc l hl
      have hdash := ne_of_letter? hl (show letter? '-' = none by decide)
      refine ⟨?_, .keeps [] rfl hpos rfl fun y => id⟩
      exact List.not_mem_append hs fun hm => hdash (List.mem_singleton.mp hm).symm
  · split
    · next hend =>
        have hdash : c ≠ '-' := by
          rintro rfl
          cases hend
        split
        · next hn => exact ⟨trivial, .doubles (by rw [hn]; rfl) hend rfl rfl rfl⟩
        · exact ⟨trivial, .of_dull hpos rfl hd (.inr ⟨rfl, hdash⟩)⟩
    · exact moves_escapedStep rfl hd

theorem moves_step (s : State) (hs : s.Inside) (c : CodePoint) (hc : IsLower c)
    (he : ¬ endTag <:+: s.pending ++ [c]) : (step s c).Inside ∧ Moves s c (step s c) := by
  have hslash : s.pending = [.scalar '<'] → c ≠ '/' := by
    rintro hp rfl
    exact he (by rw [hp]; exact List.infix_refl _)
  cases s with
  | plain => exact moves_plainStep rfl c
  | lessThan =>
      simp only [step, if_neg (hslash rfl)]
      split
      · next h => exact ⟨trivial, .plain [] (by rw [h]; rfl) rfl rfl⟩
      · exact moves_plainStep rfl c
  | escapeStart =>
      simp only [step]
      split
      · next h => exact ⟨trivial, .plain [] (by rw [h]; rfl) rfl rfl⟩
      · exact moves_plainStep rfl c
  | escapeStartDash =>
      simp only [step]
      split
      · next h => exact ⟨trivial, .escapes (by rw [h]; rfl) rfl rfl rfl⟩
      · exact moves_plainStep rfl c
  | escaped => exact moves_escapedStep rfl (dull_of_not_mem List.not_mem_nil c)
  | escapedDash =>
      simp only [step]
      split
      · next h => exact ⟨trivial, h ▸ moves_dashes (by decide) rfl (.inl rfl) rfl⟩
      · next h => exact moves_escapedStep rfl (dull_dash h)
  | escapedDashDash =>
      simp only [step]
      split
      · next h => exact ⟨trivial, h ▸ moves_dashes (by decide) rfl (.inr rfl) rfl⟩
      · next h =>
          split
          · next h' => exact ⟨trivial, .ends (by rw [h']; rfl) (by decide) rfl rfl⟩
          · next h' => exact moves_escapedStep rfl (dull_dash_dash h h')
  | escapedLessThan =>
      simp only [step, if_neg (hslash rfl)]
      split
      · next l hl =>
          cases hc l hl
          have hdash := ne_of_letter? hl (show letter? '-' = none by decide)
          refine ⟨?_, .keeps [] rfl (by decide) rfl fun y => id⟩
          exact fun hm => hdash (List.mem_singleton.mp hm).symm
      · exact moves_escapedStep rfl (dull_of_not_mem (by decide) c)
  | doubleEscapeStart name => exact moves_doubleEscapeStart hs hc
  | doubleEscaped => exact moves_doubleEscapedStep rfl (dull_of_not_mem List.not_mem_nil c)
  | doubleEscapedDash =>
      simp only [step]
      split
      · next h => exact ⟨trivial, h ▸ moves_dashes (by decide) rfl (.inl rfl) rfl⟩
      · next h => exact moves_doubleEscapedStep rfl (dull_dash h)
  | doubleEscapedDashDash =>
      simp only [step]
      split
      · next h => exact ⟨trivial, h ▸ moves_dashes (by decide) rfl (.inr rfl) rfl⟩
      · next h =>
          split
          · next h' => exact ⟨trivial, .ends (by rw [h']; rfl) (by decide) rfl rfl⟩
          · next h' => exact moves_doubleEscapedStep rfl (dull_dash_dash h h')
  | doubleEscapedLessThan =>
      simp only [step, if_neg (hslash rfl)]
      exact moves_doubleEscapedStep rfl (dull_of_not_mem (by decide) c)
  | endTagOpen => exact hs.elim
  | endTagName name => exact hs.elim
  | escapedEndTagOpen => exact hs.elim
  | escapedEndTagName name => exact hs.elim
  | doubleEscapeEnd name => exact hs.elim
  | closed => exact hs.elim

/-! ### Reading a text without end tags -/

/-- The step forgets the front of what was pending, and the rest is pending still. -/
theorem Moves.exists_forgotten (h : Moves s c t) : ∃ q, s.pending ++ [c] = q ++ t.pending := by
  cases h with
  | plain q h => exact ⟨q, h⟩
  | keeps q h => exact ⟨q, h⟩
  | escapes h _ _ hp => exact ⟨['<', '!'], by rw [h, hp]; rfl⟩
  | doubles _ _ _ _ hp => exact ⟨_, by rw [hp, List.append_nil]⟩
  | ends _ _ _ hp => exact ⟨_, by rw [hp, List.append_nil]⟩

/-- What is looked for in the rest of the text is looked for behind what is pending. -/
theorem Moves.infix_of_infix (h : Moves s c t) {p x : Text} (hp : p <:+: t.pending ++ x) :
    p <:+: s.pending ++ c :: x := by
  obtain ⟨q, hq⟩ := h.exists_forgotten
  have he : s.pending ++ c :: x = q ++ (t.pending ++ x) := by
    rw [← List.append_assoc, ← hq, List.append_assoc]
    rfl
  exact he ▸ hp.trans (List.suffix_append q _).isInfix

/-- All letters of a text are in lower case. -/
def LowerText (x : Text) : Prop := ∀ c ∈ x, IsLower c

/-- A step in a text without end tags, whose rest is one, too. -/
theorem moves_of_cons {x : Text} (hs : s.Inside) (hx : LowerText (c :: x))
    (he : ¬ endTag <:+: s.pending ++ c :: x) :
    (step s c).Inside ∧ Moves s c (step s c) ∧ LowerText x ∧
      ¬ endTag <:+: (step s c).pending ++ x := by
  have hc : ¬ endTag <:+: s.pending ++ [c] := by
    intro h
    have hsplit : s.pending ++ c :: x = s.pending ++ [c] ++ x := by simp
    exact he (hsplit ▸ h.trans (List.prefix_append _ x).isInfix)
  obtain ⟨hi, hm⟩ := moves_step s hs c (hx c List.mem_cons_self) hc
  exact ⟨hi, hm, fun d hd => hx d (List.mem_cons_of_mem c hd), fun h => he (hm.infix_of_infix h)⟩

theorem inside_read {x : Text} (hs : s.Inside) (hx : LowerText x)
    (he : ¬ endTag <:+: s.pending ++ x) : (read s x).Inside := by
  induction x generalizing s with
  | nil => exact hs
  | cons c x ih =>
      obtain ⟨hi, -, hx, he⟩ := moves_of_cons hs hx he
      exact ih hi hx he

/-! ### What escapes a script twice -/

/-- A script tag stands in the text, which ends no comment. -/
def Doubles (y : Text) : Prop :=
  ¬ commentEnd <:+: y ∧ ∃ v c w, y = v ++ (scriptTag ++ c :: w) ∧ endsName c = true

/-- The text begins a comment behind which a script tag stands and which does not end. -/
def Hides (y : Text) : Prop := ∃ u z, y = u ++ (commentStart ++ z) ∧ Doubles (dashes ++ z)

theorem Hides.append {y : Text} (h : Hides y) (q : Text) : Hides (q ++ y) := by
  obtain ⟨u, z, rfl, hz⟩ := h
  exact ⟨q ++ u, z, by rw [List.append_assoc], hz⟩

/-- What has to stand in a text, read from a state, so that the script is escaped twice behind it.
-/
def Needs (s : State) (y : Text) : Prop :=
  Hides y ∨ s.depth = 1 ∧ Doubles y ∨ s.depth = 2 ∧ ¬ commentEnd <:+: y

theorem not_infix_pending (h : s.depth = 2) : ¬ commentEnd <:+: s.pending := by
  cases s with
  | doubleEscaped | doubleEscapedDash | doubleEscapedDashDash | doubleEscapedLessThan
  | doubleEscapeEnd name =>
      simp [State.pending, commentEnd, dashes, List.infix_cons_iff]
  | _ => cases h

theorem needs_of_depth_read {x : Text} (hs : s.Inside) (hx : LowerText x)
    (he : ¬ endTag <:+: s.pending ++ x) (hd : (read s x).depth = 2) : Needs s (s.pending ++ x) := by
  induction x generalizing s with
  | nil =>
      rw [List.append_nil]
      exact .inr (.inr ⟨hd, not_infix_pending hd⟩)
  | cons c x ih =>
      obtain ⟨hi, hm, hx, he⟩ := moves_of_cons hs hx he
      have hsplit : ∀ q, s.pending ++ [c] = q ++ (step s c).pending →
          s.pending ++ c :: x = q ++ ((step s c).pending ++ x) := by
        intro q hq
        rw [← List.append_assoc, ← hq, List.append_assoc]
        rfl
      rcases ih hi hx he hd with hh | ht
      · obtain ⟨q, hq⟩ := hm.exists_forgotten
        exact .inl (hsplit q hq ▸ hh.append q)
      · cases hm with
        | plain q h hs hd => omega
        | ends h hs hd hp => omega
        | keeps q h hs hd hq =>
            rw [hsplit q h, Needs, ← hd]
            refine .inr (ht.imp ?_ ?_)
            · rintro ⟨hone, hend, v, c', w, hv, hc'⟩
              exact ⟨hone, fun hn => hend (hq x hn), q ++ v, c', w, by rw [hv, List.append_assoc],
                hc'⟩
            · exact fun ⟨htwo, hend⟩ => ⟨htwo, fun hn => hend (hq x hn)⟩
        | escapes h hs hd hp =>
            rw [hp, hd] at ht
            have hx : Doubles (dashes ++ x) := by
              rcases ht with ⟨-, ht⟩ | ⟨ht, -⟩
              · exact ht
              · cases ht
            refine .inl ⟨[], x, ?_, hx⟩
            rw [List.nil_append, ← h, List.append_assoc]
            rfl
        | doubles h hend hs hd hp =>
            rw [hp, hd] at ht
            have hx : ¬ commentEnd <:+: x := by
              rcases ht with ⟨ht, -⟩ | ⟨-, ht⟩
              · cases ht
              · exact ht
            have hdash : c ≠ '-' := by
              rintro rfl
              cases hend
            refine .inr (.inl ⟨hs, ?_, [], c, x, by rw [h]; rfl, hend⟩)
            rw [h]
            exact fun hn => hx (infix_of_infix_cons hdash (dull_of_not_mem (by decide) c x hn))

/-! ### Escapes that last -/

/-- What stands in the rest of a text stands in the text. -/
theorem infix_of_infix_read {p x y : Text} (hs : s.Inside) (hx : LowerText x)
    (he : ¬ endTag <:+: s.pending ++ x) (hp : p <:+: (read s x).pending ++ y) :
    p <:+: s.pending ++ (x ++ y) := by
  induction x generalizing s with
  | nil => exact hp
  | cons c x ih =>
      obtain ⟨hi, hm, hx, he⟩ := moves_of_cons hs hx he
      exact hm.infix_of_infix (ih hi hx he hp)

/-- An escape lasts as long as the comment does not end. -/
theorem depth_le_depth_read {x : Text} (hs : s.Inside) (hx : LowerText x)
    (he : ¬ endTag <:+: s.pending ++ x) (hc : ¬ commentEnd <:+: s.pending ++ x)
    (hd : s.depth ≠ 0) : s.depth ≤ (read s x).depth := by
  induction x generalizing s with
  | nil => exact Nat.le_refl _
  | cons c x ih =>
      obtain ⟨hi, hm, hx, he⟩ := moves_of_cons hs hx he
      have hc' : ¬ commentEnd <:+: (step s c).pending ++ x := fun h => hc (hm.infix_of_infix h)
      have hnext := ih hi hx he hc'
      rw [read_cons]
      cases hm with
      | plain q h hs => exact absurd hs hd
      | escapes h hs => exact absurd hs hd
      | keeps q h hs ht =>
          rw [← ht]
          exact hnext (by omega)
      | doubles h hend hs ht =>
          have := hnext (by omega)
          omega
      | ends h =>
          have hsplit : s.pending ++ c :: x = s.pending ++ [c] ++ x := by simp
          rw [hsplit, h] at hc
          exact absurd (List.prefix_append _ x).isInfix hc

/-- A comment begins wherever its beginning stands. -/
theorem read_commentStart (hs : s.Inside) : (read s commentStart).Inside ∧
    (read s commentStart).depth ≠ 0 ∧ (read s commentStart).pending = dashes := by
  cases s with
  | endTagOpen => exact hs.elim
  | endTagName name => exact hs.elim
  | escapedEndTagOpen => exact hs.elim
  | escapedEndTagName name => exact hs.elim
  | doubleEscapeEnd name => exact hs.elim
  | closed => exact hs.elim
  | _ => exact ⟨trivial, Nat.succ_ne_zero _, rfl⟩

theorem letter?_of_endsName (h : endsName c = true) : letter? c = none := by
  simp only [endsName, Bool.or_eq_true, decide_eq_true_eq] at h
  rcases h with ((((h | h) | h) | h) | h) | h
  all_goals
    rw [h]
    decide

/-- The tag of a script inside a comment escapes a second time. -/
theorem depth_read_scriptTag (hs : s.Inside) (hd : s.depth ≠ 0) (hc : endsName c = true) :
    (read s (scriptTag ++ [c])).depth = 2 := by
  have hless : step s '<' = .escapedLessThan ∨ step s '<' = .doubleEscapedLessThan := by
    cases s with
    | plain | lessThan | escapeStart | escapeStartDash => exact absurd rfl hd
    | endTagOpen => exact hs.elim
    | endTagName name => exact hs.elim
    | escapedEndTagOpen => exact hs.elim
    | escapedEndTagName name => exact hs.elim
    | doubleEscapeEnd name => exact hs.elim
    | closed => exact hs.elim
    | escaped | escapedDash | escapedDashDash | escapedLessThan | doubleEscapeStart name =>
        exact .inl rfl
    | _ => exact .inr rfl
  rw [scriptTag, List.cons_append, read_cons, read_append]
  rcases hless with h | h
  · have hname : read .escapedLessThan scriptName = .doubleEscapeStart scriptName := by decide
    rw [h, hname, read_cons, step, nameStep, letter?_of_endsName hc]
    simp [hc, State.depth]
  · have hname : read .doubleEscapedLessThan scriptName = .doubleEscaped := by decide
    rw [h, hname, read_cons, step, doubleEscapedStep]
    split
    · rfl
    · split <;> rfl

theorem depth_le_two (s : State) : s.depth ≤ 2 := by cases s <;> simp [State.depth]

theorem LowerText.of_infix {x y : Text} (h : LowerText y) (hx : x <:+: y) : LowerText x :=
  fun c hc => h c (hx.subset hc)

theorem infix_of_prefix_append {e p x y : Text} (hx : x <+: y) (h : e <:+: p ++ x) :
    e <:+: p ++ y :=
  h.trans ((List.prefix_append_right_inj p).mpr hx).isInfix

/-- A tag of a script begins behind the dashes that stand in front of it. -/
theorem exists_of_dashes_append {v w z : Text} (h : dashes ++ z = v ++ (scriptTag ++ w)) :
    ∃ u, v = dashes ++ u ∧ z = u ++ (scriptTag ++ w) := by
  rcases List.append_eq_append_iff.mp h with ⟨u, hv, hz⟩ | ⟨u, hv, hz⟩
  · exact ⟨u, hv, hz⟩
  · cases u with
    | nil =>
        rw [List.append_nil] at hv
        exact ⟨[], by rw [hv, List.append_nil], hz.symm⟩
    | cons c u =>
        have hc : c ∈ dashes := hv ▸ List.mem_append_right v List.mem_cons_self
        have he : .scalar '<' = c := (List.cons.inj hz).1
        rw [← he] at hc
        exact absurd hc (by decide)

/-- A tag of a script in a comment that lasts leaves the script escaped twice. -/
theorem depth_read_of_doubles {z : Text} (hs : s.Inside) (hd : s.depth ≠ 0)
    (hp : s.pending = dashes) (hx : LowerText z) (he : ¬ endTag <:+: s.pending ++ z)
    (hz : Doubles (dashes ++ z)) : (read s z).depth = 2 := by
  obtain ⟨hend, v, c, w, hv, hc⟩ := hz
  obtain ⟨u, -, rfl⟩ := exists_of_dashes_append hv
  rw [← hp] at hend
  -- the state in front of the tag
  have hu : u <+: u ++ (scriptTag ++ c :: w) := List.prefix_append u _
  have hxu : LowerText u := hx.of_infix hu.isInfix
  have heu : ¬ endTag <:+: s.pending ++ u := fun h => he (infix_of_prefix_append hu h)
  have hone := depth_le_depth_read hs hxu heu (fun h => hend (infix_of_prefix_append hu h)) hd
  -- the state behind the tag
  have htag : u ++ (scriptTag ++ c :: w) = (u ++ (scriptTag ++ [c])) ++ w := by simp
  have htwo : (read s (u ++ (scriptTag ++ [c]))).depth = 2 := by
    rw [read_append]
    exact depth_read_scriptTag (inside_read hs hxu heu) (by omega) hc
  rw [htag] at hx he hend ⊢
  generalize u ++ (scriptTag ++ [c]) = t at hx he hend htwo ⊢
  have ht : t <+: t ++ w := List.prefix_append t w
  have hxt : LowerText t := hx.of_infix ht.isInfix
  have het : ¬ endTag <:+: s.pending ++ t := fun h => he (infix_of_prefix_append ht h)
  have hle := depth_le_depth_read (inside_read hs hxt het)
    (hx.of_infix (List.suffix_append t w).isInfix)
    (fun h => he (infix_of_infix_read hs hxt het h))
    (fun h => hend (infix_of_infix_read hs hxt het h)) (by omega)
  have hmax := depth_le_two (read s (t ++ w))
  rw [read_append] at hmax ⊢
  omega

theorem depth_read_of_hides {x : Text} (hx : LowerText x) (he : ¬ endTag <:+: x) (h : Hides x) :
    (read .plain x).depth = 2 := by
  obtain ⟨u, z, rfl, hz⟩ := h
  have hu : u <+: u ++ (commentStart ++ z) := List.prefix_append u _
  have hxu : LowerText u := hx.of_infix hu.isInfix
  have heu : ¬ endTag <:+: u := fun h => he (h.trans hu.isInfix)
  obtain ⟨hs, hd, hp⟩ := read_commentStart (inside_read (s := .plain) trivial hxu heu)
  have hz' : dashes ++ z <:+ u ++ (commentStart ++ z) := by
    exact ⟨u ++ [.scalar '<', .scalar '!'], by simp [commentStart]⟩
  rw [read_append, read_append]
  refine depth_read_of_doubles hs hd hp (hx.of_infix ?_) (fun h => he ?_) hz
  · exact ((List.suffix_append dashes z).trans hz').isInfix
  · rw [hp] at h
    exact h.trans hz'.isInfix

/-! ### The whole text -/

theorem lowerText_asciiLower (t : Text) : LowerText (Check.asciiLower t) := by
  intro c hc l hl
  obtain ⟨d, -, rfl⟩ := List.mem_map.mp hc
  cases d with
  | surrogate u => cases hl
  | scalar d =>
      rw [letter?] at hl
      split at hl
      · rw [Char.toLower_toLower_eq_toLower] at hl
        exact (Option.some.inj hl).symm
      · cases hl

theorem eq_of_asciiLower_eq {t p : Text} (hp : ∀ c ∈ p, letter? c = none)
    (h : Check.asciiLower t = p) : t = p := by
  induction t generalizing p with
  | nil => exact h
  | cons c t ih =>
      subst h
      rw [Check.asciiLower, List.map_cons, List.forall_mem_cons] at hp
      have ht : t = Check.asciiLower t := ih hp.2 rfl
      rw [Check.asciiLower, List.map_cons, ← Check.asciiLower, ← ht]
      cases c with
      | surrogate u => rfl
      | scalar c =>
          have hc : letter? (.scalar c.toLower) = none := hp.1
          rw [letter?_toLower] at hc
          have hlow := Char.toLower_eq_of_not_isUpper (not_isUpper_of_letter? hc)
          exact congrArg (fun d => .scalar d :: t) hlow.symm

theorem infix_asciiLower {t : Text} (h : endTag <:+: Check.asciiLower t) : endTag <:+: t := by
  obtain ⟨l, hl, he⟩ := List.infix_map_iff.mp h
  exact eq_of_asciiLower_eq (by decide) he.symm ▸ hl

/-- A text without `</` does not end the script that it begins, however much of it has been read. -/
theorem inside_read_plain {t x : Text} (h : ¬ endTag <:+: t) (hx : x <+: t) :
    (read .plain x).Inside := by
  rw [← read_asciiLower]
  refine inside_read trivial (lowerText_asciiLower x) fun he => h ?_
  exact (infix_asciiLower he).trans hx.isInfix

/-- A text without `</` leaves the script escaped twice exactly if it begins a comment that it does
not end, with the tag of a script behind this beginning. -/
theorem depth_read_eq_two_iff {t : Text} (h : ¬ endTag <:+: t) :
    (read .plain t).depth = 2 ↔ Hides (Check.asciiLower t) := by
  have he : ¬ endTag <:+: Check.asciiLower t := fun he => h (infix_asciiLower he)
  rw [← read_asciiLower]
  constructor
  · intro hd
    have hplain : (State.plain).Inside := trivial
    rcases needs_of_depth_read hplain (lowerText_asciiLower t) he hd with hh | ⟨h, -⟩ | ⟨h, -⟩
    · exact hh
    · cases h
    · cases h
  · exact depth_read_of_hides (lowerText_asciiLower t) he

/-! ### The end of the script -/

/-- The end tag of a script. -/
def scriptEnd : Text := endTag ++ (scriptName ++ [.scalar '>'])

/-- Nothing has begun that the next code points could complete to a tag. -/
def State.Settled : State → Prop
  | .plain | .escaped | .escapedDash | .escapedDashDash | .doubleEscaped | .doubleEscapedDash
  | .doubleEscapedDashDash => True
  | _ => False

/-- A brace settles what has begun. -/
theorem settled_brace (hs : s.Inside) : (step s '\x7d').Settled := by
  cases s with
  | endTagOpen => exact hs.elim
  | endTagName name => exact hs.elim
  | escapedEndTagOpen => exact hs.elim
  | escapedEndTagName name => exact hs.elim
  | doubleEscapeEnd name => exact hs.elim
  | closed => exact hs.elim
  | _ => trivial

theorem settled_step (hs : s.Settled) (h : c ≠ '<') (h' : c ≠ '>') :
    (step s c).Settled ∧ (step s c).depth = s.depth := by
  cases s with
  | plain => simp [step, plainStep, h, State.Settled, State.depth]
  | escaped | escapedDash | escapedDashDash =>
      simp only [step, escapedStep, if_neg h, if_neg h']
      split <;> exact ⟨trivial, rfl⟩
  | doubleEscaped | doubleEscapedDash | doubleEscapedDashDash =>
      simp only [step, doubleEscapedStep, if_neg h, if_neg h']
      split <;> exact ⟨trivial, rfl⟩
  | _ => exact hs.elim

/-- A text without angle brackets changes nothing in a settled state. -/
theorem settled_read {x : Text} (hs : s.Settled) (h : .scalar '<' ∉ x) (h' : .scalar '>' ∉ x) :
    (read s x).Settled ∧ (read s x).depth = s.depth := by
  induction x generalizing s with
  | nil => exact ⟨hs, rfl⟩
  | cons c x ih =>
      rw [List.mem_cons, not_or] at h h'
      obtain ⟨hset, hdepth⟩ := settled_step hs (Ne.symm h.1) (Ne.symm h'.1)
      obtain ⟨hset, hd⟩ := ih hset h.2 h'.2
      exact ⟨hset, hd.trans hdepth⟩

/-- The end tag ends the script unless this is escaped twice, and no part of the tag does. -/
theorem read_scriptEnd (hs : s.Settled) : (read s scriptEnd = .closed ↔ s.depth ≠ 2) ∧
    ∀ x, x <+: scriptEnd → read s x = .closed → x = scriptEnd := by
  have hparts : ∀ P : Text → Prop, (∀ x ∈ scriptEnd.inits, P x) → ∀ x, x <+: scriptEnd → P x :=
    fun P h x hx => h x ((List.mem_inits x scriptEnd).mpr hx)
  cases s with
  | plain | escaped | escapedDash | escapedDashDash | doubleEscaped | doubleEscapedDash
  | doubleEscapedDashDash => exact ⟨by decide, hparts _ (by decide)⟩
  | _ => exact hs.elim

/-- A script of which nothing has been escaped twice ends with its end tag, and not before. -/
theorem read_append_scriptEnd {y : Text} (hs : (read .plain y).Settled)
    (hd : (read .plain y).depth ≠ 2) {x : Text} (hx : x <+: y ++ scriptEnd) :
    read .plain x = .closed ↔ x = y ++ scriptEnd := by
  obtain ⟨hends, honly⟩ := read_scriptEnd hs
  constructor
  · intro hclosed
    rcases List.prefix_or_prefix_of_prefix hx (List.prefix_append y scriptEnd) with h | h
    · obtain ⟨z, rfl⟩ := h
      rw [read_append, hclosed, read_closed] at hs
      exact hs.elim
    · obtain ⟨z, rfl⟩ := h
      rw [read_append] at hclosed
      rw [honly z ((List.prefix_append_right_inj y).mp hx) hclosed]
  · rintro rfl
    rw [read_append]
    exact hends.mpr hd

end ScriptData
end RouteScribe
