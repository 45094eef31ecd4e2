import RouteScribe.Proofs.Routes.Clear
import RouteScribe.Proofs.Routes.Cut
import RouteScribe.Proofs.Text.Split

/-! # Handlers as they are usually written

A handler in its usual form (`Conventional`) is a header, at whose first letter the only export in it
begins, and a clear text up to its last brace.  So a search of a file meets its handlers one by one
(`WrittenIn.leftmost?_eq`), and each of the two searches answers at its own form and method only
(`Conventional.functionHere?_written`, `Conventional.arrowHere?_written`).  A file of such handlers
is therefore read back as it was written (`readBack_of_writtenIn`). -/

namespace RouteScribe

open Source

/-! ### Bodies and parameters -/

namespace Handler

variable {name s rest back body params : List Char} {c : Char}

theorem body?_append (h : ¬ ['\n', '\x7d'] <:+: body) (back : List Char) :
    body? (body ++ '\n' :: '\x7d' :: back) = some body := by
  induction body with
  | nil => rfl
  | cons c body ih =>
      have htail : ¬ ['\n', '\x7d'] <:+: body := fun hi => h (List.infix_cons hi)
      have hother : ∀ r, c :: (body ++ '\n' :: '\x7d' :: back) ≠ '\n' :: '\x7d' :: r := by
        -- a line break at the end of the body has another one behind it, not a brace
        intro r heq
        obtain ⟨hc, heq⟩ := List.cons.inj heq
        cases body with
        | nil => exact absurd (List.cons.inj heq).1 (by decide)
        | cons d body =>
            have hd := (List.cons.inj heq).1
            exact h ⟨[], body, by rw [hc, hd]; rfl⟩
      rw [List.cons_append]
      unfold body?
      split
      · next r heq => exact absurd heq (hother r)
      · next c' rest' _ heq =>
          obtain ⟨rfl, rfl⟩ := List.cons.inj heq
          rw [ih htail]
          rfl
      · next heq => cases heq

/-- Parameters without a closing parenthesis end at the first one. -/
theorem params?_append {tail? : List Char → Option (List Char)} (hp : ')' ∉ params)
    (ht : tail? rest = some body) :
    params? tail? (params ++ ')' :: rest) = some ⟨params, body⟩ := by
  induction params with
  | nil =>
      rw [List.nil_append]
      unfold params?
      rw [if_pos rfl, ht]
  | cons c params ih =>
      rw [List.mem_cons, not_or] at hp
      rw [List.cons_append]
      unfold params?
      rw [if_neg (Ne.symm hp.1), ih hp.2]
      rfl

/-- The type of a result as it is written, if it is. -/
def typed (kind : Option (List Char)) : List Char := kind.elim [] fun t => ':' :: ' ' :: t

theorem dropWhile_ne {t : List Char} (ht : c ∉ t) (s : List Char) :
    (t ++ c :: s).dropWhile (· != c) = c :: s := by
  rw [List.dropWhile_append_of_pos, List.dropWhile_cons_of_neg (by simp)]
  intro d hd
  rw [bne_iff_ne]
  rintro rfl
  exact ht hd

/-- A type and the blanks around it end at the sign behind them. -/
theorem dropWhile_typed {t : List Char} (hc : c ≠ ' ') (ht : c ∉ t) (s : List Char) :
    (' ' :: (t ++ ' ' :: c :: s)).dropWhile (· != c) = c :: s := by
  have hnot : c ∉ ' ' :: (t ++ [' ']) := by
    simp [hc, ht]
  have hdrop := dropWhile_ne hnot s
  rwa [List.cons_append, List.append_assoc] at hdrop

theorem functionBody?_typed {kind : Option (List Char)} (hkind : ∀ t ∈ kind, '\x7b' ∉ t)
    (h : body? rest = some body) :
    functionBody? (typed kind ++ ' ' :: '\x7b' :: rest) = some body := by
  cases kind with
  | none => exact h
  | some t =>
      have hdrop := dropWhile_typed (c := '\x7b') (by decide) (hkind t rfl) rest
      show (char? '\x7b' ((' ' :: (t ++ ' ' :: '\x7b' :: rest)).dropWhile (· != '\x7b'))).bind
        body? = some body
      rw [hdrop]
      exact h

theorem arrowBody?_typed {kind : Option (List Char)} (hkind : ∀ t ∈ kind, '=' ∉ t)
    (h : body? rest = some body) :
    arrowBody? (typed kind ++ ' ' :: '=' :: '>' :: ' ' :: '\x7b' :: rest) = some body := by
  cases kind with
  | none => exact h
  | some t =>
      have hdrop := dropWhile_typed (by decide) (hkind t rfl) ('>' :: ' ' :: '\x7b' :: rest)
      show behindArrow?
        ((' ' :: (t ++ ' ' :: '=' :: '>' :: ' ' :: '\x7b' :: rest)).dropWhile (· != '=')) = some body
      rw [hdrop]
      exact h

/-! ### The two searches at a header -/

theorem named?_space (hs : StartsWord s) : named? name (' ' :: s) = word? name s := by
  have hnone : named? name s = none := by
    cases s with
    | nil => rfl
    | cons c s =>
        unfold named?
        rw [if_neg (by rw [hs c rfl]; exact Bool.false_ne_true)]
  unfold named?
  rw [if_pos (by decide), hnone]

/-- A binding is a declaration, and not that of a function. -/
theorem declaration_of_binding {w : List Char} (hw : w ∈ bindings) : w ∈ declarations :=
  List.mem_cons_of_mem _ hw

theorem oneOf?_bindings (s : List Char) : oneOf? declarations s =
    (word? "function".toList s).or (oneOf? bindings s) := by
  show List.findSome? _ ("function".toList :: bindings) = _
  rw [List.findSome?_cons]
  cases word? "function".toList s <;> rfl

theorem word?_function_binding {w : List Char} (hw : w ∈ bindings) (s : List Char) :
    word? "function".toList (w ++ ' ' :: s) = none := by
  have hnone : ∀ w ∈ bindings, word? "function".toList w = none := by decide +kernel
  rw [word?_sign (by decide) (declaration_mem_words List.mem_cons_self), hnone w hw]
  rfl

theorem oneOf?_binding {w : List Char} (hw : w ∈ bindings) (s : List Char) :
    oneOf? bindings (w ++ ' ' :: s) = some (' ' :: s) := by
  have hall := oneOf?_declaration (declaration_of_binding hw) s
  rwa [oneOf?_bindings, word?_function_binding hw, Option.none_or] at hall

/-- Names of methods that differ differ as words. -/
theorem word?_upper {m n : Method} (hm : m ∈ Method.known) (hn : n ∈ Method.known) (hc : IsSign c)
    (s : List Char) :
    word? (upper m) (upper n ++ c :: s) = if n = m then some (c :: s) else none := by
  have hother : ∀ m ∈ Method.known, ∀ n ∈ Method.known, n ≠ m →
      word? (upper m) (upper n) = none := by
    decide +kernel
  split
  · next heq =>
      rw [heq]
      exact word?_append _ _
  · next hne =>
      have hmem : upper m ∈ words := methodName_mem_words (List.mem_map_of_mem hm)
      rw [word?_sign hc hmem, hother m hm n hn hne]
      rfl

/-- What the search for a function finds behind the header of one. -/
theorem functionHere?_function {m n : Method} (hm : m ∈ Method.known) (hn : n ∈ Method.known)
    (isAsync : Bool) (s : List Char) :
    functionHere? (upper m) (header isAsync "function".toList n ++ '(' :: s) =
      if n = m then params? functionBody? s else none := by
  have hmem : "function".toList ∈ declarations := List.mem_cons_self
  have hdecl := startsWord_declaration hmem (' ' :: (upper n ++ '(' :: s))
  rw [header_append, functionHere?_eq, word?_append, Option.bind_some,
    (startsWord_asyncWord isAsync hdecl).blanks?, Option.bind_some,
    optionalWord_asyncWord isAsync (word?_async_declaration hmem _) hdecl, word?_append,
    Option.bind_some, named?_space (startsWord_upper hn _), word?_upper hm hn (by decide)]
  split <;> rfl

theorem functionHere?_binding {w : List Char} (hw : w ∈ bindings) (n : Method) (s : List Char) :
    functionHere? name (header false w n ++ s) = none := by
  have hmem := declaration_of_binding hw
  have hdecl := startsWord_declaration hmem (' ' :: (upper n ++ s))
  rw [header_append, functionHere?_eq, word?_append, Option.bind_some,
    (startsWord_asyncWord false hdecl).blanks?, Option.bind_some,
    optionalWord_asyncWord false (word?_async_declaration hmem _) hdecl,
    word?_function_binding hw]
  rfl

theorem arrowHere?_function (isAsync : Bool) (n : Method) (s : List Char) :
    arrowHere? name (header isAsync "function".toList n ++ s) = none := by
  have hmem : "function".toList ∈ declarations := List.mem_cons_self
  have hdecl := startsWord_declaration hmem (' ' :: (upper n ++ s))
  have hfirst : ∀ w ∈ bindings,
      word? w "async".toList = none ∧ word? w "function".toList = none := by
    decide +kernel
  have hnone : oneOf? bindings (asyncWord isAsync ++ ("function".toList ++ ' ' :: (upper n ++ s))) =
      none := by
    refine List.findSome?_eq_none_iff.mpr fun w hw => ?_
    have hwords := declaration_mem_words (declaration_of_binding hw)
    cases isAsync with
    | false =>
        show word? w ("function".toList ++ ' ' :: _) = none
        rw [word?_sign (by decide) hwords, (hfirst w hw).2]
        rfl
    | true =>
        show word? w ("async".toList ++ ' ' :: _) = none
        rw [word?_sign (by decide) hwords, (hfirst w hw).1]
        rfl
  rw [header_append, arrowHere?_eq, word?_append, Option.bind_some,
    (startsWord_asyncWord isAsync hdecl).blanks?, Option.bind_some, hnone]
  rfl

/-- What the search for an arrow function finds behind the header of a binding. -/
theorem arrowHere?_binding {m n : Method} (hm : m ∈ Method.known) (hn : n ∈ Method.known)
    {w : List Char} (hw : w ∈ bindings) (isAsync : Bool) (s : List Char) :
    arrowHere? (upper m)
        (header false w n ++ ' ' :: '=' :: ' ' :: (asyncWord isAsync ++ '(' :: s)) =
      if n = m then params? arrowBody? s else none := by
  have hmem := declaration_of_binding hw
  have hparen : StartsWord ('(' :: s) := by
    rintro c ⟨⟩
    decide
  have hasync : word? "async".toList ('(' :: s) = none :=
    word?_sign (d := []) (c := '(') (by decide) async_mem_words s
  have hblank : skipBlanks (' ' :: (asyncWord isAsync ++ '(' :: s)) =
      asyncWord isAsync ++ '(' :: s := (startsWord_asyncWord isAsync hparen).skipBlanks
  have hbehind (t : List Char) : (char? '=' (skipBlanks (' ' :: '=' :: t))) = some t := rfl
  rw [header_append, arrowHere?_eq, word?_append, Option.bind_some,
    (startsWord_asyncWord false (startsWord_declaration hmem _)).blanks?, Option.bind_some]
  -- no `async` stands before a binding, so `asyncWord false` is empty
  show ((oneOf? bindings (w ++ ' ' :: _)).bind _) = _
  rw [oneOf?_binding hw, Option.bind_some, named?_space (startsWord_upper hn _),
    word?_upper hm hn (by decide)]
  split
  · rw [Option.bind_some, hbehind, Option.bind_some, hblank,
      optionalWord_asyncWord isAsync hasync hparen]
    rfl
  · rfl

end Handler

/-! ### Handlers in their usual form -/

/-- A function, or an arrow function under a name that a word binds. -/
inductive Form where
  | function
  | arrow (binding : { w : List Char // w ∈ Handler.bindings })
deriving DecidableEq

/-- A handler as it is usually written: its parameters have no closing parenthesis, the type of its
result has neither an opening brace nor a sign of equality, no line of its body begins with a closing
brace, and the word `export` stands in none of them. -/
structure Conventional where
  method : Method
  form : Form
  isAsync : Bool
  params : List Char
  /-- The type of the result, if it is written. -/
  kind : Option (List Char)
  body : List Char
  known : method ∈ Method.known
  closes : ')' ∉ params
  simple : ∀ t ∈ kind, '\x7b' ∉ t ∧ '=' ∉ t
  nonempty : body ≠ []
  first : ¬ ['\n', '\x7d'] <:+: body
  clearParams : Clear params
  clearKind : ∀ t ∈ kind, Clear t
  clearBody : Clear body

namespace Conventional

open Handler

variable (h : Conventional)

def handler : Handler := ⟨h.params, h.body⟩

/-- The parameters, the type of the result and the body, which an arrow may precede. -/
def rest (arrow : List Char) : List Char :=
  '(' :: (h.params ++ ')' :: (typed h.kind ++ ' ' :: (arrow ++ '\x7b' :: (h.body ++ ['\n']))))

/-- The text of the handler. -/
def written : List Char :=
  match h.form with
  | .function => header h.isAsync "function".toList h.method ++ (h.rest [] ++ ['\x7d'])
  | .arrow w =>
      header false w h.method ++
        (' ' :: '=' :: ' ' :: (asyncWord h.isAsync ++ h.rest ['=', '>', ' ']) ++ ['\x7d'])

theorem clear_rest {arrow : List Char} (ha : Clear arrow) : Clear (h.rest arrow) := by
  have hnewline : Parts '\n' := parts_of_sign (by decide)
  have hspace : Parts ' ' := parts_of_sign (by decide)
  have hbrace : Parts '\x7b' := (divides_of_mem (by decide)).parts
  have hbody : Clear (h.body ++ ['\n']) := h.clearBody.append hnewline clear_nil
  have hopened : Clear (arrow ++ '\x7b' :: (h.body ++ ['\n'])) := ha.append hbrace hbody
  have htyped : Clear (typed h.kind ++ ' ' :: (arrow ++ '\x7b' :: (h.body ++ ['\n']))) := by
    cases hk : h.kind with
    | none => exact clear_nil.append hspace hopened
    | some t =>
        have ht : Clear (t ++ ' ' :: (arrow ++ '\x7b' :: (h.body ++ ['\n']))) :=
          (h.clearKind t hk).append hspace hopened
        have hcolon : Clear [':'] := clear_of_length (by decide)
        exact hcolon.append hspace ht
  have hparams := h.clearParams.append (parts_of_sign (by decide : IsSign ')')) htyped
  exact clear_nil.append (parts_of_sign (by decide)) hparams

theorem clear_asyncWord (isAsync : Bool) {s : List Char} (hs : Clear s) :
    Clear (asyncWord isAsync ++ s) := by
  cases isAsync with
  | false => exact hs
  | true =>
      have hasync : Clear "async".toList := clear_of_length (by decide)
      exact hasync.append (parts_of_sign (by decide : IsSign ' ')) hs

theorem divides_closing : Divides '\x7d' := divides_of_mem (by decide)

/-- The text is a header, a sign and a clear text up to the last brace. -/
theorem written_eq : ∃ isAsync, ∃ d ∈ declarations, ∃ c s, IsSign c ∧ isWord c = false ∧
    Clear (c :: s) ∧ h.written = header isAsync d h.method ++ c :: (s ++ ['\x7d']) := by
  unfold written
  cases h.form with
  | function =>
      have hclear : Clear (h.rest []) := h.clear_rest clear_nil
      have hopen : Divides '(' := divides_of_mem (by decide)
      exact ⟨h.isAsync, "function".toList, List.mem_cons_self, '(', _, by decide, hopen.noWord,
        hclear, rfl⟩
  | arrow w =>
      have hspace : Parts ' ' := parts_of_sign (by decide)
      have hclear : Clear (h.rest ['=', '>', ' ']) := h.clear_rest (clear_of_length (by decide))
      have hsign : Clear [' ', '='] := clear_of_length (by decide)
      exact ⟨false, w, declaration_of_binding w.2, ' ', _, by decide, by decide +kernel,
        hsign.append hspace (clear_asyncWord h.isAsync hclear), rfl⟩

/-- The first letter of a header is the only place at which an export can begin in it. -/
theorem clear_tail_header (isAsync : Bool) {d : List Char} (hd : d ∈ declarations) {m : Method}
    (hm : m ∈ Method.known) : Clear (header isAsync d m).tail := by
  have hwords : ∀ w ∈ declarations ++ methodNames, Clear w := by decide +kernel
  have hspace : Parts ' ' := parts_of_sign (by decide)
  have hfirst : Clear "xport".toList := clear_of_length (by decide)
  have hdecl : Clear d := hwords d (List.mem_append_left _ hd)
  have hname : Clear (upper m) := hwords _ (List.mem_append_right _ (List.mem_map_of_mem hm))
  exact hfirst.append hspace (clear_asyncWord isAsync (hdecl.append hspace hname))

theorem exports_written (s : List Char) :
    exports (h.written ++ s) = upper h.method :: exports s := by
  obtain ⟨isAsync, d, hd, c, t, hc, hw, hclear, heq⟩ := h.written_eq
  have hbehind : exports (c :: (t ++ '\x7d' :: s)) = exports s := by
    have hdivided := exports_divided divides_closing (c :: t) s
    rwa [exports_of_clear hclear] at hdivided
  rw [heq, List.append_assoc, List.cons_append, List.append_assoc,
    exports_header isAsync hd h.known hc hw]
  exact congrArg (upper h.method :: ·) hbehind

/-- A search finds a handler where it begins, or else behind its end. -/
theorem leftmost?_written {β : Type} {here? : List Char → Option β} (hblind : Blind here?)
    (s : List Char) :
    leftmost? here? (h.written ++ s) = (here? (h.written ++ s)).or (leftmost? here? s) := by
  obtain ⟨isAsync, d, hd, c, t, hc, -, hclear, heq⟩ := h.written_eq
  obtain ⟨hword, ht⟩ := clear_cons.mp hclear
  have htail : Clear ((header isAsync d h.method).tail ++ c :: t) :=
    (clear_tail_header isAsync hd h.known).append (parts_of_sign hc) ht
  have hfirst : h.written ++ s =
      'e' :: (((header isAsync d h.method).tail ++ c :: t) ++ '\x7d' :: s) := by
    rw [heq, List.append_assoc, List.cons_append, List.append_assoc, List.append_assoc]
    rfl
  rw [hfirst, leftmost?_cons, hblind.leftmost? htail divides_closing.parts]

variable {h} {m : Method} (hm : m ∈ Method.known)
include hm

/-- The search for a function finds the functions of its method, and no arrow function. -/
theorem functionHere?_written (s : List Char) : functionHere? (upper m) (h.written ++ s) =
    if h.form = .function ∧ h.method = m then some h.handler else none := by
  cases hf : h.form with
  | function =>
      have hbody : functionBody?
          (typed h.kind ++ ' ' :: '\x7b' :: (h.body ++ '\n' :: '\x7d' :: s)) = some h.body :=
        functionBody?_typed (fun t ht => (h.simple t ht).1) (body?_append h.first s)
      have hwritten : h.written ++ s = header h.isAsync "function".toList h.method ++ '(' ::
          (h.params ++ ')' ::
            (typed h.kind ++ ' ' :: '\x7b' :: (h.body ++ '\n' :: '\x7d' :: s))) := by
        unfold written
        rw [hf]
        simp [rest]
      rw [hwritten, functionHere?_function hm h.known, params?_append h.closes hbody]
      simp [handler]
  | arrow w =>
      unfold written
      rw [hf]
      show functionHere? _ (header false w h.method ++ _ ++ s) = _
      rw [List.append_assoc, functionHere?_binding w.2]
      simp

/-- The search for an arrow function finds those of its method, and no other function. -/
theorem arrowHere?_written (s : List Char) : arrowHere? (upper m) (h.written ++ s) =
    if h.form ≠ .function ∧ h.method = m then some h.handler else none := by
  cases hf : h.form with
  | function =>
      unfold written
      rw [hf]
      show arrowHere? _ (header h.isAsync "function".toList h.method ++ _ ++ s) = _
      rw [List.append_assoc, arrowHere?_function]
      simp
  | arrow w =>
      have hbody : arrowBody?
          (typed h.kind ++ ' ' :: '=' :: '>' :: ' ' :: '\x7b' :: (h.body ++ '\n' :: '\x7d' :: s)) =
            some h.body :=
        arrowBody?_typed (fun t ht => (h.simple t ht).2) (body?_append h.first s)
      have hwritten : h.written ++ s = header false w h.method ++ ' ' :: '=' :: ' ' ::
          (asyncWord h.isAsync ++ '(' :: (h.params ++ ')' :: (typed h.kind ++
            ' ' :: '=' :: '>' :: ' ' :: '\x7b' :: (h.body ++ '\n' :: '\x7d' :: s)))) := by
        unfold written
        rw [hf]
        simp [rest]
      rw [hwritten, arrowHere?_binding hm h.known w.2, params?_append h.closes hbody]
      simp [handler]

end Conventional

/-! ### Files of such handlers -/

/-- The text has these handlers in a row, with blank lines between them. -/
inductive WrittenIn : List Conventional → List Char → Prop where
  | nil : WrittenIn [] []
  | single (h : Conventional) : WrittenIn [h] h.written
  | cons (h : Conventional) (blank : Nat) {k : Conventional} {hs : List Conventional}
      {s : List Char} : WrittenIn (k :: hs) s →
      WrittenIn (h :: k :: hs) (h.written ++ (List.replicate (blank + 2) '\n' ++ s))

namespace WrittenIn

open Handler

variable {hs : List Conventional} {h : Conventional} {s : List Char}

/-- Behind the first handler stand line breaks and the others. -/
theorem behind (hw : WrittenIn (h :: hs) s) :
    ∃ n t, s = h.written ++ (List.replicate n '\n' ++ t) ∧ WrittenIn hs t := by
  cases hw with
  | single => exact ⟨0, [], (List.append_nil _).symm, .nil⟩
  | cons h blank hw => exact ⟨blank + 2, _, rfl, hw⟩

theorem exports_eq (hw : WrittenIn hs s) : exports s = hs.map fun h => upper h.method := by
  have hbreaks (n : Nat) (t : List Char) : exports (List.replicate n '\n' ++ t) = exports t := by
    induction n with
    | zero => rfl
    | succ n ih =>
        have hnone : word? "export".toList ('\n' :: (List.replicate n '\n' ++ t)) = none :=
          word?_sign (d := []) (by decide) export_mem_words _
        exact (exports_cons hnone).trans ih
  induction hs generalizing s with
  | nil =>
      cases hw
      rfl
  | cons h hs ih =>
      obtain ⟨n, t, rfl, ht⟩ := hw.behind
      rw [h.exports_written, hbreaks, ih ht, List.map_cons]

/-- A search finds what it finds first at the handlers. -/
theorem leftmost?_eq {β : Type} {here? : List Char → Option β} {g : Conventional → Option β}
    (hblind : Blind here?) (hg : ∀ h t, here? (h.written ++ t) = g h) (hw : WrittenIn hs s) :
    leftmost? here? s = hs.findSome? g := by
  have hbreaks (n : Nat) (t : List Char) :
      leftmost? here? (List.replicate n '\n' ++ t) = leftmost? here? t := by
    induction n with
    | zero => rfl
    | succ n ih =>
        have hnewline : Parts '\n' := parts_of_sign (by decide)
        exact (hblind.leftmost? clear_nil hnewline _).trans ih
  induction hs generalizing s with
  | nil =>
      cases hw
      rfl
  | cons h hs ih =>
      obtain ⟨n, t, rfl, ht⟩ := hw.behind
      rw [h.leftmost?_written hblind, hg, hbreaks, ih ht, List.findSome?_cons]
      cases g h <;> rfl

/-- The texts of the handlers with one blank line between neighbours. -/
theorem of_joined (hs : List Conventional) :
    WrittenIn hs (joined ['\n', '\n'] (hs.map Conventional.written)) := by
  induction hs with
  | nil => exact .nil
  | cons h hs ih =>
      cases hs with
      | nil => simpa [joined, List.intercalate] using WrittenIn.single h
      | cons k hs =>
          rw [List.map_cons, List.map_cons, joined_cons_cons]
          exact .cons h 0 ih

end WrittenIn

/-- A search with one member of a kind finds it. -/
theorem findSome?_ite_eq_some {α β : Type} {p : α → Prop} [DecidablePred p] {f : α → β} {l : List α}
    {x : α} (hx : x ∈ l) (hp : p x) (hone : ∀ y ∈ l, p y → y = x) :
    (l.findSome? fun y => if p y then some (f y) else none) = some (f x) := by
  cases hfind : l.findSome? fun y => if p y then some (f y) else none with
  | none =>
      have hnone := List.findSome?_eq_none_iff.mp hfind x hx
      rw [if_pos hp] at hnone
      cases hnone
  | some b =>
      obtain ⟨y, hy, hb⟩ := List.exists_of_findSome?_eq_some hfind
      rw [Option.ite_none_right_eq_some] at hb
      rw [← hone y hy hb.1]
      exact hb.2.symm

theorem findSome?_ite_eq_none {α β : Type} {p : α → Prop} [DecidablePred p] {f : α → β} {l : List α}
    (h : ∀ y ∈ l, ¬ p y) : (l.findSome? fun y => if p y then some (f y) else none) = none :=
  List.findSome?_eq_none_iff.mpr fun y hy => if_neg (h y hy)

theorem eraseDups_of_nodup {α : Type} [BEq α] [LawfulBEq α] {l : List α} (h : l.Nodup) :
    l.eraseDups = l := by
  induction l with
  | nil => rfl
  | cons a l ih =>
      obtain ⟨ha, hl⟩ := List.nodup_cons.mp h
      have hkept : (l.filter fun b => !b == a) = l := by
        refine List.filter_eq_self.mpr fun b hb => ?_
        have hne : b ≠ a := fun heq => ha (heq ▸ hb)
        simpa using hne
      rw [List.eraseDups_cons, hkept, ih hl]

section File

open Handler

variable {hs : List Conventional} {s : List Char} (hw : WrittenIn hs s)
include hw

theorem exportedMethods_of_writtenIn (hd : (hs.map Conventional.method).Nodup) :
    exportedMethods s = Method.sort (hs.map Conventional.method) := by
  have hnames : (exports s).map lower = hs.map Conventional.method := by
    rw [hw.exports_eq, List.map_map]
    exact List.map_congr_left fun h _ => lower_upper h.known
  rw [exportedMethods, hnames, eraseDups_of_nodup hd]

/-- The two searches in the order in which they are made. -/
theorem find?_of_writtenIn {m : Method} (hm : m ∈ Method.known) : find? (upper m) s =
    (((hs.findSome? fun h => if h.form = .function ∧ h.method = m then some h.handler else none).bind
      nonempty?).or
    ((hs.findSome? fun h => if h.form ≠ .function ∧ h.method = m then some h.handler else none).bind
      nonempty?)) := by
  unfold find?
  rw [hw.leftmost?_eq (blind_functionHere? _) fun h t => h.functionHere?_written hm t,
    hw.leftmost?_eq (blind_arrowHere? _) fun h t => h.arrowHere?_written hm t]
  generalize Option.bind _ _ = a
  cases a <;> rfl

theorem find?_own (hd : (hs.map Conventional.method).Nodup) {h : Conventional} (hh : h ∈ hs) :
    find? (upper h.method) s = some h.handler := by
  have hsame (k : Conventional) (hk : k ∈ hs) (heq : k.method = h.method) : k = h :=
    List.inj_on_of_nodup_map hd hk hh heq
  have hbody : nonempty? h.handler = some h.handler := nonempty?_eq_some_iff.mpr ⟨rfl, h.nonempty⟩
  rw [find?_of_writtenIn hw h.known]
  by_cases hf : h.form = .function
  · rw [findSome?_ite_eq_some hh ⟨hf, rfl⟩ fun k hk hp => hsame k hk hp.2, Option.bind_some, hbody]
    rfl
  · -- the first search must not find another handler of this method
    have hfunction : ∀ k ∈ hs, ¬ (k.form = .function ∧ k.method = h.method) := by
      rintro k hk ⟨hform, hmethod⟩
      rw [hsame k hk hmethod] at hform
      exact hf hform
    rw [findSome?_ite_eq_none hfunction,
      findSome?_ite_eq_some hh ⟨hf, rfl⟩ fun k hk hp => hsame k hk hp.2, Option.bind_some, hbody]
    rfl

theorem find?_other {m : Method} (hm : m ∈ Method.known) (hnot : m ∉ hs.map Conventional.method) :
    find? (upper m) s = none := by
  have hno (k : Conventional) (hk : k ∈ hs) (heq : k.method = m) : False :=
    hnot (heq ▸ List.mem_map_of_mem hk)
  rw [find?_of_writtenIn hw hm, findSome?_ite_eq_none fun k hk hp => hno k hk hp.2,
    findSome?_ite_eq_none fun k hk hp => hno k hk hp.2]
  rfl

/-- A file of handlers in their usual form is read back: its methods are theirs, each handler comes
back with its own parameters and body, and no other one is found. -/
theorem readBack_of_writtenIn (hd : (hs.map Conventional.method).Nodup) :
    exportedMethods s = Method.sort (hs.map Conventional.method) ∧
    (∀ h ∈ hs, handlerSource? s h.method = some (h.handler.shown (upper h.method))) ∧
    ∀ m ∈ Method.known, m ∉ hs.map Conventional.method → handlerSource? s m = none := by
  refine ⟨exportedMethods_of_writtenIn hw hd, fun h hh => ?_, fun m hm hnot => ?_⟩
  · show (find? (upper h.method) s).map (shown (upper h.method)) = _
    rw [find?_own hw hd hh, Option.map_some]
  · show (find? (upper m) s).map (shown (upper m)) = none
    rw [find?_other hw hm hnot, Option.map_none]

end File

/-- A function and an arrow function with a type. -/
def readRoute : Conventional where
  method := "get".toList
  form := .function
  isAsync := true
  params := " request ".toList
  kind := none
  body := "\n  return 1".toList
  known := by decide
  closes := by decide
  simple := by simp
  nonempty := by decide
  first := by decide
  clearParams := by decide +kernel
  clearKind := by simp
  clearBody := by decide +kernel

def storeRoute : Conventional where
  method := "post".toList
  form := .arrow ⟨"const".toList, by decide⟩
  isAsync := true
  params := "data".toList
  kind := some "Reply".toList
  body := "\n  return data".toList
  known := by decide
  closes := by decide
  simple := by
    rintro t ⟨⟩
    decide
  nonempty := by decide
  first := by decide
  clearParams := by decide +kernel
  clearKind := by
    rintro t ⟨⟩
    decide +kernel
  clearBody := by decide +kernel

theorem readBack_twoRoutes : ∃ s, s = joined ['\n', '\n'] [storeRoute.written, readRoute.written] ∧
    exportedMethods s = ["get".toList, "post".toList] ∧
    handlerSource? s "get".toList =
      some "export async function GET(request) \x7b\n  return 1\n\x7d".toList ∧
    handlerSource? s "post".toList =
      some "export async function POST(data) \x7b\n  return data\n\x7d".toList ∧
    handlerSource? s "put".toList = none := by
  have hw := WrittenIn.of_joined [storeRoute, readRoute]
  have hsort : Method.sort ["post".toList, "get".toList] = ["get".toList, "post".toList] := by
    have hle : Method.le "post".toList "get".toList = false := by decide
    simpa [Method.sort, List.mergeSort, List.merge] using hle
  obtain ⟨hmethods, hown, hother⟩ := readBack_of_writtenIn hw (by decide)
  refine ⟨_, rfl, hmethods.trans hsort, ?_, ?_, hother _ (by decide) (by decide)⟩
  · exact (hown readRoute (by simp)).trans (by decide +kernel)
  · exact (hown storeRoute (by simp)).trans (by decide +kernel)

end RouteScribe
