import RouteScribe.Proofs.Reply.Block

/-! # The object in a reply

An object without the mark of a fenced block is found behind every front and before every back
without braces, whether these fence it in or not (`Reply.wrapping_unread`): a block cannot open inside
the object, and one that opens before it ends where the object does.  A reply that is an object is
read as itself if no fenced block opens in it; otherwise the block is read in its place
(`Operation.readsAsItself_iff`). -/

namespace RouteScribe
namespace Reply

/-! ### The outermost braces -/

theorem ne_brace_of_not_mem {t : Text} {c : Char} (h : .scalar c ∉ t) :
    ∀ d ∈ t, (d != CodePoint.scalar c) = true :=
  fun _ hd => bne_iff_ne.mpr fun heq => h (heq ▸ hd)

theorem upToLastBrace?_append (u : Text) {back : Text} (hback : .scalar '\x7d' ∉ back) :
    upToLastBrace? (u ++ .scalar '\x7d' :: back) = some (u ++ [.scalar '\x7d']) := by
  have hrev : (u ++ .scalar '\x7d' :: back).reverse =
      back.reverse ++ .scalar '\x7d' :: u.reverse := by simp
  have hskip := ne_brace_of_not_mem (t := back.reverse) (c := '\x7d') (by simpa using hback)
  rw [upToLastBrace?, hrev, List.dropWhile_append_of_pos hskip,
    List.dropWhile_cons_of_neg (by simp)]
  simp

/-- The outermost braces are those of a text in braces, where none stands before or behind it. -/
theorem braced?_append {front t back : Text} (ht : Json.Braced t)
    (hfront : .scalar '\x7b' ∉ front) (hback : .scalar '\x7d' ∉ back) :
    braced? (front ++ (t ++ back)) = some t := by
  obtain ⟨u, rfl⟩ := ht
  have hlast := upToLastBrace?_append (.scalar '\x7b' :: u) hback
  rw [braced?, List.dropWhile_append_of_pos (ne_brace_of_not_mem hfront), List.cons_append,
    List.dropWhile_cons_of_neg (by simp)]
  simpa using hlast

/-! ### An object between other texts -/

/-- The closing brace stands in every end of a text in braces. -/
theorem brace_mem_of_append {t u v : Text} (h : Json.Braced t) (heq : t = u ++ v) (hv : v ≠ []) :
    .scalar '\x7d' ∈ v := by
  obtain ⟨w, rfl⟩ := h
  have hlast := congrArg List.getLast? heq
  rw [List.getLast?_append_of_ne_nil _ hv, ← List.cons_append, List.getLast?_concat] at hlast
  exact List.mem_of_getLast? hlast.symm

/-- Where a block ends before the text in braces does, the text has its mark. -/
theorem Closer.eq_nil {t u v back : Text} (hc : Closer (v ++ back)) (ht : Json.Braced t)
    (heq : t = u ++ v) (hmark : ¬ mark <:+: t) : v = [] := by
  obtain ⟨gap, rest, hgap, hsplit⟩ := hc
  rw [← List.append_assoc] at hsplit
  rcases List.append_eq_append_iff.mp hsplit with ⟨w, hw, -⟩ | ⟨w, hw, -⟩
  · by_contra hv
    have hlast := brace_mem_of_append ht heq hv
    have hmem : .scalar '\x7d' ∈ gap ++ mark := hw ▸ List.mem_append_left w hlast
    rcases List.mem_append.mp hmem with hm | hm
    · exact hgap.not_mem (by decide) hm
    · exact absurd hm (by decide)
  · refine absurd ?_ hmark
    rw [heq, hw]
    exact ⟨u ++ gap, w, by simp⟩

section Wrapped

variable {front t back : Text} (ht : Json.Braced t) (hmark : ¬ mark <:+: t)
  (hfront : .scalar '\x7b' ∉ front) (hback : .scalar '\x7b' ∉ back ∧ .scalar '\x7d' ∉ back)

include ht hmark hfront hback

/-- A block that opens before an object, inside or behind it holds the object. -/
theorem Opens.eq_of_wrapped {a s b : Text} (h : Opens s b) (heq : front ++ (t ++ back) = a ++ s) :
    b = t := by
  obtain ⟨o, c, ho, hb, hc, rfl⟩ := h
  rcases List.append_eq_append_iff.mp heq with ⟨x, -, hx⟩ | ⟨x, hx, hx'⟩
  · -- the mark would stand in the object, or the brace of the block behind it
    obtain ⟨word, gap, -, -, rfl⟩ := ho
    have hsplit : t ++ back = (x ++ mark) ++ (word ++ (gap ++ (b ++ c))) := by
      rw [hx]
      simp only [List.append_assoc]
    rcases List.append_eq_append_iff.mp hsplit with ⟨y, -, hy⟩ | ⟨y, hy, -⟩
    · obtain ⟨u, rfl⟩ := hb
      refine absurd ?_ hback.1
      rw [hy]
      simp
    · exact absurd ⟨x, y, hy.symm⟩ hmark
  · -- the first brace is that of the object and that of the block
    obtain ⟨u, rfl⟩ := ht
    obtain ⟨v, rfl⟩ := hb
    have hx0 : .scalar '\x7b' ∉ x := fun hm => hfront (hx ▸ List.mem_append_right a hm)
    obtain ⟨-, hbody⟩ := append_cons_inj ho.no_brace hx0 hx'
    have hsplit : .scalar '\x7b' :: (v ++ [.scalar '\x7d']) ++ c =
        .scalar '\x7b' :: (u ++ [.scalar '\x7d']) ++ back := congrArg _ hbody
    rcases List.append_eq_append_iff.mp hsplit with ⟨y, hy, hy'⟩ | ⟨y, hy, hy'⟩
    · have hnil := Closer.eq_nil (hy' ▸ hc) ⟨u, rfl⟩ hy hmark
      rw [hy, hnil, List.append_nil]
    · by_cases hnil : y = []
      · rw [hy, hnil, List.append_nil]
      · have hlast := brace_mem_of_append ⟨v, rfl⟩ hy hnil
        exact absurd (hy' ▸ List.mem_append_left c hlast) hback.2

theorem jsonPart_braced : jsonPart (front ++ (t ++ back)) = t := by
  unfold jsonPart
  cases hf : fenced? (front ++ (t ++ back)) with
  | none => simp only [braced?_append ht hfront hback.2]
  | some b =>
      obtain ⟨a, s, heq, hb, -⟩ := fenced?_eq_some_iff.mp hf
      exact hb.1.eq_of_wrapped ht hmark hfront hback heq

end Wrapped

theorem braced_of_ends {t : Text} (hopen : t.head? = some (.scalar '\x7b'))
    (hclose : t.getLast? = some (.scalar '\x7d')) : Json.Braced t := by
  cases t with
  | nil => cases hopen
  | cons c t =>
      cases hopen
      rcases List.eq_nil_or_concat t with rfl | ⟨u, d, rfl⟩
      · cases hclose
      · rw [List.concat_eq_append, ← List.cons_append, List.getLast?_concat] at hclose
        cases hclose
        exact ⟨u, by rw [List.concat_eq_append]⟩

/-- A text from brace to brace without three backticks is the object in a reply, whatever stands
before it without an opening brace and behind it without a brace, and is read as it is by itself. -/
theorem wrapping_unread {room : Nat} {front t back : Text} (hopen : t.head? = some (.scalar '\x7b'))
    (hclose : t.getLast? = some (.scalar '\x7d')) (hmark : ¬ ("```" : Text) <:+: t)
    (hfront : .scalar '\x7b' ∉ front) (hback : .scalar '\x7b' ∉ back ∧ .scalar '\x7d' ∉ back) :
    jsonPart (front ++ (t ++ back)) = t ∧
      Operation.ofReply room (front ++ (t ++ back)) = Operation.ofReply room t := by
  have ht := braced_of_ends hopen hclose
  have hpart := jsonPart_braced ht hmark hfront hback
  have halone : jsonPart t = t := by
    have h : jsonPart ([] ++ (t ++ [])) = t := jsonPart_braced ht hmark List.not_mem_nil
      ⟨List.not_mem_nil, List.not_mem_nil⟩
    rwa [List.nil_append, List.append_nil] at h
  exact ⟨hpart, by rw [Operation.ofReply, Operation.ofReply, hpart, halone]⟩

/-- A small object in a fenced block between prose. -/
theorem wrapping_unread_fenced :
    jsonPart (("Here:\n```json\n" : Text) ++ (("\x7b\"tags\":[]\x7d" : Text) ++
        ("\n```\nDone." : Text))) = ("\x7b\"tags\":[]\x7d" : Text) ∧
      Operation.ofReply 990 (("Here:\n```json\n" : Text) ++ (("\x7b\"tags\":[]\x7d" : Text) ++
        ("\n```\nDone." : Text))) =
        Operation.ofReply 990 ("\x7b\"tags\":[]\x7d" : Text) :=
  wrapping_unread (by decide +kernel) (by decide +kernel) (by decide +kernel) (by decide +kernel)
    (by decide +kernel)

end Reply

/-! ### A reply that is an object -/

namespace Operation

/-- The operation that the members of an object describe. -/
def ofMembers (fs : Fields) : Except ReplyError Operation :=
  match Checked.titled "Operation" check (.obj (completed fs)) with
  | .ok o => .ok o
  | .error data => .error (.notOperation data)

/-- The operation that a text describes as it stands. -/
def ofPart (room : Nat) (t : Text) : Except ReplyError Operation :=
  match Json.read room t with
  | .error fault => .error (.notJson fault)
  | .ok (.obj fs) => ofMembers fs
  | .ok _ => .error .notObject

variable {room : Nat}

theorem ofReply_eq_ofPart (reply : Text) :
    ofReply room reply = ofPart room (Reply.jsonPart reply) := rfl

theorem ofPart_of_read {t : Text} {fs : Fields} (h : Json.read room t = .ok (.obj fs)) :
    ofPart room t = ofMembers fs := by
  rw [ofPart, h]

/-- A reply that is an object describes what the members of this object do. -/
def ReadsAsItself (room : Nat) (reply : Text) : Prop :=
  ∀ fs, Json.read room reply = .ok (.obj fs) → ofReply room reply = ofMembers fs

end Operation

namespace Reply

theorem blank_not_mem {t : Text} (h : Json.Blank t) {x : Char}
    (hx : Json.isSpace (.scalar x) = false) : .scalar x ∉ t := by
  intro hm
  rw [h _ hm] at hx
  cases hx

theorem trimBy_core {a t b : Text} (ha : Json.Blank a) (ht : Json.Braced t) (hb : Json.Blank b) :
    trimBy Json.isSpace (a ++ (t ++ b)) = t := by
  obtain ⟨u, rfl⟩ := ht
  refine trimBy_append ha hb fun c hc => ?_
  rcases hc with hc | hc
  · cases hc
    decide
  · rw [← List.cons_append, List.getLast?_concat] at hc
    cases hc
    decide

/-- A block leaves three backticks out that the object has. -/
theorem IsFirst.count_lt {s b : Text} (h : IsFirst s b) :
    b.count (.scalar '`') < s.count (.scalar '`') := by
  obtain ⟨front, rest, rfl, ⟨⟨o, c, ⟨word, gap, -, -, rfl⟩, -, -, rfl⟩, -⟩, -⟩ := h
  have hmark : mark.count (.scalar '`') = 3 := by decide
  simp only [List.count_append, hmark]
  omega

theorem exists_isFirst_iff {s : Text} : (∃ b, IsFirst s b) ↔ HasBlock s := by
  simp only [← fenced?_eq_some_iff, ← Option.isSome_iff_exists]
  rw [← not_iff_not, ← fenced?_eq_none_iff, Bool.not_eq_true, Option.isSome_eq_false_iff,
    Option.isNone_iff_eq_none]

/-- The part of a reply that is an object: the object without the blanks around it if no block
opens in the reply, and otherwise the block, which is never this object. -/
theorem jsonPart_object {room : Nat} {s : Text} {fs : Fields}
    (h : Json.read room s = .ok (.obj fs)) :
    (∀ b, IsFirst s b → jsonPart s = b ∧ b ≠ trimBy Json.isSpace s) ∧
      (¬ HasBlock s → jsonPart s = trimBy Json.isSpace s) ∧
        Json.read room (trimBy Json.isSpace s) = .ok (.obj fs) := by
  obtain ⟨a, t, b, ha, hb, rfl, ht, hread⟩ := Json.exists_core_of_read h
  rw [trimBy_core ha ht hb]
  refine ⟨fun block hfirst => ⟨?_, ?_⟩, fun hnone => ?_, hread⟩
  · rw [jsonPart, fenced?_eq_some_iff.mpr hfirst]
  · rintro rfl
    have hlt := hfirst.count_lt
    have hblank {x : Text} (hx : Json.Blank x) : x.count (.scalar '`') = 0 :=
      List.count_eq_zero.mpr (blank_not_mem hx (by decide))
    simp only [List.count_append, hblank ha, hblank hb] at hlt
    omega
  · rw [jsonPart, fenced?_eq_none_iff.mpr hnone]
    simp only [braced?_append ht (blank_not_mem ha (by decide)) (blank_not_mem hb (by decide))]

/-- The object is the part of a reply that is one exactly if no block opens in the reply. -/
theorem jsonPart_object_iff {room : Nat} {s : Text} {fs : Fields}
    (h : Json.read room s = .ok (.obj fs)) :
    jsonPart s = trimBy Json.isSpace s ↔ ¬ HasBlock s := by
  obtain ⟨hblock, hnone, -⟩ := jsonPart_object h
  refine ⟨fun hpart hhas => ?_, hnone⟩
  obtain ⟨b, hb⟩ := exists_isFirst_iff.mpr hhas
  obtain ⟨hpart', hne⟩ := hblock b hb
  exact hne (hpart'.symm.trans hpart)

end Reply

namespace Operation

/-- A reply that is an object is read as itself exactly if the block of the reply, if there is one,
describes the same.  The object is the part that is read exactly if there is no block. -/
theorem readsAsItself_iff (room : Nat) (reply : Text) :
    (ReadsAsItself room reply ↔ ∀ fs block, Json.read room reply = .ok (.obj fs) →
      Reply.IsFirst reply block → ofPart room block = ofMembers fs) ∧
    ∀ fs, Json.read room reply = .ok (.obj fs) →
      (Reply.jsonPart reply = trimBy Json.isSpace reply ↔ ¬ Reply.HasBlock reply) := by
  refine ⟨⟨fun h fs block hread hfirst => ?_, fun h fs hread => ?_⟩,
    fun fs hread => Reply.jsonPart_object_iff hread⟩
  · rw [← h fs hread, ofReply_eq_ofPart, ((Reply.jsonPart_object hread).1 block hfirst).1]
  · obtain ⟨hblock, hnone, hcore⟩ := Reply.jsonPart_object hread
    rw [ofReply_eq_ofPart]
    by_cases hhas : Reply.HasBlock reply
    · obtain ⟨block, hfirst⟩ := Reply.exists_isFirst_iff.mpr hhas
      rw [(hblock block hfirst).1, h fs block hread hfirst]
    · rw [hnone hhas, ofPart_of_read hcore]

/-- An object whose description has a small block. -/
def fencedDescription : Text :=
  "\x7b\"summary\":\"Create\",\"description\":\"Send ```\x7b\x7d``` to reset\"\x7d"

/-- The summary of what the object itself describes, if the text is one. -/
def ownSummary? (room : Nat) (t : Text) : Option Text :=
  match Json.read room t with
  | .ok (.obj fs) => (ofMembers fs).toOption.map Operation.summary
  | _ => none

/-- The block in the description is read in the place of the object. -/
theorem not_readsAsItself_fencedDescription : ¬ ReadsAsItself 990 fencedDescription := by
  intro h
  have hown : ownSummary? 990 fencedDescription = some "Create" := by decide +kernel
  have hblock : (ofReply 990 fencedDescription).toOption.map Operation.summary =
      some "API endpoint" := by decide +kernel
  unfold ownSummary? at hown
  split at hown
  · next fs hread =>
      rw [h fs hread, hown] at hblock
      exact absurd hblock (by decide +kernel)
  · cases hown

end Operation
end RouteScribe
