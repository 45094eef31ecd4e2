import RouteScribe.Proofs.Json.Excess
import RouteScribe.Proofs.Reply.Part

/-! # How a reply is refused

A reply that describes no operation is refused with words about the reply, for its grammar, its kind
or its members, except where the reader meets what exceeds its limits: an integer with more digits
than it can read, or a container without room for it.  These two refusals come from below the reader
and are passed on as they are (`ofReply_settled_iff`). -/

namespace RouteScribe

/-- The refusal speaks of the reply.  A fault that is not of the grammar speaks for itself. -/
def ReplyError.SpeaksOfReply : ReplyError → Prop
  | notJson fault => fault.isSyntax = true
  | notObject | notOperation _ => True

theorem ReplyError.speaksOfReply_iff {e : ReplyError} :
    e.SpeaksOfReply ↔ ∀ fault : JsonFault, fault.isSyntax = false → e ≠ .notJson fault := by
  cases e with
  | notJson fault =>
      have hself : ¬ fault.isSyntax = false ↔ fault.isSyntax = true := by simp
      rw [SpeaksOfReply, ← hself]
      exact ⟨fun h fault' hf heq => h (by cases heq; exact hf), fun h hf => h fault hf rfl⟩
  | notObject | notOperation _ => simp [SpeaksOfReply]

/-- A refusal that speaks of the reply says so. -/
theorem ReplyError.SpeaksOfReply.message {e : ReplyError} (h : e.SpeaksOfReply)
    (remarks : Remarks) : ∃ words, e.message remarks = "Model response " ++ words := by
  cases e with
  | notJson fault =>
      have hsyntax : fault.isSyntax = true := h
      have hwords : "Model response is not valid JSON: " =
        "Model response " ++ "is not valid JSON: " := by decide
      refine ⟨"is not valid JSON: " ++ fault.message, ?_⟩
      show (if fault.isSyntax then _ else _) = _
      rw [if_pos hsyntax, hwords, String.append_assoc]
  | notObject =>
      have hwords : "Model response is not a JSON object" =
        "Model response " ++ "is not a JSON object" := by decide
      exact ⟨"is not a JSON object", hwords⟩
  | notOperation data =>
      have hwords : "Model response does not describe an operation: " =
        "Model response " ++ "does not describe an operation: " := by decide
      refine ⟨"does not describe an operation: " ++ data.message remarks, ?_⟩
      show "Model response does not describe an operation: " ++ data.message remarks = _
      rw [hwords, String.append_assoc]

namespace Reply

theorem not_hasBlock_of_not_mem {s : Text} (h : .scalar '`' ∉ s) : ¬ HasBlock s := by
  intro hblock
  obtain ⟨b, hb⟩ := exists_isFirst_iff.mpr hblock
  have hlt := hb.count_lt
  rw [List.count_eq_zero.mpr h] at hlt
  exact absurd hlt (Nat.not_lt_zero _)

/-- A text in braces without the mark of a block is read as it stands. -/
theorem jsonPart_of_braced {t : Text} (ht : Json.Braced t) (hmark : .scalar '`' ∉ t) :
    jsonPart t = t := by
  have hbraced : braced? ([] ++ (t ++ [])) = some t :=
    braced?_append ht List.not_mem_nil List.not_mem_nil
  rw [List.nil_append, List.append_nil] at hbraced
  rw [jsonPart, fenced?_eq_none_iff.mpr (not_hasBlock_of_not_mem hmark)]
  simp only [hbraced]

end Reply

namespace Operation

variable {room : Nat} {reply : Text} {fault : JsonFault}

theorem ofReply_eq_notJson_iff :
    ofReply room reply = .error (.notJson fault) ↔
      Json.read room (Reply.jsonPart reply) = .error fault := by
  unfold ofReply
  cases hread : Json.read room (Reply.jsonPart reply) with
  | error fault => simp
  | ok v =>
      cases v with
      | null | bool _ | num _ | str _ | arr _ => simp
      | obj fs => cases hc : Checked.titled "Operation" check (.obj (completed fs)) <;> simp [hc]

/-- The reply describes an operation, or the refusal speaks of the reply. -/
def Settled (room : Nat) (reply : Text) : Prop :=
  ∀ e, ofReply room reply = .error e → e.SpeaksOfReply

/-- A reply describes an operation or is refused with words about the reply, exactly if the reader
meets nothing that exceeds its limits; what it meets is the refusal otherwise. -/
theorem ofReply_settled_iff (room : Nat) (reply : Text) :
    (Settled room reply ↔
      ∀ fault, ¬ Json.HasExcess (Json.Awaits room) (Reply.jsonPart reply) fault) ∧
    ∀ fault, Json.HasExcess (Json.Awaits room) (Reply.jsonPart reply) fault →
      ofReply room reply = .error (.notJson fault) ∧ fault.isSyntax = false := by
  have hrefused (fault : JsonFault)
      (h : Json.HasExcess (Json.Awaits room) (Reply.jsonPart reply) fault) :
      ofReply room reply = .error (.notJson fault) ∧ fault.isSyntax = false := by
    have hself := h.not_isSyntax
    exact ⟨ofReply_eq_notJson_iff.mpr ((Json.read_eq_excess_iff hself).mpr h), hself⟩
  refine ⟨⟨fun h fault hexcess => ?_, fun h e he => ?_⟩, hrefused⟩
  · obtain ⟨hrefusal, hself⟩ := hrefused fault hexcess
    exact ReplyError.speaksOfReply_iff.mp (h _ hrefusal) fault hself rfl
  · refine ReplyError.speaksOfReply_iff.mpr fun fault hself heq => ?_
    rw [heq] at he
    exact h fault ((Json.read_eq_excess_iff hself).mp (ofReply_eq_notJson_iff.mp he))

/-- A number of 4301 ones. -/
def longNumber : Text := List.replicate 4301 (.scalar '1')

/-- An object with this number. -/
def longReply : Text := Text.ofString "\x7b\"n\":" ++ (longNumber ++ Text.ofString "\x7d")

theorem longInteger_longNumber : Json.LongInteger longNumber 4301 := by
  have hdigits (n : Nat) : Json.Digits (List.replicate n (.scalar '1')) (List.replicate n 1) := by
    induction n with
    | zero => exact .nil
    | succ n ih => exact .cons rfl ih
  have hwhole : Json.Whole longNumber (List.replicate 4301 1) :=
    .digits (hdigits 4301) Nat.one_ne_zero
  have hlong := Json.LongInteger.mk .none hwhole (by rw [List.length_replicate]; decide)
  rwa [List.length_replicate] at hlong

theorem hasExcess_longReply (room : Nat) :
    Json.HasExcess (Json.Awaits (room + 1)) longReply (.longInteger 4301) := by
  have hname : Json.MemberName ([] ++ (.scalar '"' :: ([.scalar 'n'] ++ [.scalar '"']) ++ [])) :=
    .mk Json.blank_empty (.mk (.plain (by decide) (by decide) (by decide) .nil)) Json.blank_empty
  refine ⟨room, "\x7b\"n\":", longNumber ++ "\x7d", rfl, ?_,
    .longInteger longInteger_longNumber (Json.ends_brace []).stops⟩
  exact .obj Json.blank_empty (.here hname (.here Json.blank_empty))

/-- The integer in this object is too long, and the refusal does not speak of the reply. -/
theorem not_settled_longReply : ¬ Settled 990 longReply := by
  intro h
  have hbraced : Json.Braced longReply := ⟨Text.ofString "\"n\":" ++ longNumber, rfl⟩
  have hmark : .scalar '`' ∉ longReply := by
    unfold longReply longNumber
    simp only [List.mem_append, List.mem_replicate]
    decide
  have hexcess := hasExcess_longReply 989
  rw [← Reply.jsonPart_of_braced hbraced hmark] at hexcess
  have hrefused := (Json.read_eq_excess_iff hexcess.not_isSyntax).mpr hexcess
  exact ReplyError.speaksOfReply_iff.mp (h _ (ofReply_eq_notJson_iff.mpr hrefused)) _ rfl rfl

end Operation
end RouteScribe
