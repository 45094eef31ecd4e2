import RouteScribe.Proofs.Assoc
import RouteScribe.Providers.Setup

/-! # Setting up a provider

A client asks for the full name of a model, and asking for this again changes nothing
(`Provider.client_client`).  A provider is set up as long as its parameters take no name that the
client has for itself (`Provider.Unreserved`).

A choice is validated by the listed names, and this comes to the same as looking the provider up
(`Registry.validate_eq_check`).  Validating does not look at the parameters, and this is the one
thing in which it can part from the look-ups (`Registry.agrees_iff`). -/

namespace RouteScribe

/-! ### The model of a client -/

namespace Provider

variable {p : Provider} {given : Option (List Char)} {model : List Char}

/-- The model is already a full name: it has the vendor and a slash in front, or there is no vendor.
-/
def IsFull (p : Provider) (model : List Char) : Prop := p.vendor = [] ∨ p.vendor ++ ['/'] <+: model

theorem fullName_of_isFull (h : p.IsFull model) : p.fullName model = model := by
  rw [fullName]
  apply if_pos
  rw [Bool.or_eq_true, List.isEmpty_iff, List.isPrefixOf_iff_prefix]
  exact h

theorem fullName_of_not_isFull (h : ¬ p.IsFull model) :
    p.fullName model = p.vendor ++ '/' :: model := by
  rw [fullName, if_neg, List.append_assoc, List.singleton_append]
  rw [Bool.or_eq_true, List.isEmpty_iff, List.isPrefixOf_iff_prefix]
  exact h

theorem isFull_fullName (p : Provider) (model : List Char) : p.IsFull (p.fullName model) := by
  by_cases h : p.IsFull model
  · rwa [fullName_of_isFull h]
  · rw [fullName_of_not_isFull h]
    exact .inr ⟨model, by rw [List.append_assoc, List.singleton_append]⟩

theorem model_of_ne_nil (h : model ≠ []) : p.model (some model) = model := by
  obtain ⟨c, rest, rfl⟩ := List.exists_cons_of_ne_nil h
  rfl

theorem model_of_empty (h : ∀ m ∈ given, m = []) : p.model given = p.defaultModel := by
  cases given with
  | none => rfl
  | some m =>
      obtain rfl : m = [] := h m rfl
      rfl

/-- The model that is used is used again when it is given. -/
theorem model_model (p : Provider) (given : Option (List Char)) :
    p.model (some (p.model given)) = p.model given := by
  by_cases h : ∀ m ∈ given, m = []
  · rw [model_of_empty h]
    rcases eq_or_ne p.defaultModel [] with hd | hd
    · rw [hd]
      exact hd
    · exact model_of_ne_nil hd
  · obtain ⟨m, hm, hne⟩ : ∃ m ∈ given, m ≠ [] := by simpa using h
    cases hm
    rw [model_of_ne_nil hne, model_of_ne_nil hne]

/-- A client that is given the model of another client of the provider asks for the same model. -/
theorem client_client (p : Provider) (key given : Option (List Char)) :
    p.client key (some (p.client key given).model) = p.client key given := by
  have hmodel : p.fullName (p.model (some (p.fullName (p.model given)))) =
      p.fullName (p.model given) := by
    by_cases hfull : p.IsFull (p.model given)
    · rw [fullName_of_isFull hfull, model_model, fullName_of_isFull hfull]
    · have hne : p.fullName (p.model given) ≠ [] := by
        rw [fullName_of_not_isFull hfull]
        exact List.append_ne_nil_of_right_ne_nil _ (List.cons_ne_nil _ _)
      rw [model_of_ne_nil hne, fullName_of_isFull (isFull_fullName p _)]
  rw [client, client, hmodel]

/-! ### Names that parameters cannot have -/

/-- No parameter has a name that the client has for itself. -/
def Unreserved (p : Provider) : Prop :=
  ∀ part : ClientPart, Text.ofString part.word ∉ p.params.map Prod.fst

end Provider

namespace ClientPart

variable {params : Fields} {part : ClientPart}

theorem word_mem_of_taken? (h : taken? params = some part) :
    Text.ofString part.word ∈ params.map Prod.fst := by
  rw [taken?, Option.or_eq_some_iff] at h
  rcases h with h | ⟨-, h⟩
  · obtain ⟨f, hf, hpart⟩ := List.exists_of_findSome?_eq_some h
    have hword : f.1 = Text.ofString part.word := by
      simpa using List.find?_some hpart
    exact hword ▸ List.mem_map_of_mem hf
  · split at h
    · next hself =>
        cases h
        obtain ⟨f, hf, hword⟩ := List.any_eq_true.mp hself
        exact List.mem_map.mpr ⟨f, hf, beq_iff_eq.mp hword⟩
    · cases h

theorem word_not_mem_of_taken? (h : taken? params = none) (part : ClientPart) :
    Text.ofString part.word ∉ params.map Prod.fst := by
  rw [taken?, Option.or_eq_none_iff, List.findSome?_eq_none_iff] at h
  obtain ⟨hfront, hself⟩ := h
  intro hmem
  obtain ⟨f, hf, hword⟩ := List.mem_map.mp hmem
  have hsearch := List.find?_eq_none.mp (hfront f hf)
  cases part with
  | model => exact hsearch .model List.mem_cons_self (decide_eq_true hword)
  | key => exact hsearch .key (List.mem_cons_of_mem _ List.mem_cons_self) (decide_eq_true hword)
  | self =>
      have hhas : params.has (Text.ofString self.word) = true :=
        List.any_eq_true.mpr ⟨f, hf, beq_iff_eq.mpr hword⟩
      rw [if_pos hhas] at hself
      cases hself

end ClientPart

namespace Registry

variable {r : Registry} {name : List Char} {key given : Option (List Char)} {format : List Char}
  {p : Provider}

/-! ### Look-ups -/

/-- The choice is not refused because of its provider. -/
def AcceptsProvider (r : Registry) (name : List Char) (key : Option (List Char))
    (format : List Char) : Prop :=
  ∀ named available, r.validate name key format ≠ .error (.unknownProvider named available)

/-- Validating and the look-ups agree on a name: its provider is accepted exactly if it can be set up
and its default model and the variable with its key are found. -/
def Agrees (r : Registry) (name : List Char) : Prop :=
  ∀ key given format, r.AcceptsProvider name key format ↔
    (∃ s, r.create name key given = .ok s) ∧ (∃ m, r.defaultModel name = .ok m) ∧
      ∃ v, r.keyVariable name = .ok v

theorem find_of_get? (h : r.get? name = some p) : r.find name = .ok p := by
  rw [find, h]

theorem find_of_get?_none (h : r.get? name = none) :
    r.find name = .error (.unknownProvider name r.names) := by
  rw [find, h]

/-- The listed names are those that are found. -/
theorem mem_names_iff : name ∈ r.names ↔ ∃ p, r.get? name = some p := by
  rw [names, (List.mergeSort_perm _ _).mem_iff]
  exact Assoc.exists_get?_iff.symm

theorem validate_of_get?_none (h : r.get? name = none) (key : Option (List Char))
    (format : List Char) :
    r.validate name key format = .error (.unknownProvider name r.names) := by
  rw [validate, if_neg]
  intro hname
  obtain ⟨p, hp⟩ := mem_names_iff.mp hname
  cases h.symm.trans hp

theorem validate_of_get? (h : r.get? name = some p) (key : Option (List Char))
    (format : List Char) : r.validate name key format =
      if (key.getD []).isEmpty then .error (.missingKey p.keyVariable)
      else if (OutputFormat.ofName? (Text.ofChars format)).isSome then .ok ()
      else .error (.unknownFormat format) := by
  rw [validate, if_pos (mem_names_iff.mpr ⟨p, h⟩), keyVariable, find_of_get? h]
  rfl

/-- Validating a choice refuses what looking its provider and its format up refuses. -/
theorem validate_eq_check (r : Registry) (name : List Char) (key : Option (List Char))
    (format : List Char) :
    r.validate name key format = (r.check name key format).map fun _ => () := by
  cases hp : r.get? name with
  | none =>
      rw [validate_of_get?_none hp, check, find_of_get?_none hp]
      rfl
  | some p =>
      rw [validate_of_get? hp, check, find_of_get? hp]
      simp only [bind, Except.bind]
      by_cases hkey : (key.getD []).isEmpty
      · rw [if_pos hkey, if_pos hkey]
        rfl
      · rw [if_neg hkey, if_neg hkey]
        cases OutputFormat.ofName? (Text.ofChars format) <;> rfl

/-- A choice is taken that has a known provider, a key and a known format. -/
theorem check_eq_ok_iff {f : OutputFormat} : r.check name key format = .ok (p, f) ↔
    r.get? name = some p ∧ (key.getD []).isEmpty = false ∧
      OutputFormat.ofName? (Text.ofChars format) = some f := by
  cases hp : r.get? name with
  | none =>
      rw [check, find_of_get?_none hp]
      exact iff_of_false nofun nofun
  | some q =>
      rw [check, find_of_get? hp]
      simp only [bind, Except.bind]
      cases hkey : (key.getD []).isEmpty with
      | true => simp
      | false => cases OutputFormat.ofName? (Text.ofChars format) <;> simp

theorem acceptsProvider_iff : r.AcceptsProvider name key format ↔ ∃ p, r.get? name = some p := by
  cases hp : r.get? name with
  | none => simp [AcceptsProvider, validate_of_get?_none hp]
  | some p =>
      refine iff_of_true ?_ ⟨p, rfl⟩
      intro named available
      rw [validate_of_get? hp]
      split
      · nofun
      · split <;> nofun

/-! ### A provider that is set up -/

/-- How a provider of a name is set up with a key and perhaps a model. -/
structure SetUp (p : Provider) (name : List Char) (key given : Option (List Char))
    (s : ReadyProvider) : Prop where
  name : s.name = name
  key : s.client.key = key
  params : s.client.params = p.params
  /-- The given model is used. -/
  chosen : ∀ m ∈ given, m ≠ [] → s.model = m
  /-- The default model is used when none or an empty one is given. -/
  usual : (∀ m ∈ given, m = []) → s.model = p.defaultModel
  /-- A full name is left alone. -/
  full : p.IsFull s.model → s.client.model = s.model
  /-- Any other name gets the vendor in front, once. -/
  prefixed : ¬ p.IsFull s.model → s.client.model = p.vendor ++ '/' :: s.model

theorem setUp_client (p : Provider) (name : List Char) (key given : Option (List Char)) :
    SetUp p name key given ⟨name, p.model given, p.client key given⟩ where
  name := rfl
  key := rfl
  params := rfl
  chosen := by
    rintro m rfl hne
    exact Provider.model_of_ne_nil hne
  usual := Provider.model_of_empty
  full := Provider.fullName_of_isFull
  prefixed := Provider.fullName_of_not_isFull

theorem create_of_get? (h : r.get? name = some p) (key given : Option (List Char)) :
    r.create name key given =
      match ClientPart.taken? p.params with
      | some part => .error (.nameTaken part)
      | none => .ok ⟨name, p.model given, p.client key given⟩ := by
  rw [create, find_of_get? h]
  rfl

theorem create_of_unreserved (h : r.get? name = some p) (hp : p.Unreserved)
    (key given : Option (List Char)) :
    r.create name key given = .ok ⟨name, p.model given, p.client key given⟩ := by
  rw [create_of_get? h]
  cases ht : ClientPart.taken? p.params with
  | none => rfl
  | some part => exact absurd (ClientPart.word_mem_of_taken? ht) (hp part)

theorem create_of_reserved (h : r.get? name = some p) (hp : ¬ p.Unreserved)
    (key given : Option (List Char)) : ∃ part : ClientPart,
      Text.ofString part.word ∈ p.params.map Prod.fst ∧
        r.create name key given = .error (.nameTaken part) := by
  rw [create_of_get? h]
  cases ht : ClientPart.taken? p.params with
  | none => exact absurd (ClientPart.word_not_mem_of_taken? ht) hp
  | some part => exact ⟨part, ClientPart.word_mem_of_taken? ht, rfl⟩

/-- The built-in providers can be set up, with the client that they have for a key and a model. -/
theorem create_builtin (h : builtin.get? name = some p) (key given : Option (List Char)) :
    builtin.create name key given = .ok ⟨name, p.model given, p.client key given⟩ := by
  refine create_of_unreserved h ?_ key given
  have hall : ∀ e ∈ builtin, e.2.Unreserved := by
    rw [builtin, List.forall_mem_cons, List.forall_mem_singleton]
    constructor
    · intro part
      cases part <;> decide
    · intro part
      cases part <;> decide
  exact hall _ (Assoc.mem_of_get? h)

/-! ### All look-ups of one name -/

/-- Validating and the look-ups agree exactly on the names whose providers can be set up, and on those
that have none. -/
theorem agrees_iff : r.Agrees name ↔ ∀ p, r.get? name = some p → p.Unreserved := by
  constructor
  · intro h p hp
    by_contra hreserved
    obtain ⟨⟨s, hs⟩, -⟩ := (h none none []).mp (acceptsProvider_iff.mpr ⟨p, hp⟩)
    obtain ⟨part, -, herror⟩ := create_of_reserved hp hreserved none none
    cases hs.symm.trans herror
  · intro h key given format
    rw [acceptsProvider_iff]
    constructor
    · rintro ⟨p, hp⟩
      rw [defaultModel, keyVariable, find_of_get? hp]
      exact ⟨⟨_, create_of_unreserved hp (h p hp) key given⟩, ⟨_, rfl⟩, ⟨_, rfl⟩⟩
    · rintro ⟨-, -, v, hv⟩
      cases hp : r.get? name with
      | some p => exact ⟨p, rfl⟩
      | none =>
          rw [keyVariable, find_of_get?_none hp] at hv
          cases hv

/-- Every look-up of the name answers with the provider. -/
structure AnswersWith (r : Registry) (name : List Char) (p : Provider) : Prop where
  accepted : ∀ key format, r.AcceptsProvider name key format
  defaultModel : r.defaultModel name = .ok p.defaultModel
  keyVariable : r.keyVariable name = .ok p.keyVariable
  created : p.Unreserved → ∀ key given, ∃ s, r.create name key given = .ok s ∧
    SetUp p name key given s
  /-- Giving the model of the client makes the same client. -/
  again : ∀ key given s, r.create name key given = .ok s →
    ∃ s', r.create name key (some s.client.model) = .ok s' ∧ s'.client = s.client
  /-- A parameter with a name of the client's own keeps the provider from being set up. -/
  reserved : ¬ p.Unreserved → ∀ key given, ∃ part : ClientPart,
    Text.ofString part.word ∈ p.params.map Prod.fst ∧
      r.create name key given = .error (.nameTaken part)

theorem answersWith_of_get? (h : r.get? name = some p) : r.AnswersWith name p where
  accepted key format := acceptsProvider_iff.mpr ⟨p, h⟩
  defaultModel := by rw [Registry.defaultModel, find_of_get? h]; rfl
  keyVariable := by rw [Registry.keyVariable, find_of_get? h]; rfl
  created hp key given := ⟨_, create_of_unreserved h hp key given, setUp_client p name key given⟩
  again key given s hs := by
    by_cases hp : p.Unreserved
    · rw [create_of_unreserved h hp] at hs
      cases hs
      exact ⟨_, create_of_unreserved h hp key _, p.client_client key given⟩
    · obtain ⟨part, -, herror⟩ := create_of_reserved h hp key given
      cases hs.symm.trans herror
  reserved hp key given := create_of_reserved h hp key given

/-- Every look-up of the name is refused, with the names that are there. -/
structure Refuses (r : Registry) (name : List Char) : Prop where
  validate : ∀ key format, r.validate name key format = .error (.unknownProvider name r.names)
  defaultModel : r.defaultModel name = .error (.unknownProvider name r.names)
  keyVariable : r.keyVariable name = .error (.unknownProvider name r.names)
  create : ∀ key given, r.create name key given =
    .error (.choice (.unknownProvider name r.names))

theorem refuses_of_get?_none (h : r.get? name = none) : r.Refuses name where
  validate key format := validate_of_get?_none h key format
  defaultModel := by rw [Registry.defaultModel, find_of_get?_none h]; rfl
  keyVariable := by rw [Registry.keyVariable, find_of_get?_none h]; rfl
  create key given := by rw [Registry.create, find_of_get?_none h]; rfl

end Registry
end RouteScribe
