import Mathlib.Data.List.Induction
import RouteScribe.Proofs.Providers.Setup
import RouteScribe.Proofs.Text.Order

/-! # What a registry answers after a history of changes

Providers are registered and taken out, one after the other.  A name then stands for the provider of
its latest registration, unless it was taken out since, or for a built-in one if it was never changed
(`StandsFor`).  A change does to what a look-up finds (`get?_changed`) what one more change does to
this relation (`standsFor_concat`), so after every history the look-ups answer from it
(`get?_after`, `answers_after`). -/

namespace RouteScribe
namespace Registry

/-- A change of a registry. -/
inductive Change where
  | register (name : List Char) (p : Provider)
  | unregister (name : List Char)

/-- The name that is changed. -/
def Change.name : Change → List Char
  | register name _ => name
  | unregister name => name

/-- The registry after a change. -/
def changed (r : Registry) : Change → Registry
  | .register name p => r.register name p
  | .unregister name => r.unregister name

/-- The registry at the start after changes. -/
def after (changes : List Change) : Registry := changes.foldl changed builtin

variable {changes : List Change} {c : Change} {name : List Char} {p : Provider}

/-! ### What a name stands for -/

/-- The name was registered with the provider and has not been changed since. -/
def Registered (changes : List Change) (name : List Char) (p : Provider) : Prop :=
  ∃ before since, changes = before ++ .register name p :: since ∧ ∀ c ∈ since, c.name ≠ name

/-- The name has not been changed. -/
def Untouched (changes : List Change) (name : List Char) : Prop := ∀ c ∈ changes, c.name ≠ name

/-- The provider that a name stands for after the changes: that of its latest registration, or the
built-in one of a name that has not been changed. -/
def StandsFor (changes : List Change) (name : List Char) (p : Provider) : Prop :=
  Registered changes name p ∨ (name, p) ∈ builtin ∧ Untouched changes name

theorem registered_concat : Registered (changes ++ [c]) name p ↔
    c = .register name p ∨ c.name ≠ name ∧ Registered changes name p := by
  constructor
  · rintro ⟨before, since, heq, hsince⟩
    rcases List.eq_nil_or_concat' since with rfl | ⟨since, d, rfl⟩
    · exact .inl (List.append_singleton_inj.mp heq).2
    · rw [← List.cons_append, ← List.append_assoc] at heq
      obtain ⟨hchanges, rfl⟩ := List.append_singleton_inj.mp heq
      rw [List.forall_mem_append, List.forall_mem_singleton] at hsince
      exact .inr ⟨hsince.2, before, since, hchanges, hsince.1⟩
  · rintro (rfl | ⟨hc, before, since, rfl, hsince⟩)
    · exact ⟨changes, [], rfl, List.forall_mem_nil _⟩
    · refine ⟨before, since ++ [c], by rw [List.append_assoc, List.cons_append], ?_⟩
      rw [List.forall_mem_append, List.forall_mem_singleton]
      exact ⟨hsince, hc⟩

/-- One more change decides about its own name, and about no other. -/
theorem standsFor_concat : StandsFor (changes ++ [c]) name p ↔
    c = .register name p ∨ c.name ≠ name ∧ StandsFor changes name p := by
  rw [StandsFor, StandsFor, registered_concat, Untouched, Untouched, List.forall_mem_append,
    List.forall_mem_singleton]
  tauto

/-! ### What the registry finds -/

theorem get?_changed {r : Registry} : (r.changed c).get? name = some p ↔
    c = .register name p ∨ c.name ≠ name ∧ r.get? name = some p := by
  cases c with
  | register other q =>
      by_cases h : other = name
      · subst h
        have hset : (r.changed (.register other q)).get? other = some q :=
          Assoc.get?_set_self r other q
        simp [hset, Change.name]
      · have hset : (r.changed (.register other q)).get? name = r.get? name :=
          Assoc.get?_set_ne r q (Ne.symm h)
        simp [hset, Change.name, h]
  | unregister other =>
      have hfilter : (r.changed (.unregister other)).get? name =
          if name != other then r.get? name else none :=
        Assoc.get?_filter (fun k => k != other) r name
      by_cases h : other = name
      · subst h
        simp [hfilter, Change.name]
      · simp [hfilter, Change.name, h, Ne.symm h]

theorem nodup_names_changed {r : Registry} (h : (r.map Prod.fst).Nodup) (c : Change) :
    ((r.changed c).map Prod.fst).Nodup := by
  cases c with
  | register name p => exact Assoc.nodup_names_set h name p
  | unregister name => exact (List.filter_sublist.map Prod.fst).nodup h

theorem after_concat (changes : List Change) (c : Change) :
    after (changes ++ [c]) = (after changes).changed c := List.foldl_concat ..

theorem nodup_names_builtin : (builtin.map Prod.fst).Nodup := by decide

/-- After every history a name finds the provider that it stands for. -/
theorem get?_after : (after changes).get? name = some p ↔ StandsFor changes name p := by
  induction changes using List.reverseRecOn with
  | nil =>
      have hstart : StandsFor [] name p ↔ (name, p) ∈ builtin := by
        simp [StandsFor, Registered, Untouched]
      rw [hstart]
      exact Assoc.get?_eq_some_iff nodup_names_builtin
  | append_singleton changes c ih => rw [after_concat, get?_changed, standsFor_concat, ih]

/-- No name is there twice. -/
theorem nodup_names_after (changes : List Change) : ((after changes).map Prod.fst).Nodup := by
  induction changes using List.reverseRecOn with
  | nil => exact nodup_names_builtin
  | append_singleton changes c ih =>
      rw [after_concat]
      exact nodup_names_changed ih c

/-- **What a registry answers after a history of changes.**  The names are listed in strictly
increasing order, and they are those that stand for a provider.  Validating a choice and the look-ups
agree on a name unless its provider cannot be set up.  Every look-up of a name answers with
the provider that it stands for, and is refused if there is none. -/
theorem answers_after (changes : List Change) :
    (after changes).names.Pairwise (· < ·) ∧
    (∀ name, name ∈ (after changes).names ↔ ∃ p, StandsFor changes name p) ∧
    (∀ name, (after changes).Agrees name ↔ ∀ p, StandsFor changes name p → p.Unreserved) ∧
    (∀ name p, StandsFor changes name p → (after changes).AnswersWith name p) ∧
    ∀ name, (∀ p, ¬ StandsFor changes name p) → (after changes).Refuses name := by
  refine ⟨pairwise_lt_mergeSort (nodup_names_after changes), fun name => ?_, fun name => ?_,
    fun name p h => answersWith_of_get? (get?_after.mpr h), fun name h => refuses_of_get?_none ?_⟩
  · simp only [mem_names_iff, get?_after]
  · simp only [agrees_iff, get?_after]
  · exact Option.eq_none_iff_forall_ne_some.mpr fun p hp => h p (get?_after.mp hp)

/-- A provider without a key whose models have the vendor in front. -/
def ollama : Provider where
  defaultModel := "llama3".toList
  keyVariable := []
  vendor := "ollama".toList
  params := Provider.defaultParams

/-- A history in which a provider is replaced and a built-in one is taken out. -/
def localHistory : List Change :=
  [.register "local".toList { ollama with vendor := [] }, .register "local".toList ollama,
    .unregister "anthropic".toList]

/-- The second registration counts, and the provider that was taken out is unknown. -/
theorem answers_localHistory :
    StandsFor localHistory "local".toList ollama ∧ ollama.Unreserved ∧
      (∀ p, ¬ StandsFor localHistory "anthropic".toList p) ∧
      (∃ s, (after localHistory).create "local".toList none (some "a/b".toList) = .ok s ∧
        s.client.model = "ollama/a/b".toList) ∧
      "local".toList ∈ (after localHistory).names ∧
      (after localHistory).Refuses "anthropic".toList := by
  have hlocal : StandsFor localHistory "local".toList ollama :=
    .inl ⟨[.register "local".toList { ollama with vendor := [] }],
      [.unregister "anthropic".toList], rfl, List.forall_mem_singleton.mpr (by decide)⟩
  have hunreserved : ollama.Unreserved := by
    intro part
    cases part <;> decide
  have hgone : ∀ p, ¬ StandsFor localHistory "anthropic".toList p := by
    intro p hp
    rw [← get?_after] at hp
    cases hp
  obtain ⟨-, hlisted, -, hanswers, hrefuses⟩ := answers_after localHistory
  obtain ⟨s, hs, hsetUp⟩ :=
    (hanswers _ _ hlocal).created hunreserved none (some "a/b".toList)
  have hmodel : s.model = "a/b".toList := hsetUp.chosen _ rfl (by decide)
  have hfull : ¬ ollama.IsFull s.model := by
    rw [hmodel]
    simp only [Provider.IsFull]
    decide
  refine ⟨hlocal, hunreserved, hgone, ⟨s, hs, ?_⟩, (hlisted _).mpr ⟨_, hlocal⟩, hrefuses _ hgone⟩
  rw [hsetUp.prefixed hfull, hmodel]
  rfl

/-- A provider that says the model of its requests once more. -/
def modelTwice : Provider := { ollama with vendor := [], params := [("model", .string "llama3")] }

/-- A provider is accepted that cannot be set up. -/
theorem not_agrees_modelTwice :
    ¬ (after [.register "local".toList modelTwice]).Agrees "local".toList := by
  have hlocal : StandsFor [.register "local".toList modelTwice] "local".toList modelTwice :=
    .inl ⟨[], [], rfl, List.forall_mem_nil _⟩
  rw [agrees_iff]
  intro h
  exact h _ (get?_after.mpr hlocal) .model List.mem_cons_self

end Registry
end RouteScribe
