import Mathlib.Data.List.Nodup
import RouteScribe.Assoc

/-! # Looking up in a list of pairs

Where no name occurs twice, a look-up finds exactly the members of the list (`get?_eq_some_iff`), so
it does not depend on their order (`get?_perm`), and writing a value keeps the names apart
(`nodup_names_set`). -/

namespace RouteScribe
namespace Assoc

variable {κ α β : Type} [DecidableEq κ] {l l' : List (κ × α)} {name : κ} {a : α}

theorem mem_of_get? (h : get? l name = some a) : (name, a) ∈ l := by
  induction l with
  | nil => simp [get?] at h
  | cons e rest ih =>
      obtain ⟨k, b⟩ := e
      simp only [get?] at h
      split at h
      · next hk =>
          cases h
          exact hk ▸ List.mem_cons_self
      · exact List.mem_cons_of_mem _ (ih h)

theorem get?_of_mem (hn : (l.map Prod.fst).Nodup) (h : (name, a) ∈ l) : get? l name = some a := by
  induction l with
  | nil => simp at h
  | cons e rest ih =>
      obtain ⟨k, b⟩ := e
      simp only [List.map_cons, List.nodup_cons] at hn
      rcases List.mem_cons.mp h with he | hm
      · cases he
        simp [get?]
      · have hk : k ≠ name := fun hk => hn.1 (hk ▸ List.mem_map_of_mem (f := Prod.fst) hm)
        simpa [get?, hk] using ih hn.2 hm

/-- A look-up finds exactly the members. -/
theorem get?_eq_some_iff (hn : (l.map Prod.fst).Nodup) : get? l name = some a ↔ (name, a) ∈ l :=
  ⟨mem_of_get?, get?_of_mem hn⟩

/-- The order of the members does not count. -/
theorem get?_perm (hn : (l.map Prod.fst).Nodup) (hp : l.Perm l') : get? l name = get? l' name := by
  have hn' : (l'.map Prod.fst).Nodup := (hp.map Prod.fst).nodup_iff.mp hn
  apply Option.ext
  intro b
  rw [get?_eq_some_iff hn, get?_eq_some_iff hn', hp.mem_iff]

theorem get?_map_snd (f : α → β) :
    get? (l.map fun e => (e.1, f e.2)) name = (get? l name).map f := by
  induction l with
  | nil => rfl
  | cons e rest ih =>
      obtain ⟨k, b⟩ := e
      by_cases hk : k = name
      · simp [get?, hk]
      · simpa [get?, hk] using ih

theorem get?_filter (p : κ → Bool) (l : List (κ × α)) (name : κ) :
    get? (l.filter fun e => p e.1) name = if p name then get? l name else none := by
  induction l with
  | nil => simp [get?]
  | cons e rest ih =>
      obtain ⟨k, b⟩ := e
      by_cases hk : k = name
      · subst hk
        cases hp : p k <;> simp [get?, hp, ih]
      · cases hp : p k <;> simp [get?, hp, hk, ih]

theorem get?_eq_none_of_not_mem (h : name ∉ l.map Prod.fst) : get? l name = none := by
  cases hg : get? l name with
  | none => rfl
  | some a => exact absurd (List.mem_map_of_mem (f := Prod.fst) (mem_of_get? hg)) h

theorem exists_get?_iff : (∃ a, get? l name = some a) ↔ name ∈ l.map Prod.fst := by
  constructor
  · rintro ⟨a, ha⟩
    exact List.mem_map_of_mem (mem_of_get? ha)
  · intro h
    induction l with
    | nil => exact absurd h List.not_mem_nil
    | cons e rest ih =>
        obtain ⟨k, b⟩ := e
        by_cases hk : k = name
        · exact ⟨b, if_pos hk⟩
        · rw [List.map_cons, List.mem_cons] at h
          rw [get?, if_neg hk]
          exact ih (h.resolve_left (Ne.symm hk))

theorem nodup_names_set (hn : (l.map Prod.fst).Nodup) (name : κ) (b : α) :
    ((set l name b).map Prod.fst).Nodup := by
  rw [names_set]
  split
  · exact hn
  · next hm =>
      rw [List.nodup_append]
      refine ⟨hn, List.nodup_singleton _, ?_⟩
      rintro k hk n hn rfl
      rw [List.mem_singleton] at hn
      exact hm (hn ▸ hk)

/-- What a written list holds: the written value, and the old ones under other names. -/
theorem mem_set {name : κ} {b : α} {e : κ × α} (h : e ∈ set l name b) : e = (name, b) ∨ e ∈ l := by
  induction l with
  | nil => simpa [set] using h
  | cons x rest ih =>
      obtain ⟨k, c⟩ := x
      simp only [set] at h
      split at h
      · next hk =>
          rcases List.mem_cons.mp h with rfl | h
          · exact .inl (by rw [hk])
          · exact .inr (List.mem_cons_of_mem _ h)
      · rcases List.mem_cons.mp h with rfl | h
        · exact .inr List.mem_cons_self
        · exact (ih h).imp_right (List.mem_cons_of_mem _)

theorem set_ne_nil (l : List (κ × α)) (name : κ) (b : α) : set l name b ≠ [] := by
  cases l with
  | nil => simp [set]
  | cons e rest =>
      simp only [set]
      split <;> exact List.cons_ne_nil _ _

theorem length_set (l : List (κ × α)) (name : κ) (b : α) :
    (set l name b).length = l.length + if (get? l name).isSome then 0 else 1 := by
  induction l with
  | nil => simp [set, get?]
  | cons e rest ih =>
      obtain ⟨k, c⟩ := e
      by_cases hk : k = name
      · simp [set, get?, hk]
      · simp only [set, get?, hk, if_false, List.length_cons, ih]
        omega

/-! ### Writing one pair after the other -/

theorem set_of_not_mem {name : κ} (h : name ∉ l.map Prod.fst) (b : α) :
    set l name b = l ++ [(name, b)] := by
  induction l with
  | nil => rfl
  | cons e rest ih =>
      obtain ⟨k, c⟩ := e
      rw [List.map_cons, List.mem_cons, not_or] at h
      rw [set, if_neg (Ne.symm h.1), ih h.2, List.cons_append]

theorem nodup_names_ofPairs (ps : List (κ × α)) : ((ofPairs ps).map Prod.fst).Nodup := by
  suffices h : ∀ fs : List (κ × α), (fs.map Prod.fst).Nodup →
      ((ps.foldl (fun fs p => set fs p.1 p.2) fs).map Prod.fst).Nodup from h [] List.nodup_nil
  intro fs hfs
  induction ps generalizing fs with
  | nil => exact hfs
  | cons p ps ih => exact ih _ (nodup_names_set hfs p.1 p.2)

theorem mem_of_mem_ofPairs {ps : List (κ × α)} {e : κ × α} (h : e ∈ ofPairs ps) : e ∈ ps := by
  suffices hs : ∀ fs : List (κ × α), e ∈ ps.foldl (fun fs p => set fs p.1 p.2) fs →
      e ∈ fs ∨ e ∈ ps from (hs [] h).resolve_left List.not_mem_nil
  clear h
  intro fs hfs
  induction ps generalizing fs with
  | nil => exact .inl hfs
  | cons p ps ih =>
      rw [List.foldl_cons] at hfs
      rcases ih _ hfs with h | h
      · rcases mem_set h with rfl | h
        · exact .inr List.mem_cons_self
        · exact .inl h
      · exact .inr (List.mem_cons_of_mem p h)

/-- Pairs whose names differ stay as they are. -/
theorem ofPairs_eq_self {ps : List (κ × α)} (h : (ps.map Prod.fst).Nodup) : ofPairs ps = ps := by
  suffices hs : ∀ fs : List (κ × α), ((fs ++ ps).map Prod.fst).Nodup →
      ps.foldl (fun fs p => set fs p.1 p.2) fs = fs ++ ps from hs [] h
  clear h
  intro fs hfs
  induction ps generalizing fs with
  | nil => exact (List.append_nil fs).symm
  | cons p ps ih =>
      have hp : p.1 ∉ fs.map Prod.fst := by
        rw [List.map_append, List.nodup_append] at hfs
        exact fun hm => hfs.2.2 p.1 hm p.1 List.mem_cons_self rfl
      rw [List.append_cons] at hfs
      rw [List.foldl_cons, set_of_not_mem hp, ih _ hfs, ← List.append_cons]

theorem get?_append (l l' : List (κ × α)) (name : κ) :
    get? (l ++ l') name = (get? l name).or (get? l' name) := by
  induction l with
  | nil => rfl
  | cons e rest ih =>
      obtain ⟨k, b⟩ := e
      by_cases hk : k = name
      · simp [get?, hk]
      · simpa [get?, hk] using ih

/-- The last value of a name counts. -/
theorem get?_ofPairs (ps : List (κ × α)) (name : κ) :
    get? (ofPairs ps) name = get? ps.reverse name := by
  suffices hs : ∀ fs : List (κ × α), get? (ps.foldl (fun fs p => set fs p.1 p.2) fs) name =
      (get? ps.reverse name).or (get? fs name) by simpa [ofPairs, get?] using hs []
  intro fs
  induction ps generalizing fs with
  | nil => rfl
  | cons p ps ih =>
      obtain ⟨k, b⟩ := p
      rw [List.foldl_cons, ih, List.reverse_cons, get?_append, Option.or_assoc]
      congr 1
      by_cases hk : k = name
      · subst hk
        simp [get?, get?_set_self]
      · simp [get?, hk, get?_set_ne _ _ (Ne.symm hk)]

/-! ### Lists of pairs in a list of pairs -/

variable {μ : Type} [DecidableEq μ]

/-- The value of a name in the list that another name has. -/
def find? (l : List (κ × List (μ × α))) (name : κ) (inner : μ) : Option α :=
  (get? l name).bind fun item => get? item inner

theorem get?_map_fst {ν : Type} [DecidableEq ν] {f : κ → ν} (hf : Function.Injective f)
    (l : List (κ × α)) (name : κ) : get? (l.map fun e => (f e.1, e.2)) (f name) = get? l name := by
  induction l with
  | nil => rfl
  | cons e rest ih => simp only [List.map_cons, get?, hf.eq_iff, ih]

/-- Names can be written in another way. -/
theorem find?_map {ν ξ : Type} [DecidableEq ν] [DecidableEq ξ] {f : κ → ν} {g : μ → ξ}
    (hf : Function.Injective f) (hg : Function.Injective g) (l : List (κ × List (μ × α)))
    (name : κ) (inner : μ) :
    find? (l.map fun e => (f e.1, e.2.map fun i => (g i.1, i.2))) (f name) (g inner) =
      find? l name inner := by
  have hl : (l.map fun e => (f e.1, e.2.map fun i => (g i.1, i.2))) =
      (l.map fun e => (e.1, e.2.map fun i => (g i.1, i.2))).map fun e => (f e.1, e.2) := by
    rw [List.map_map]
    rfl
  rw [find?, hl, get?_map_fst hf,
    get?_map_snd fun item : List (μ × α) => item.map fun i => (g i.1, i.2), find?]
  cases get? l name with
  | none => rfl
  | some item => exact get?_map_fst hg item inner

/-- What is found has names that are there. -/
theorem exists_of_find? {l : List (κ × List (μ × α))} {inner : μ} (h : find? l name inner = some a) :
    ∃ item, (name, item) ∈ l ∧ (inner, a) ∈ item := by
  obtain ⟨item, hi, ha⟩ := Option.bind_eq_some_iff.mp h
  exact ⟨item, mem_of_get? hi, mem_of_get? ha⟩

end Assoc
end RouteScribe
