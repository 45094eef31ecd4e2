/-!
# Lists of pairs

A list of pairs binds each name to its first value.  `Assoc.set` writes a value: in the old place
when the name is there, and else at the end, so the order of first writing stays.
-/

namespace RouteScribe

namespace Assoc

variable {κ α : Type} [DecidableEq κ]

/-- The value of a name. -/
def get? : List (κ × α) → κ → Option α
  | [], _ => none
  | (k, a) :: rest, name => if k = name then some a else get? rest name

/-- The list with a value written under a name. -/
def set : List (κ × α) → κ → α → List (κ × α)
  | [], name, b => [(name, b)]
  | (k, a) :: rest, name, b => if k = name then (k, b) :: rest else (k, a) :: set rest name b

/-- The list of pairs in which the last value of a name stands in the place of the first. -/
def ofPairs (ps : List (κ × α)) : List (κ × α) := ps.foldl (fun fs p => set fs p.1 p.2) []

theorem get?_set_self (l : List (κ × α)) (name : κ) (b : α) :
    get? (set l name b) name = some b := by
  induction l with
  | nil => simp [set, get?]
  | cons e rest ih =>
    obtain ⟨k, a⟩ := e
    by_cases h : k = name <;> simp [set, get?, h, ih]

theorem get?_set_ne (l : List (κ × α)) {name other : κ} (b : α) (h : other ≠ name) :
    get? (set l name b) other = get? l other := by
  induction l with
  | nil => simp [set, get?, Ne.symm h]
  | cons e rest ih =>
    obtain ⟨k, a⟩ := e
    by_cases hk : k = name
    · subst hk
      simp [set, get?, Ne.symm h]
    · simp [set, get?, hk, ih]

theorem names_set (l : List (κ × α)) (name : κ) (b : α) :
    (set l name b).map Prod.fst =
      if name ∈ l.map Prod.fst then l.map Prod.fst else l.map Prod.fst ++ [name] := by
  induction l with
  | nil => simp [set]
  | cons e rest ih =>
    obtain ⟨k, a⟩ := e
    by_cases h : k = name
    · simp [set, h]
    · by_cases hm : name ∈ rest.map Prod.fst <;> simp_all [set, Ne.symm h]

end Assoc

end RouteScribe
