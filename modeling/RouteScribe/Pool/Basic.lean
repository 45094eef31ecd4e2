/-!
# Pools of slots

A pool has a limit of slots, at least one.  It counts the slots that are taken, and the most that
ever were.
-/

namespace RouteScribe

/-- A pool of slots. -/
structure Pool where
  limit : Nat
  active : Nat
  peak : Nat
  limit_pos : 0 < limit
deriving Repr

namespace Pool

/-- The limit of a pool that nobody has chosen. -/
def usualLimit : Nat := 5

/-- The refusal of a limit below one. -/
structure BadLimit where
  limit : Int
deriving DecidableEq, Repr

/-- The words for a refused limit. -/
def BadLimit.message (e : BadLimit) : String :=
  "Concurrency limit must be at least 1, got " ++ toString e.limit

/-- A pool without taken slots. -/
def make (limit : Int) : Except BadLimit Pool :=
  if h : 1 ≤ limit then .ok ⟨limit.toNat, 0, 0, by omega⟩ else .error ⟨limit⟩

theorem active_make {limit : Int} {p : Pool} (h : make limit = .ok p) : p.active = 0 := by
  unfold make at h
  split at h <;> cases h
  rfl

theorem peak_make {limit : Int} {p : Pool} (h : make limit = .ok p) : p.peak = 0 := by
  unfold make at h
  split at h <;> cases h
  rfl

theorem limit_make {limit : Int} {p : Pool} (h : make limit = .ok p) :
    p.limit = limit.toNat := by
  unfold make at h
  split at h <;> cases h
  rfl

/-- A pool of an allowed limit has a slot. -/
theorem exists_make {limit : Int} (h : 1 ≤ limit) :
    ∃ p, make limit = .ok p ∧ p.active < p.limit := by
  have hpos : 0 < limit.toNat := by omega
  exact ⟨⟨limit.toNat, 0, 0, hpos⟩, by simp [make, h], hpos⟩

/-- The pool of the usual limit. -/
def usual : Pool := ⟨usualLimit, 0, 0, by decide⟩

/-- Takes a slot. -/
def take (p : Pool) : Pool := { p with active := p.active + 1, peak := max p.peak (p.active + 1) }

/-- Gives a slot back. -/
def give (p : Pool) : Pool := { p with active := p.active - 1 }

/-- Takes some slots. -/
def takeMany : Nat → Pool → Pool
  | 0, p => p
  | n + 1, p => takeMany n p.take

/-- Gives some slots back. -/
def giveMany : Nat → Pool → Pool
  | 0, p => p
  | n + 1, p => giveMany n p.give

end Pool

end RouteScribe
