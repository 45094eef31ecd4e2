/-!
# Classes of characters as spans of code points

A character class of the Unicode standard is given here as a list of closed spans, and a case
mapping as a list of shifted spans.  Membership is a search through the list; the tables themselves
stand in modules named for their properties.
-/

namespace RouteScribe

/-- The code point `n` lies in one of the closed spans. -/
def inSpans (spans : List (Nat × Nat)) (n : Nat) : Bool :=
  spans.any fun s => s.1 ≤ n && n ≤ s.2

theorem inSpans_iff (spans : List (Nat × Nat)) (n : Nat) :
    inSpans spans n = true ↔ ∃ s ∈ spans, s.1 ≤ n ∧ n ≤ s.2 := by
  simp [inSpans]

/-- A run of code points `first, first + step, …, last` that are mapped to `target, target + step,
…`. -/
structure Shift where
  first : Nat
  last : Nat
  step : Nat
  target : Nat

/-- The run covers `n`. -/
def Shift.covers (s : Shift) (n : Nat) : Bool :=
  s.first ≤ n && n ≤ s.last && (n - s.first) % s.step == 0

/-- The image of a code point under the first run that covers it; all others are fixed. -/
def shiftBy (shifts : List Shift) (n : Nat) : Nat :=
  match shifts.find? (·.covers n) with
  | some s => s.target + (n - s.first)
  | none => n

end RouteScribe
