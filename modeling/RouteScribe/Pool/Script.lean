/-!
# Scripts

A script is what a job does: it reports events, lets others take their turns, and ends with a
result.
-/

namespace RouteScribe

/-- A job with events of type `ε` and a result of type `ρ`. -/
inductive Script (ε ρ : Type) where
  | finish (result : ρ)
  /-- Reports an event and goes on at once. -/
  | emit (event : ε) (next : Script ε ρ)
  /-- Lets others take their turns. -/
  | turn (next : Script ε ρ)

namespace Script

variable {ε ρ : Type}

/-- The number of steps to the end. -/
def size : Script ε ρ → Nat
  | finish _ => 1
  | emit _ next => next.size + 1
  | turn next => next.size + 1

/-- All events in order. -/
def events : Script ε ρ → List ε
  | finish _ => []
  | emit e next => e :: next.events
  | turn next => next.events

/-- The result at the end. -/
def result : Script ε ρ → ρ
  | finish r => r
  | emit _ next => next.result
  | turn next => next.result

/-- Pauses some times before a script. -/
def pause : Nat → Script ε ρ → Script ε ρ
  | 0, s => s
  | n + 1, s => turn (pause n s)

/-- Reports events before a script. -/
def emitAll : List ε → Script ε ρ → Script ε ρ
  | [], s => s
  | e :: es, s => emit e (emitAll es s)

theorem events_pause (n : Nat) (s : Script ε ρ) : (pause n s).events = s.events := by
  induction n with
  | zero => rfl
  | succ n ih => simp [pause, events, ih]

theorem result_pause (n : Nat) (s : Script ε ρ) : (pause n s).result = s.result := by
  induction n with
  | zero => rfl
  | succ n ih => simp [pause, result, ih]

theorem events_emitAll (es : List ε) (s : Script ε ρ) : (emitAll es s).events = es ++ s.events := by
  induction es with
  | nil => rfl
  | cons e es ih => simp [emitAll, events, ih]

theorem result_emitAll (es : List ε) (s : Script ε ρ) : (emitAll es s).result = s.result := by
  induction es with
  | nil => rfl
  | cons e es ih => simp [emitAll, result, ih]

end Script

end RouteScribe
