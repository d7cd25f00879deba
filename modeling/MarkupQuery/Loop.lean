/-!
# Loops that end by a measure

A loop takes steps from one state to the next until a step ends it with a result. A natural number
that every step makes smaller is part of the loop, so that running it is a total function and the
number of its rounds can be spoken of.

## Main definitions

- `Loop`: a step with its measure.
- `Loop.run`: the result of a loop from a given state.
- `Loop.states`: the states that a run goes through, and `Loop.rounds`, the number of its steps from
  one state to the next.

## Main results

- `Loop.run_eq`, `Loop.states_eq`, `Loop.rounds_eq`: what one step contributes.
-/

namespace MarkupQuery

/-- What one step of a loop does. -/
inductive Step (σ ρ : Type) where
  /-- The loop ends with a result. -/
  | done (result : ρ)
  /-- The loop goes on from another state. -/
  | next (state : σ)

/-- A step together with a measure that shows that it cannot be taken for ever. -/
structure Loop (σ ρ : Type) where
  /-- One step from a state. -/
  step : σ → Step σ ρ
  /-- A bound on the number of steps that are left. -/
  measure : σ → Nat
  /-- Every step makes the measure smaller. -/
  measure_lt : ∀ {state following}, step state = .next following →
    measure following < measure state

namespace Loop

variable {σ ρ : Type}

/-- Take steps until one ends the loop. -/
def run (loop : Loop σ ρ) (state : σ) : ρ :=
  match h : loop.step state with
  | .done result => result
  | .next following =>
    have := loop.measure_lt h
    loop.run following
termination_by loop.measure state

/-- The states that a run goes through, from the given one to the one where it ends. -/
def states (loop : Loop σ ρ) (state : σ) : List σ :=
  match h : loop.step state with
  | .done _ => [state]
  | .next following =>
    have := loop.measure_lt h
    state :: loop.states following
termination_by loop.measure state

/-- The number of times that a run goes on from one state to another. -/
def rounds (loop : Loop σ ρ) (state : σ) : Nat :=
  (loop.states state).length - 1

/-- A run is its first step followed by the run from there. -/
theorem run_eq (loop : Loop σ ρ) (state : σ) :
    loop.run state =
      match loop.step state with
      | .done result => result
      | .next following => loop.run following := by
  rw [run]
  split <;> simp_all

/-- The states of a run are the first one and those of the run from the next. -/
theorem states_eq (loop : Loop σ ρ) (state : σ) :
    loop.states state =
      match loop.step state with
      | .done _ => [state]
      | .next following => state :: loop.states following := by
  rw [states]
  split <;> simp_all

/-- A run goes through at least one state. -/
theorem length_states_pos (loop : Loop σ ρ) (state : σ) : 0 < (loop.states state).length := by
  rw [states_eq]
  split <;> simp

/-- A run that ends at once has no rounds, any other one more than the run from its next state. -/
theorem rounds_eq (loop : Loop σ ρ) (state : σ) :
    loop.rounds state =
      match loop.step state with
      | .done _ => 0
      | .next following => loop.rounds following + 1 := by
  rw [rounds, states_eq]
  split
  · rfl
  · next following _ =>
    -- There is at least one state to take off on either side.
    have hpos := loop.length_states_pos following
    simp only [List.length_cons, rounds, Nat.add_sub_cancel]
    exact (Nat.sub_add_cancel hpos).symm

end Loop

end MarkupQuery
