import MarkupQuery.Loop

/-!
# Induction over the run of a loop

What every step of a loop passes on from the rest of the run to the run as a whole holds of all
runs. The measure of the loop is used here once; nothing else has to mention it.

## Main results

- `Loop.induct`: induction from the last state of a run to its first.
- `Loop.run_of_done`, `Loop.run_of_next`, `Loop.states_of_done`, `Loop.states_of_next`: what a step
  that is known contributes to the run.
- `Loop.run_induct`: the same induction, with the result of the run in view.
- `Loop.map_states`, `Loop.map_run`: two loops one of which takes the steps of the other on coarser states.
-/

namespace MarkupQuery.Loop

variable {σ ρ : Type}

/-- What holds of every state if it holds of the state that is stepped to from there, if any, holds of
all states. -/
theorem induct (loop : Loop σ ρ) {motive : σ → Prop}
    (step : ∀ state, (∀ following, loop.step state = .next following → motive following) →
      motive state)
    (state : σ) : motive state := by
  -- Every step makes the measure smaller, so the induction is on its value.
  induction hn : loop.measure state using Nat.strongRecOn generalizing state with
  | ind n ih =>
    subst hn
    exact step state fun following hstep => ih _ (loop.measure_lt hstep) following rfl

section Steps

variable {loop : Loop σ ρ} {state following : σ} {result : ρ}

/-- A run that is done at once has the result of its only step. -/
theorem run_of_done (h : loop.step state = .done result) : loop.run state = result := by
  rw [run_eq, h]

/-- A run that goes on has the result of the run from its next state. -/
theorem run_of_next (h : loop.step state = .next following) :
    loop.run state = loop.run following := by
  rw [run_eq, h]

/-- A run that is done at once goes through its first state only. -/
theorem states_of_done (h : loop.step state = .done result) : loop.states state = [state] := by
  rw [states_eq, h]

/-- A run that goes on goes through its first state and then those of the run from the next. -/
theorem states_of_next (h : loop.step state = .next following) :
    loop.states state = state :: loop.states following := by
  rw [states_eq, h]

end Steps

/-- A relation between a state and the result of the run from there holds if it holds where the run
ends, and passes from every state that is stepped to on to the state before. -/
theorem run_induct (loop : Loop σ ρ) {motive : σ → ρ → Prop}
    (done : ∀ state result, loop.step state = .done result → motive state result)
    (next : ∀ state following, loop.step state = .next following →
      motive following (loop.run following) → motive state (loop.run following))
    (state : σ) : motive state (loop.run state) := by
  refine loop.induct (motive := fun state => motive state (loop.run state)) ?_ state
  intro state ih
  cases hstep : loop.step state with
  | done result =>
    rw [run_of_done hstep]
    exact done state result hstep
  | next following =>
    rw [run_of_next hstep]
    exact next state following hstep (ih following hstep)

section Coarse

variable {τ υ : Type} {loop : Loop σ ρ} {coarse : Loop τ υ} {f : σ → τ} {g : ρ → υ}
  (done : ∀ state result, loop.step state = .done result → coarse.step (f state) = .done (g result))
  (next : ∀ state following, loop.step state = .next following →
    coarse.step (f state) = .next (f following))

include done next

/-- If each step of one loop is, on coarser states, a step of another, so are the states of a run. -/
theorem map_states (state : σ) : (loop.states state).map f = coarse.states (f state) := by
  refine loop.induct (motive := fun state =>
    (loop.states state).map f = coarse.states (f state)) ?_ state
  intro state ih
  rcases hstep : loop.step state with result | following
  · rw [states_of_done hstep, states_of_done (done state result hstep)]
    rfl
  · rw [states_of_next hstep, states_of_next (next state following hstep), List.map_cons,
      ih following hstep]

/-- If each step of one loop is, on coarser states, a step of another, the results of runs agree. -/
theorem map_run (state : σ) : g (loop.run state) = coarse.run (f state) := by
  refine loop.run_induct (motive := fun state result => g result = coarse.run (f state)) ?_ ?_ state
  · intro state result hstep
    rw [run_of_done (done state result hstep)]
  · intro state following hstep ih
    rw [run_of_next (next state following hstep), ih]

end Coarse

end MarkupQuery.Loop
