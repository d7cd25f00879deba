import MarkupQuery.Query.Log

/-!
# Batches of independent questions

Several questions about one query do not depend on one another, so they may be answered in any order,
for instance by several workers at once. Each has a slot for its result, which is filled when the
question is answered, and the results are read off the slots. The order of answering shows in the
reported events alone.

## Main definitions

- `Batch`: tasks to be executed, each once.
- `Batch.Progress`: the slots filled so far and the events reported so far.
- `Batch.execute`, `Batch.run`: execute one task, or tasks in a given order.
- `Batch.Schedule`: an order in which every task has its turn.
- `Query.findAll`, `Query.hasAll`, `Query.mapAll`: the batches that can be asked of a query.
-/

namespace MarkupQuery

/-- Tasks that do not depend on one another. -/
structure Batch (α : Type) where
  /-- What each task results in and what it reports. -/
  tasks : List (Traced α)

namespace Batch

variable {α : Type}

/-- How far the execution of a batch has come. -/
structure Progress (α : Type) where
  /-- For each task its result, if it has been executed. -/
  slots : List (Option α)
  /-- What the executed tasks reported, in the order of their execution. -/
  events : List Event
deriving DecidableEq

namespace Progress

/-- Whether the task at `index` exists and has not been executed. -/
def isPending (progress : Progress α) (index : Nat) : Bool :=
  (progress.slots[index]?).any Option.isNone

/-- The results of the executed tasks in the order of the tasks, with the events. -/
def collect (progress : Progress α) : Traced (List α) :=
  ⟨progress.slots.filterMap id, progress.events⟩

end Progress

/-- No task has been executed. -/
def start (batch : Batch α) : Progress α :=
  ⟨batch.tasks.map (fun _ => none), []⟩

/-- Execute one task if it is pending: its result goes into its slot. -/
def execute (batch : Batch α) (progress : Progress α) (index : Nat) : Progress α :=
  if progress.isPending index then
    match batch.tasks[index]? with
    | some task => ⟨progress.slots.set index (some task.value), progress.events ++ task.events⟩
    | none => progress
  else progress

/-- Execute tasks in the given order. -/
def run (batch : Batch α) (order : List Nat) : Progress α :=
  order.foldl batch.execute batch.start

/-- An order of execution in which every task has its turn once. -/
def Schedule (batch : Batch α) (order : List Nat) : Prop :=
  order.Perm (List.range batch.tasks.length)

/-- The order in which the tasks are listed. -/
def inTurn (batch : Batch α) : List Nat :=
  List.range batch.tasks.length

end Batch

namespace Query

/-- One search per selector. -/
def findAll (query : Query) (selectors : List Selector) : Batch Query :=
  ⟨selectors.map query.tracedFind⟩

/-- One question for a match per selector. -/
def hasAll (query : Query) (selectors : List Selector) : Batch Bool :=
  ⟨selectors.map query.tracedHas⟩

/-- One call of a function per node, with its index and the whole context. -/
def mapAll {α : Type} (query : Query) (f : Node → Nat → List Node → Traced α) : Batch α :=
  ⟨query.nodes.zipIdx.map fun entry => f entry.1 entry.2 query.nodes⟩

end Query

end MarkupQuery
