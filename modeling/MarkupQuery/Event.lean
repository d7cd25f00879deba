/-!
# Events

Searching and loading report what they did. An operation that reports is a value together with the
events that it gave rise to, in order; an operation that does not is the plain value.

## Main definitions

- `Event`: something worth a line in a log, and `Event.line`, that line.
- `Traced`: a value with the events of its making.
- `Traced.all`: the values of several operations done one after the other.
-/

namespace MarkupQuery

/-- Something that a log tells. -/
inductive Event where
  /-- The children of a context were taken: its size and theirs. -/
  | children (contextSize resultSize : Nat)
  /-- A context was searched for a tag name: its size and the number of matches. -/
  | find (name : String) (contextSize resultSize : Nat)
  /-- A context was asked for a tag name: the least depth of a match, if there is one. -/
  | has (name : String) (depth? : Option Nat)
  /-- A tree was loaded whose root has this name. -/
  | loadedTree (name : String)
  /-- So many trees were loaded. -/
  | loadedTrees (count : Nat)
deriving DecidableEq

/-- The line of the log for an event: its level, then its text. -/
def Event.line : Event → String
  | .children contextSize resultSize => s!"TRACE children: {contextSize} -> {resultSize} nodes"
  | .find name contextSize resultSize =>
    s!"TRACE find <{name}>: {contextSize} roots -> {resultSize} matches"
  | .has name (some depth) => s!"TRACE has <{name}>: found at depth {depth}"
  | .has name none => s!"TRACE has <{name}>: not found"
  | .loadedTree name => s!"DEBUG loaded AST rooted at <{name}>"
  | .loadedTrees count => s!"DEBUG loaded {count} ASTs"

/-- A value with the events of its making. -/
structure Traced (α : Type) where
  /-- The value. -/
  value : α
  /-- The events, in the order in which they happened. -/
  events : List Event
deriving DecidableEq

namespace Traced

variable {α β : Type}

instance : Monad Traced where
  pure value := ⟨value, []⟩
  bind first next :=
    let second := next first.value
    ⟨second.value, first.events ++ second.events⟩

/-- The values of operations done one after the other. -/
def all (operations : List (Traced α)) : Traced (List α) :=
  ⟨operations.map value, operations.flatMap events⟩

end Traced

end MarkupQuery
