import MarkupQuery.Event
import MarkupQuery.Query.Search

/-!
# Searches that report

Taking children, finding, and asking whether there is a match each report one event, which tells
the sizes of the contexts or the depth of the match.

## Main definitions

- `Query.tracedChildren`, `Query.tracedFind`, `Query.tracedFindWith`, `Query.tracedHas`: the answer
  with its event.
- `Query.tracedMap`: a list made from the nodes by a function that reports.
-/

namespace MarkupQuery.Query

/-- The children of the context, with their number reported. -/
def tracedChildren (query : Query) : Traced Query :=
  ⟨query.children, [.children query.size query.children.size]⟩

/-- The selected nodes, with their number reported. -/
def tracedFind (query : Query) (selector : Selector) : Traced Query :=
  ⟨query.find selector, [.find selector.name query.size (query.find selector).size]⟩

/-- The nodes with a tag name and every entry of an attribute mapping, with their number reported. -/
def tracedFindWith (query : Query) (name : String) (filter : Attributes) : Traced Query :=
  query.tracedFind (.withAttributes name filter)

/-- Whether a node is selected, with the depth reported at which the first one is. -/
def tracedHas (query : Query) (selector : Selector) : Traced Bool :=
  ⟨query.has selector, [.has selector.name (query.depth? selector)]⟩

/-- The values of a function of each node, its index, and the whole context, with everything
reported that the function reports. -/
def tracedMap {α : Type} (query : Query) (f : Node → Nat → List Node → Traced α) :
    Traced (List α) :=
  .all (query.map f)

end MarkupQuery.Query
