import MarkupQuery.Loop
import MarkupQuery.Node.Shape
import MarkupQuery.Query.Basic
import MarkupQuery.Selector

/-!
# Searching below a context

Two ways down a tree are used. A *sweep* visits every node in document order; it holds the trees
still to be visited in a stack. A *descent* looks at one whole level after the other, over all trees
of the context at once, and stops at the first level that has a match.

## Main definitions

- `sweep`: visit all nodes of a stack of trees in document order.
- `Query.find`, `Query.findWith`: the nodes that a selector selects, tree by tree.
- `Query.text`: the text of all text nodes, tree by tree.
- `descent`: the least depth at which a selector selects a node.
- `Query.depth?`, `Query.has`: that depth below a context, and whether there is one.
-/

namespace MarkupQuery

/-! ### In document order -/

/-- Where a sweep stands: the trees still to be visited, topmost first, and what it made of the
nodes visited so far. -/
structure Sweep (β : Type) where
  /-- The trees that are still to be visited. -/
  stack : List Node
  /-- What the visits have made so far. -/
  result : β

/-- Take the topmost tree off the stack, visit its root, and put its children in its place. -/
def sweep {β : Type} (visit : β → Node → β) : Loop (Sweep β) β where
  step
    | ⟨[], result⟩ => .done result
    -- The first child comes to lie on top, so that its tree is finished before the next child.
    | ⟨node :: below, result⟩ => .next ⟨node.children ++ below, visit result node⟩
  measure state := Node.sizeAll state.stack
  measure_lt := by
    intro state following h
    obtain ⟨stack, result⟩ := state
    cases stack with
    | nil => simp at h
    | cons node below =>
      cases h
      simp [Node.sizeAll, Node.size_eq]

/-- Keep a node that is selected. -/
def Selector.keep (selector : Selector) (kept : Array Node) (node : Node) : Array Node :=
  if selector.selects node then kept.push node else kept

/-- Append the value of a text node. -/
def Node.appendText (text : String) : Node → String
  | .text value => text ++ value
  | _ => text

namespace Query

/-- The nodes that are selected among the context and everything below it: tree by tree, in document
order within each. -/
def find (query : Query) (selector : Selector) : Query :=
  ⟨(query.nodes.foldl (fun kept root => (sweep selector.keep).run ⟨[root], kept⟩) #[]).toList⟩

/-- The nodes with a tag name and every entry of an attribute mapping. -/
def findWith (query : Query) (name : String) (filter : Attributes) : Query :=
  query.find (.withAttributes name filter)

/-- The values of all text nodes among the context and everything below it, without separators. -/
def text (query : Query) : String :=
  query.nodes.foldl (fun text root => (sweep Node.appendText).run ⟨[root], text⟩) ""

end Query

/-! ### Level by level -/

/-- Where a descent stands: a level of the trees, and how deep it is. -/
structure Level where
  /-- The nodes of the level, over all trees. -/
  nodes : List Node
  /-- The number of levels above. -/
  depth : Nat

/-- Look for a selected node on a level, and go down to the next one if there is none. -/
def descent (selector : Selector) : Loop Level (Option Nat) where
  step level :=
    if level.nodes.isEmpty then .done none
    else if level.nodes.any selector.selects then .done (some level.depth)
    else .next ⟨level.nodes.flatMap Node.children, level.depth + 1⟩
  measure level := Node.heightAll level.nodes
  measure_lt := by
    intro level following h
    split at h
    · cases h
    · next hnonempty =>
      split at h
      · cases h
      · cases h
        have := Node.heightAll_pos (fun hnil => hnonempty (List.isEmpty_iff.2 hnil))
        simp only [Node.heightAll_flatMap_children]
        omega

namespace Query

/-- The least depth below the context at which a node is selected; the context has depth 0. -/
def depth? (query : Query) (selector : Selector) : Option Nat :=
  (descent selector).run ⟨query.nodes, 0⟩

/-- Whether a node is selected among the context and everything below it. -/
def has (query : Query) (selector : Selector) : Bool :=
  (query.depth? selector).isSome

end Query

end MarkupQuery
