import MarkupQuery.Proofs.Node.Paths
import MarkupQuery.Proofs.Query.Sweep

/-!
# What a search finds, and in which order

A search goes through the roots of its context one after the other. Of each tree it finds the nodes at
those paths where the selector selects a node: all of them, each once, in the ascending order of the
paths. A tree that occurs more than once in the context, by itself or within another one, is searched as
often as it occurs.

## Main definitions

- `Selector.paths`: the paths to the selected nodes of a tree.

## Main results

- `Selector.mem_paths_iff`, `Selector.pairwise_lt_paths`: which paths these are, and their order.
- `Selector.map_at?_paths`: they lead to the selected nodes in document order.
- `Query.find_eq_flatMap_paths`: a search finds what these paths lead to, root by root.
-/

namespace MarkupQuery

namespace Selector

/-- The paths to the selected nodes of a tree. -/
def paths (selector : Selector) (root : Node) : List (List Nat) :=
  root.paths.filter fun path => (root.at? path).any selector.selects

/-- The paths of a selector are those that lead to a selected node. -/
theorem mem_paths_iff {selector : Selector} {root : Node} {path : List Nat} :
    path ∈ selector.paths root ↔
      ∃ node, root.at? path = some node ∧ selector.selects node = true :=
  Node.mem_pathsWhere_iff

/-- The paths of a selector ascend strictly. -/
theorem pairwise_lt_paths (selector : Selector) (root : Node) :
    (selector.paths root).Pairwise (· < ·) :=
  root.pairwise_lt_pathsWhere selector.selects

/-- The paths of a selector lead to the selected nodes in document order. -/
theorem map_at?_paths (selector : Selector) (root : Node) :
    (selector.paths root).map root.at? = (root.preorder.filter selector.selects).map some :=
  root.map_at?_pathsWhere selector.selects

end Selector

/-- The paths of a selector are listed in strictly ascending lexicographic order and are just those that
lead to a selected node. A search finds what they lead to, for one root of the context after the other. -/
theorem Query.find_eq_flatMap_paths (query : Query) (selector : Selector) :
    (∀ root : Node, (selector.paths root).Pairwise (· < ·) ∧
      ∀ path, path ∈ selector.paths root ↔
        ∃ node, root.at? path = some node ∧ selector.selects node = true) ∧
      (query.find selector).nodes.map some =
        query.nodes.flatMap fun root => (selector.paths root).map root.at? := by
  refine ⟨fun root => ⟨selector.pairwise_lt_paths root, fun _ => Selector.mem_paths_iff⟩, ?_⟩
  simp only [Selector.map_at?_paths]
  rw [find_nodes, Node.preorderAll_eq_flatMap, List.filter_flatMap, List.map_flatMap]

end MarkupQuery
