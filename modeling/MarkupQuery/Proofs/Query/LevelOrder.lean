import MarkupQuery.Proofs.Query.Levels

/-!
# Level order against document order

The nodes of a context can be listed level by level, over all trees at once, or tree by tree in document
order, and both lists hold each node just as often. What a search finds is therefore, up to the order,
what it would select from one level after the other; and it can be told from the roots and from a search
among their children.

## Main results

- `Query.find_perm_children`: a search finds the selected roots and what is found among the children.
- `Query.find_perm_flatMap_level`: a search finds what is selected on one level after the other.
- `Query.find_perm_levels`: both, with the number of levels that hold a node.
-/

namespace MarkupQuery.Query

/-- Up to the order, a search finds the selected nodes of the context and what it finds among their
children. -/
theorem find_perm_children (query : Query) (selector : Selector) :
    (query.find selector).nodes.Perm
      (query.nodes.filter selector.selects ++ (query.children.find selector).nodes) := by
  rw [find_nodes, find_nodes, ← List.filter_append]
  exact (Node.preorderAll_perm query.nodes).filter _

/-- Up to the order, a search finds what is selected on the levels of the context, if as many of these
are looked at as the tallest tree has. -/
theorem find_perm_flatMap_level {query : Query} {count : Nat}
    (h : Node.heightAll query.nodes ≤ count) (selector : Selector) :
    (query.find selector).nodes.Perm
      ((List.range count).flatMap fun depth =>
        (query.level depth).nodes.filter selector.selects) := by
  simp only [nodes_level]
  rw [find_nodes, ← List.filter_flatMap]
  exact (Node.preorderAll_perm_levels h).filter _

/-- The levels of a context that hold a node are those less deep than its tallest tree is high. What is
selected on as many levels as that, or more, one level after the other, is what a search finds, and each
node as often. In particular a search finds the selected nodes of the context and what it finds among
their children. -/
theorem find_perm_levels (query : Query) (selector : Selector) :
    (∀ depth, (query.level depth).isEmpty = true ↔ Node.heightAll query.nodes ≤ depth) ∧
      (∀ count, Node.heightAll query.nodes ≤ count →
        ((List.range count).flatMap fun depth =>
          (query.level depth).nodes.filter selector.selects).Perm (query.find selector).nodes) ∧
      (query.find selector).nodes.Perm
        (query.nodes.filter selector.selects ++ (query.children.find selector).nodes) := by
  refine ⟨fun depth => isEmpty_level_iff, fun count hcount => ?_, query.find_perm_children selector⟩
  exact (find_perm_flatMap_level hcount selector).symm

end MarkupQuery.Query
