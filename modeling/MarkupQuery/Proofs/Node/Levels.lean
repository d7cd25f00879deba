import MarkupQuery.Proofs.Node.Preorder

/-!
# The levels of a list of trees

The first level of a list of trees are the roots, and each further level are the children of the one
before. There are as many levels that hold a node as the tallest of the trees is high. Level by level the
same nodes are listed as in document order, and each as often, although the levels mix the nodes of all
trees.

## Main definitions

- `Node.level`: the nodes that lie so many levels below a list of roots.

## Main results

- `Node.level_eq_nil_iff`: a level is empty when it lies below the tallest of the trees.
- `Node.preorderAll_perm_levels`: the nodes in document order are those of all levels.
- `Node.mem_preorderAll_iff`: the nodes of a list of trees are those that lie on some level.
-/

namespace MarkupQuery.Node

/-- The nodes that lie so many levels below the given ones. -/
def level : (depth : Nat) → (nodes : List Node) → List Node
  | 0, nodes => nodes
  | depth + 1, nodes => level depth (nodes.flatMap children)

/-- Nothing lies below nothing. -/
@[simp]
theorem level_nil (depth : Nat) : level depth [] = [] := by
  induction depth with
  | zero => rfl
  | succ depth ih => exact ih

/-- The next level holds the children of the nodes of a level. -/
theorem level_succ (depth : Nat) (nodes : List Node) :
    level (depth + 1) nodes = (level depth nodes).flatMap children := by
  induction depth generalizing nodes with
  | zero => rfl
  | succ depth ih => exact ih (nodes.flatMap children)

/-- The levels of two lists of roots, one after the other, are those of the first and then those of the
second. -/
theorem level_append (depth : Nat) (as bs : List Node) :
    level depth (as ++ bs) = level depth as ++ level depth bs := by
  induction depth generalizing as bs with
  | zero => rfl
  | succ depth ih => rw [level, level, level, List.flatMap_append, ih]

/-- The levels that hold a node are those above the height of the tallest tree. -/
theorem level_eq_nil_iff {depth : Nat} {nodes : List Node} :
    level depth nodes = [] ↔ heightAll nodes ≤ depth := by
  induction depth generalizing nodes with
  | zero =>
    constructor
    · rintro rfl
      exact Nat.le_refl 0
    · intro hheight
      exact Decidable.byContradiction fun hne => Nat.not_lt.2 hheight (heightAll_pos hne)
  | succ depth ih =>
    -- One level further down, all trees are one level less high.
    rw [level, ih, heightAll_flatMap_children]
    omega

/-- The nodes of a list of trees in document order are those of its levels, if as many of these are
taken as the tallest tree has. -/
theorem preorderAll_perm_levels {nodes : List Node} {count : Nat}
    (h : heightAll nodes ≤ count) :
    (preorderAll nodes).Perm ((List.range count).flatMap fun depth => level depth nodes) := by
  induction count generalizing nodes with
  | zero =>
    have hnil : level 0 nodes = [] := level_eq_nil_iff.2 h
    rw [level] at hnil
    rw [hnil]
    exact .nil
  | succ count ih =>
    have hbelow : heightAll (nodes.flatMap children) ≤ count := by
      rw [heightAll_flatMap_children]
      omega
    rw [List.range_succ_eq_map, List.flatMap_cons, List.flatMap_map]
    -- The first level are the roots themselves, and the others are the levels below them.
    exact (preorderAll_perm nodes).trans ((ih hbelow).append_left nodes)

/-- The nodes of a list of trees are those that lie on one of its levels. -/
theorem mem_preorderAll_iff {nodes : List Node} {node : Node} :
    node ∈ preorderAll nodes ↔ ∃ depth, node ∈ level depth nodes := by
  rw [(preorderAll_perm_levels (Nat.le_refl _)).mem_iff, List.mem_flatMap]
  constructor
  · rintro ⟨depth, -, hmem⟩
    exact ⟨depth, hmem⟩
  · rintro ⟨depth, hmem⟩
    -- A level with a node on it is one of those above the height.
    have hlt : depth < heightAll nodes := by
      apply Nat.lt_of_not_le
      intro hheight
      rw [level_eq_nil_iff.2 hheight] at hmem
      exact List.not_mem_nil hmem
    exact ⟨depth, List.mem_range.2 hlt, hmem⟩

end MarkupQuery.Node
