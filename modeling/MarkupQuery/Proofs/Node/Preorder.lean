import MarkupQuery.Node.Shape

/-!
# The nodes of a tree

The nodes of a tree are listed in document order: a node stands before everything beneath it, and
everything beneath a child before the next child. This is the independent description of what a
traversal visits.

## Main definitions

- `Node.preorder`, `Node.preorderAll`: the nodes of a tree, and of a list of trees.

## Main results

- `Node.induct`: induction from the children of a node to the node.
- `Node.preorder_eq`: a tree is its root followed by the trees of its children.
- `Node.preorderAll_perm`: up to their order, the nodes of a list of trees are its roots and the
  nodes one level down.
-/

namespace MarkupQuery.Node

mutual

/-- What holds of a node whenever it holds of all its children holds of every node. -/
theorem induct {motive : Node → Prop}
    (node : ∀ node : Node, (∀ child ∈ node.children, motive child) → motive node) :
    ∀ node, motive node
  | .element _ _ inner => node _ (inductAll node inner)
  | .text _ => node _ nofun
  | .other _ _ _ _ inner => node _ (inductAll node inner)

/-- What holds of a node whenever it holds of all its children holds of all nodes of a list. -/
theorem inductAll {motive : Node → Prop}
    (node : ∀ node : Node, (∀ child ∈ node.children, motive child) → motive node) :
    ∀ nodes : List Node, ∀ child ∈ nodes, motive child
  | [] => nofun
  | first :: rest => fun child hmem =>
    (List.mem_cons.1 hmem).elim (fun h => h ▸ induct node first) (inductAll node rest child)

end

mutual

/-- The nodes of a tree in document order. -/
def preorder : Node → List Node
  | .element name attributes children =>
    .element name attributes children :: preorderAll children
  | .text value => [.text value]
  | .other kind name value attributes children =>
    .other kind name value attributes children :: preorderAll children

/-- The nodes of all the trees, one tree after the other. -/
def preorderAll : List Node → List Node
  | [] => []
  | node :: rest => node.preorder ++ preorderAll rest

end

/-- The root of a tree comes first, then the trees of its children. -/
theorem preorder_eq (node : Node) : node.preorder = node :: preorderAll node.children := by
  cases node <;> simp [preorder, children, preorderAll]

/-- The nodes of a list of trees are those of each of them. -/
theorem preorderAll_eq_flatMap (nodes : List Node) :
    preorderAll nodes = nodes.flatMap preorder := by
  induction nodes with
  | nil => rfl
  | cons node rest ih => rw [preorderAll, List.flatMap_cons, ih]

/-- The nodes of two lists of trees are those of the first and then those of the second. -/
@[simp]
theorem preorderAll_append (as bs : List Node) :
    preorderAll (as ++ bs) = preorderAll as ++ preorderAll bs := by
  simp only [preorderAll_eq_flatMap, List.flatMap_append]

/-- A tree contains its root. -/
theorem mem_preorder_self (node : Node) : node ∈ node.preorder := by
  rw [preorder_eq]
  exact List.mem_cons_self

/-- Beneath a node there is the node itself and what is beneath its children. -/
theorem mem_preorder {node inner : Node} :
    inner ∈ node.preorder ↔ inner = node ∨ ∃ child ∈ node.children, inner ∈ child.preorder := by
  rw [preorder_eq, List.mem_cons, preorderAll_eq_flatMap, List.mem_flatMap]

/-- The nodes of a list of trees, up to their order: first the roots, then what lies one level
down. -/
theorem preorderAll_perm (nodes : List Node) :
    (preorderAll nodes).Perm (nodes ++ preorderAll (nodes.flatMap children)) := by
  induction nodes with
  | nil => exact .nil
  | cons node rest ih =>
    rw [preorderAll, preorder_eq, List.flatMap_cons, preorderAll_append, List.cons_append,
      List.cons_append]
    refine .cons node ?_
    -- The nodes beneath the first root move behind the other roots.
    exact (ih.append_left _).trans (List.perm_append_comm_assoc ..)

end MarkupQuery.Node
