import MarkupQuery.Proofs.Node.Preorder

/-!
# Paths in a tree

A node of a tree is told from the others by the way that leads to it: which child is taken at each step
down from the root. Of two such paths the lexicographically smaller one leads to what comes first in the
document: a node comes before all beneath it, and all beneath a child before the next child. This
describes the document order without going through the tree.

## Main definitions

- `Node.at?`: the node that a path leads to.
- `Node.paths`: the paths that lead to a node of a tree.
- `Node.pathsWhere`: those of them whose node passes a test.

## Main results

- `Node.mem_paths_iff`: exactly the paths that lead to a node are listed.
- `Node.pairwise_lt_paths`: they are listed in strictly ascending order.
- `Node.map_at?_paths`: one after the other, they lead to the nodes in document order.
- `Node.mem_pathsWhere_iff`, `Node.pairwise_lt_pathsWhere`, `Node.map_at?_pathsWhere`: the same of the
  paths to the nodes that pass a test.
-/

namespace MarkupQuery.Node

/-- The node that is reached from the root by a path, which tells the index of the child to be taken at
each step. A path that leaves the tree leads to nothing. -/
def at? (node : Node) : (path : List Nat) → Option Node
  | [] => some node
  | index :: path => node.children[index]?.bind (·.at? path)

/-- A path into a child leads to a node of the child. -/
theorem at?_cons {node child : Node} {index : Nat} (h : node.children[index]? = some child)
    (path : List Nat) : node.at? (index :: path) = child.at? path := by
  rw [at?, h, Option.bind_some]

/-- A path that is continued leads to where its continuation leads from its end. -/
theorem at?_append (node : Node) (path rest : List Nat) :
    node.at? (path ++ rest) = (node.at? path).bind (·.at? rest) := by
  induction path generalizing node with
  | nil => rfl
  | cons index path ih =>
    rw [List.cons_append, at?, at?, Option.bind_assoc]
    exact Option.bind_congr fun child _ => ih child

mutual

/-- The paths to the nodes of a tree, that of the root first. -/
def paths : Node → List (List Nat)
  | .element _ _ children => [] :: pathsFrom 0 children
  | .text _ => [[]]
  | .other _ _ _ _ children => [] :: pathsFrom 0 children

/-- The paths to the nodes of the trees, whose roots are children of one node from an index on. -/
def pathsFrom (index : Nat) : List Node → List (List Nat)
  | [] => []
  | node :: rest => node.paths.map (index :: ·) ++ pathsFrom (index + 1) rest

end

/-- The path of the root comes first, then the paths into the children. -/
theorem paths_eq (node : Node) : node.paths = [] :: pathsFrom 0 node.children := by
  cases node <;> simp [paths, children, pathsFrom]

/-- The paths into children are those of each child with its index in front. -/
theorem pathsFrom_eq_flatMap (index : Nat) (nodes : List Node) :
    pathsFrom index nodes =
      (nodes.zipIdx index).flatMap fun entry => entry.1.paths.map (entry.2 :: ·) := by
  induction nodes generalizing index with
  | nil => rfl
  | cons node rest ih => rw [pathsFrom, ih, List.zipIdx_cons, List.flatMap_cons]

/-- A path leads into the children if it begins with the index of one of them and goes on in it. -/
theorem mem_pathsFrom_zero {nodes : List Node} {path : List Nat} :
    path ∈ pathsFrom 0 nodes ↔
      ∃ index child inner, nodes[index]? = some child ∧ inner ∈ child.paths ∧
        index :: inner = path := by
  simp only [pathsFrom_eq_flatMap, List.mem_flatMap, List.mem_map, Prod.exists,
    List.mk_mem_zipIdx_iff_getElem?]
  constructor
  · rintro ⟨child, index, hchild, inner, hinner, hpath⟩
    exact ⟨index, child, inner, hchild, hinner, hpath⟩
  · rintro ⟨index, child, inner, hchild, hinner, hpath⟩
    exact ⟨child, index, hchild, inner, hinner, hpath⟩

/-- Exactly the paths that lead to a node are listed. -/
theorem mem_paths_iff {node : Node} {path : List Nat} :
    path ∈ node.paths ↔ ∃ inner, node.at? path = some inner := by
  induction path generalizing node with
  | nil =>
    rw [paths_eq]
    exact iff_of_true List.mem_cons_self ⟨node, rfl⟩
  | cons index path ih =>
    rw [paths_eq, List.mem_cons, or_iff_right (List.cons_ne_nil index path), mem_pathsFrom_zero]
    constructor
    · rintro ⟨_, child, _, hchild, hmem, hpath⟩
      cases hpath
      rw [at?_cons hchild]
      exact ih.1 hmem
    · rintro ⟨inner, hinner⟩
      obtain ⟨child, hchild, hinner⟩ := Option.bind_eq_some_iff.1 hinner
      exact ⟨index, child, path, hchild, ih.2 ⟨inner, hinner⟩, rfl⟩

/-- The paths into children ascend if those within each child do. -/
theorem pairwise_lt_pathsFrom {nodes : List Node}
    (h : ∀ node ∈ nodes, node.paths.Pairwise (· < ·)) (index : Nat) :
    (pathsFrom index nodes).Pairwise (· < ·) := by
  induction nodes generalizing index with
  | nil => exact .nil
  | cons node rest ih =>
    obtain ⟨hnode, hrest⟩ := List.forall_mem_cons.1 h
    rw [pathsFrom, List.pairwise_append]
    refine ⟨?_, ih hrest (index + 1), ?_⟩
    · exact List.pairwise_map.2 (hnode.imp fun hlt => List.cons_lt_cons_self.2 hlt)
    · -- All paths into later children begin with a greater index.
      intro path hpath later hlater
      obtain ⟨inner, -, rfl⟩ := List.mem_map.1 hpath
      rw [pathsFrom_eq_flatMap, List.mem_flatMap] at hlater
      obtain ⟨entry, hentry, hlater⟩ := hlater
      obtain ⟨inner', -, rfl⟩ := List.mem_map.1 hlater
      exact List.Lex.rel (List.le_snd_of_mem_zipIdx hentry)

/-- The paths are listed in strictly ascending order, so each is listed once. -/
theorem pairwise_lt_paths (node : Node) : node.paths.Pairwise (· < ·) := by
  induction node using induct with
  | node node ih =>
    rw [paths_eq, List.pairwise_cons]
    refine ⟨fun path hmem => ?_, pairwise_lt_pathsFrom ih 0⟩
    obtain ⟨index, _, inner, _, _, rfl⟩ := mem_pathsFrom_zero.1 hmem
    exact List.nil_lt_cons index inner

/-- What the paths into children lead to are the nodes of the children, if the paths within each child
lead to its nodes. -/
theorem map_pathsFrom {nodes : List Node} {index : Nat} {follow : List Nat → Option Node}
    (h : ∀ entry ∈ nodes.zipIdx index,
      entry.1.paths.map (fun path => follow (entry.2 :: path)) = entry.1.preorder.map some) :
    (pathsFrom index nodes).map follow = (preorderAll nodes).map some := by
  induction nodes generalizing index with
  | nil => rfl
  | cons node rest ih =>
    obtain ⟨hnode, hrest⟩ := List.forall_mem_cons.1 h
    rw [pathsFrom, preorderAll, List.map_append, List.map_append, List.map_map, ih hrest, ← hnode]
    rfl

/-- One after the other, the paths lead to the nodes in document order. -/
theorem map_at?_paths (node : Node) : node.paths.map node.at? = node.preorder.map some := by
  induction node using induct with
  | node node ih =>
    rw [paths_eq, preorder_eq, List.map_cons, List.map_cons, at?]
    congr 1
    -- Each child is reached by its index, and from there on the paths within it are followed.
    refine map_pathsFrom fun entry hentry => ?_
    have hchild := List.mem_zipIdx_iff_getElem?.1 hentry
    rw [← ih entry.1 (List.mem_of_getElem? hchild)]
    exact List.map_congr_left fun path _ => at?_cons hchild path

/-! ### Nodes that pass a test -/

/-- The paths to those nodes of a tree that pass a test. -/
def pathsWhere (test : Node → Bool) (root : Node) : List (List Nat) :=
  root.paths.filter fun path => (root.at? path).any test

variable {test : Node → Bool} {root : Node}

/-- Exactly the paths that lead to a node which passes the test are listed. -/
theorem mem_pathsWhere_iff {path : List Nat} :
    path ∈ root.pathsWhere test ↔ ∃ node, root.at? path = some node ∧ test node = true := by
  rw [pathsWhere, List.mem_filter, mem_paths_iff, Option.any_eq_true]
  constructor
  · rintro ⟨-, hpasses⟩
    exact hpasses
  · rintro ⟨node, hnode, htest⟩
    exact ⟨⟨node, hnode⟩, node, hnode, htest⟩

/-- They are listed in strictly ascending order. -/
theorem pairwise_lt_pathsWhere (test : Node → Bool) (root : Node) :
    (root.pathsWhere test).Pairwise (· < ·) :=
  root.pairwise_lt_paths.filter _

/-- They lead to the nodes that pass the test, in document order. -/
theorem map_at?_pathsWhere (test : Node → Bool) (root : Node) :
    (root.pathsWhere test).map root.at? = (root.preorder.filter test).map some := by
  have hpaths : (root.pathsWhere test).map root.at? =
      (root.paths.map root.at?).filter fun node? => node?.any test := by
    rw [List.filter_map]
    rfl
  rw [hpaths, map_at?_paths, List.filter_map]
  rfl

end MarkupQuery.Node
