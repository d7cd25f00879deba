import Mathlib.Algebra.GroupWithZero.Nat
import Mathlib.Data.List.Infix
import MarkupQuery.Proofs.Query.DocumentOrder

/-!
# Searching among what was found

A search goes through each node of its context and all beneath it. When the context was found by another
search its nodes may lie beneath one another, and what is beneath several of them is found several times.
How often can be told from the way that leads to a node: once for each node on it that the first search
found.

## Main definitions

- `Selector.countOnWay`: how many nodes on a path are selected, from the root to the end of the path.
- `Selector.pathsUnder`: the paths to the selected nodes that lie at a path or beneath it.
- `Selector.chainedPaths`: the paths to what two searches in a row find in a tree.

## Main results

- `Selector.count_chainedPaths`: how often a path is among those of two searches in a row.
- `Selector.chainedPaths_perm`: the paths of the second search alone, each so many times.
- `Query.find_find_nodes`: two searches in a row find what these paths lead to, root by root.
- `Query.find_find_eq_flatMap_chainedPaths`: order, multiplicity and number of what is found.
-/

namespace MarkupQuery

/-! ### Lists of paths -/

/-- The beginnings of a path differ from one another. -/
theorem nodup_inits (path : List Nat) : path.inits.Nodup := by
  induction path with
  | nil => simp
  | cons index path ih =>
    rw [List.inits_cons, List.nodup_cons]
    constructor
    · simp
    · exact List.pairwise_map.2 (ih.imp fun hne heq => hne (List.cons.inj heq).2)

/-- If each of different things is repeated a number of times, it occurs just as often. -/
theorem count_flatMap_replicate {paths : List (List Nat)} (hnodup : paths.Nodup)
    (times : List Nat → Nat) (path : List Nat) :
    (paths.flatMap fun path => List.replicate (times path) path).count path =
      if path ∈ paths then times path else 0 := by
  induction paths with
  | nil => rfl
  | cons first rest ih =>
    obtain ⟨hfirst, hrest⟩ := List.nodup_cons.1 hnodup
    rw [List.flatMap_cons, List.count_append, ih hrest, List.count_replicate]
    by_cases heq : first = path
    · subst heq
      simp [hfirst]
    · simp [heq, Ne.symm heq]

namespace Selector

/-- How many of the nodes on a path are selected, the root and the end of the path included. -/
def countOnWay (selector : Selector) (root : Node) (path : List Nat) : Nat :=
  path.inits.countP fun above => (root.at? above).any selector.selects

/-- The paths to the selected ones among the node that a path leads to and all nodes beneath it. -/
def pathsUnder (selector : Selector) (root : Node) (above : List Nat) : List (List Nat) :=
  ((root.at? above).toList.flatMap selector.paths).map (above ++ ·)

/-- The paths to what a second selector selects at each path of the first one and beneath it. -/
def chainedPaths (outer inner : Selector) (root : Node) : List (List Nat) :=
  (outer.paths root).flatMap (inner.pathsUnder root)

variable {selector outer inner : Selector} {root : Node} {above path : List Nat}

/-- A path of a selector leads to a node that is selected. -/
theorem mem_paths_iff_any : path ∈ selector.paths root ↔ (root.at? path).any selector.selects := by
  rw [mem_paths_iff, Option.any_eq_true]

/-- No path of a selector is listed twice. -/
theorem nodup_paths (selector : Selector) (root : Node) : (selector.paths root).Nodup :=
  (selector.pairwise_lt_paths root).imp Std.ne_of_lt

/-- The paths under another one are those of the selector that begin with it. -/
theorem mem_pathsUnder_iff :
    path ∈ selector.pathsUnder root above ↔ above <+: path ∧ path ∈ selector.paths root := by
  simp only [pathsUnder, List.mem_map, List.mem_flatMap, Option.mem_toList, mem_paths_iff]
  constructor
  · rintro ⟨below, ⟨top, htop, node, hnode, hselects⟩, rfl⟩
    refine ⟨List.prefix_append above below, node, ?_, hselects⟩
    rw [Node.at?_append, htop, Option.bind_some, hnode]
  · rintro ⟨⟨below, rfl⟩, node, hnode, hselects⟩
    rw [Node.at?_append] at hnode
    obtain ⟨top, htop, hnode⟩ := Option.bind_eq_some_iff.1 hnode
    exact ⟨below, ⟨top, htop, node, hnode, hselects⟩, rfl⟩

/-- No path is listed twice under another one. -/
theorem nodup_pathsUnder (selector : Selector) (root : Node) (above : List Nat) :
    (selector.pathsUnder root above).Nodup := by
  have hpaths : ((root.at? above).toList.flatMap selector.paths).Nodup := by
    cases root.at? above with
    | none => exact List.nodup_nil
    | some top => simpa using selector.nodup_paths top
  exact List.pairwise_map.2 (hpaths.imp fun hne heq => hne (List.append_cancel_left heq))

/-- The paths under another one lead to the selected nodes of the tree that is there. -/
theorem map_at?_pathsUnder (selector : Selector) (root : Node) (above : List Nat) :
    (selector.pathsUnder root above).map root.at? =
      (root.at? above).toList.flatMap fun top =>
        (top.preorder.filter selector.selects).map some := by
  rw [pathsUnder, List.map_map, List.map_flatMap]
  cases htop : root.at? above with
  | none => rfl
  | some top =>
    simp only [Option.toList_some, List.flatMap_singleton, ← map_at?_paths]
    refine List.map_congr_left fun below _ => ?_
    rw [Function.comp_apply, Node.at?_append, htop, Option.bind_some]

/-! ### Multiplicities -/

/-- As many paths of a selector are beginnings of a given one as there are selected nodes on the way. -/
theorem countP_prefix_paths (selector : Selector) (root : Node) (path : List Nat) :
    (selector.paths root).countP (· <+: path) = selector.countOnWay root path := by
  rw [countOnWay, List.countP_eq_length_filter, List.countP_eq_length_filter]
  -- Both lists hold the beginnings of the path that lead to a selected node, each of them once.
  apply List.Perm.length_eq
  refine (List.perm_ext_iff_of_nodup ((selector.nodup_paths root).filter _)
    ((nodup_inits path).filter _)).2 fun above => ?_
  rw [List.mem_filter, List.mem_filter, List.mem_inits, mem_paths_iff_any, decide_eq_true_iff,
    and_comm]

/-- Under several paths, a path to a selected node is listed once for each that it begins with. -/
theorem count_flatMap_pathsUnder (selector : Selector) (root : Node) (tops : List (List Nat))
    (path : List Nat) :
    (tops.flatMap (selector.pathsUnder root)).count path =
      if (root.at? path).any selector.selects then tops.countP (· <+: path) else 0 := by
  induction tops with
  | nil => simp
  | cons above rest ih =>
    rw [List.flatMap_cons, List.count_append, ih, (selector.nodup_pathsUnder root above).count,
      List.countP_cons]
    simp only [mem_pathsUnder_iff, mem_paths_iff_any]
    by_cases hselects : (root.at? path).any selector.selects = true
    · simp [hselects, Nat.add_comm]
    · simp [hselects]

/-- Two searches in a row list a path to a node that the second one selects, once for each node on the
way that the first one selects, and no other path. -/
theorem count_chainedPaths (outer inner : Selector) (root : Node) (path : List Nat) :
    (outer.chainedPaths inner root).count path =
      if (root.at? path).any inner.selects then outer.countOnWay root path else 0 := by
  rw [chainedPaths, count_flatMap_pathsUnder, countP_prefix_paths]

/-- A match within another one is listed twice, even if there is a node between them that is no match. -/
example :
    (Selector.tag "a").chainedPaths (.tag "a")
      (.element "a" .empty [.element "b" .empty [.ofTag "a"]]) = [[], [0, 0], [0, 0]] := by
  decide

/-- Up to the order, two searches in a row list the paths of the second one, each as often as there are
nodes on it that the first one selects. -/
theorem chainedPaths_perm (outer inner : Selector) (root : Node) :
    (outer.chainedPaths inner root).Perm
      ((inner.paths root).flatMap fun path =>
        List.replicate (outer.countOnWay root path) path) := by
  refine List.perm_iff_count.2 fun path => ?_
  rw [count_chainedPaths, count_flatMap_replicate (inner.nodup_paths root)]
  simp only [mem_paths_iff_any]

/-- Two searches in a row list as many paths as there are selected nodes on the paths of the second. -/
theorem length_chainedPaths (outer inner : Selector) (root : Node) :
    (outer.chainedPaths inner root).length =
      ((inner.paths root).map (outer.countOnWay root)).sum := by
  rw [(chainedPaths_perm outer inner root).length_eq, List.length_flatMap]
  simp only [List.length_replicate]

/-- On a path to a selected node there is at least that node. -/
theorem countOnWay_pos (h : path ∈ selector.paths root) : 0 < selector.countOnWay root path :=
  List.countP_pos_iff.2 ⟨path, (List.mem_inits _ _).2 List.prefix_rfl, mem_paths_iff_any.1 h⟩

/-- The paths of two searches in a row lead to what the second selects in the trees that the first
selects, in this order. -/
theorem map_at?_chainedPaths (outer inner : Selector) (root : Node) :
    (outer.chainedPaths inner root).map root.at? =
      (root.preorder.filter outer.selects).flatMap fun top =>
        (top.preorder.filter inner.selects).map some := by
  -- What is listed for a path depends on nothing but the node that the path leads to.
  have hnodes : (outer.chainedPaths inner root).map root.at? =
      ((outer.paths root).map root.at?).flatMap fun top? =>
        top?.toList.flatMap fun top => (top.preorder.filter inner.selects).map some := by
    rw [chainedPaths, List.map_flatMap, List.flatMap_map]
    simp only [map_at?_pathsUnder]
  rw [hnodes, map_at?_paths, List.flatMap_map]
  simp only [Option.toList_some, List.flatMap_singleton]

end Selector

namespace Query

/-- Two searches in a row find what their paths lead to, for one root of the context after the other. -/
theorem find_find_nodes (query : Query) (outer inner : Selector) :
    ((query.find outer).find inner).nodes.map some =
      query.nodes.flatMap fun root => (outer.chainedPaths inner root).map root.at? := by
  simp only [Selector.map_at?_chainedPaths]
  rw [find_nodes, find_nodes, Node.preorderAll_eq_flatMap, Node.preorderAll_eq_flatMap,
    List.filter_flatMap, List.map_flatMap, List.filter_flatMap, List.flatMap_assoc]

/-- Two searches in a row find as many nodes as there are pairs of a node that the second one selects
and a node on the way to it that the first one selects. -/
theorem size_find_find (query : Query) (outer inner : Selector) :
    ((query.find outer).find inner).size =
      (query.nodes.map fun root =>
        ((inner.paths root).map (outer.countOnWay root)).sum).sum := by
  have hlength := congrArg List.length (query.find_find_nodes outer inner)
  simpa only [size, List.length_map, List.length_flatMap, Selector.length_chainedPaths]
    using hlength

/-- Two searches in a row find what the chained paths lead to, for one root of the context after the
other. Among these a path to a node that the second one selects occurs once for each node on the way that
the first one selects, both ends of the way included, and no other path occurs. So many nodes are found in
all. In particular, searching again for the same finds every match again, and each as often as there are
matches on the way to it. -/
theorem find_find_eq_flatMap_chainedPaths (query : Query) (outer inner : Selector) :
    ((query.find outer).find inner).nodes.map some =
        (query.nodes.flatMap fun root => (outer.chainedPaths inner root).map root.at?) ∧
      (∀ root path, (outer.chainedPaths inner root).count path =
        if (root.at? path).any inner.selects then outer.countOnWay root path else 0) ∧
      ((query.find outer).find inner).size =
        (query.nodes.map fun root =>
          ((inner.paths root).map (outer.countOnWay root)).sum).sum ∧
      (∀ root, ∀ path ∈ outer.paths root,
        (outer.chainedPaths outer root).count path = outer.countOnWay root path ∧
          0 < outer.countOnWay root path) ∧
      ∀ node ∈ (query.find outer).nodes, node ∈ ((query.find outer).find outer).nodes := by
  refine ⟨query.find_find_nodes outer inner, outer.count_chainedPaths inner,
    query.size_find_find outer inner, fun root path hpath => ⟨?_, Selector.countOnWay_pos hpath⟩,
    fun node hnode => ?_⟩
  · rw [Selector.count_chainedPaths, if_pos (Selector.mem_paths_iff_any.1 hpath)]
  · -- A match is among the nodes of its own tree.
    have hself : node ∈ Node.preorderAll (query.find outer).nodes := by
      rw [Node.preorderAll_eq_flatMap]
      exact List.mem_flatMap.2 ⟨node, hnode, node.mem_preorder_self⟩
    exact mem_find.2 ⟨hself, (mem_find.1 hnode).2⟩

end Query

end MarkupQuery
