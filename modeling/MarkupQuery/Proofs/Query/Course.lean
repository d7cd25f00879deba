import Mathlib.Data.List.Infix
import MarkupQuery.Proofs.Node.Paths
import MarkupQuery.Proofs.Query.Text

/-!
# The course of a sweep

Each round of a sweep takes one tree off the stack and puts any number of trees in its place, so the
number of trees on the stack does not tell how many rounds are left; the number of nodes in them does.
From any stack, and whatever has been made before, there are as many rounds as there are nodes in the
trees on the stack. A sweep that is told where each tree on its stack was taken from goes through the same
states, and it takes every node off just once.

## Main definitions

- `Placed`: a tree with its place, and `Placed.all`, the trees beneath it with theirs.
- `touring`: a sweep that keeps account of the places of the trees on its stack.

## Main results

- `rounds_sweep`: the number of rounds.
- `map_result_states_sweep`: what has been made before the first round and after each one.
- `touring_run_visited`: what has been taken off in the end, and in which order.
- `Placed.mem_allOf_row_iff`, `Placed.map_place_allOf_row`: these are all nodes, and each just once.
- `sweep_course`: rounds, results and places of the sweeps that find nodes and collect text.
-/

namespace MarkupQuery

section Sweep

variable {β : Type} (visit : β → Node → β)

/-! ### Rounds -/

/-- A sweep has as many rounds as there are nodes in the trees on its stack. -/
theorem rounds_sweep (state : Sweep β) :
    (sweep visit).rounds state = Node.sizeAll state.stack := by
  refine (sweep visit).induct
    (motive := fun state => (sweep visit).rounds state = Node.sizeAll state.stack) ?_ state
  rintro ⟨_ | ⟨node, below⟩, result⟩ ih
  · rw [Loop.rounds_eq]
    rfl
  · have hnext : (sweep visit).rounds ⟨node :: below, result⟩ =
        (sweep visit).rounds ⟨node.children ++ below, visit result node⟩ + 1 :=
      (sweep visit).rounds_eq ⟨node :: below, result⟩
    rw [hnext, ih _ rfl]
    -- The root has been taken off, and its children are still there.
    simp only [Node.sizeAll_append, Node.sizeAll, Node.size_eq]
    omega

/-- Before the first round, and after each one, a sweep has folded its visit over the nodes that come
first in the trees on its stack: none at first, and one more with every round. -/
theorem map_result_states_sweep (state : Sweep β) :
    ((sweep visit).states state).map Sweep.result =
      (Node.preorderAll state.stack).inits.map fun visited => visited.foldl visit state.result := by
  refine (sweep visit).induct (motive := fun state =>
    ((sweep visit).states state).map Sweep.result =
      (Node.preorderAll state.stack).inits.map fun visited => visited.foldl visit state.result) ?_ state
  rintro ⟨_ | ⟨node, below⟩, result⟩ ih
  · rw [Loop.states_of_done rfl]
    rfl
  · rw [Loop.states_of_next rfl, List.map_cons, ih _ rfl]
    simp only [Node.preorderAll, Node.preorder_eq, Node.preorderAll_append, List.cons_append,
      List.inits_cons, List.map_cons, List.map_map, List.foldl_nil]
    rfl

/-- All that a sweep has made at any time comes from visiting nodes after what had been made before. -/
theorem exists_result_eq_foldl {state later : Sweep β} (h : later ∈ (sweep visit).states state) :
    ∃ visited : List Node, later.result = visited.foldl visit state.result := by
  have hmem := List.mem_map_of_mem (f := Sweep.result) h
  rw [map_result_states_sweep, List.mem_map] at hmem
  obtain ⟨visited, -, heq⟩ := hmem
  exact ⟨visited, heq.symm⟩

end Sweep

/-! ### Places -/

/-- A tree with the place that it was taken from, which is a path. -/
structure Placed where
  /-- The path that leads to the tree. -/
  place : List Nat
  /-- The tree. -/
  tree : Node

namespace Placed

/-- Trees next to one another, each with its index at the end of its place. -/
def row (place : List Nat) (trees : List Node) : List Placed :=
  trees.zipIdx.map fun entry => ⟨place ++ [entry.2], entry.1⟩

/-- The children of a tree, each at its place. -/
def children (top : Placed) : List Placed :=
  row top.place top.tree.children

/-- The nodes of a tree in document order, each at its place. -/
def all (top : Placed) : List Placed :=
  top.tree.paths.filterMap fun path =>
    (top.tree.at? path).map fun inner => ⟨top.place ++ path, inner⟩

/-- The nodes of trees, each at its place. -/
def allOf (trees : List Placed) : List Placed :=
  trees.flatMap all

/-- Without their places, trees next to one another are what they were. -/
@[simp]
theorem map_tree_row (place : List Nat) (trees : List Node) :
    (row place trees).map tree = trees := by
  rw [row, List.map_map]
  exact List.zipIdx_map_fst 0 trees

/-- The nodes beneath a tree are at the places that begin with its own. -/
theorem mem_all_iff {top inner : Placed} :
    inner ∈ top.all ↔
      ∃ path, top.place ++ path = inner.place ∧ top.tree.at? path = some inner.tree := by
  simp only [all, List.mem_filterMap, Option.map_eq_some_iff, Node.mem_paths_iff]
  constructor
  · rintro ⟨path, -, node, hnode, rfl⟩
    exact ⟨path, rfl, hnode⟩
  · rintro ⟨path, hplace, hnode⟩
    exact ⟨path, ⟨_, hnode⟩, inner.tree, hnode, by rw [hplace]⟩

/-- The places of the nodes of a tree are the paths to them, behind the place of the tree. -/
theorem map_place_all (top : Placed) :
    top.all.map place = top.tree.paths.map (top.place ++ ·) := by
  rw [all, List.map_filterMap, ← List.filterMap_eq_map]
  refine List.filterMap_congr fun path hmem => ?_
  obtain ⟨inner, hinner⟩ := Node.mem_paths_iff.1 hmem
  rw [hinner]
  rfl

/-- The root of a tree comes first, then the nodes beneath its children. -/
theorem all_eq (top : Placed) : top.all = top :: allOf top.children := by
  rw [all, Node.paths_eq, List.filterMap_cons, Node.at?, Option.map_some, List.append_nil,
    Node.pathsFrom_eq_flatMap, List.filterMap_flatMap, children, allOf, row, List.flatMap_map]
  refine congrArg _ (List.flatMap_congr fun entry hentry => ?_)
  -- Within a child, the path goes on behind the index of the child.
  have hchild := List.mem_zipIdx_iff_getElem?.1 hentry
  rw [List.filterMap_map, all]
  refine List.filterMap_congr fun path _ => ?_
  rw [Function.comp_apply, Node.at?_cons hchild, List.append_assoc]
  rfl

/-- The nodes of trees next to one another are those that a path leads to which begins with the index of
one of the trees. -/
theorem mem_allOf_row_iff {trees : List Node} {inner : Placed} :
    inner ∈ allOf (row [] trees) ↔
      ∃ index root path, trees[index]? = some root ∧ index :: path = inner.place ∧
        root.at? path = some inner.tree := by
  simp only [allOf, row, List.flatMap_map, List.mem_flatMap, Prod.exists,
    List.mk_mem_zipIdx_iff_getElem?, mem_all_iff, List.nil_append, List.singleton_append]
  constructor
  · rintro ⟨root, index, hroot, path, hplace, hinner⟩
    exact ⟨index, root, path, hroot, hplace, hinner⟩
  · rintro ⟨index, root, path, hroot, hplace, hinner⟩
    exact ⟨root, index, hroot, path, hplace, hinner⟩

/-- The places of the nodes of trees next to one another are the paths that begin with the index of one of
the trees. -/
theorem map_place_allOf_row (trees : List Node) :
    (allOf (row [] trees)).map place = Node.pathsFrom 0 trees := by
  rw [allOf, row, List.flatMap_map, List.map_flatMap, Node.pathsFrom_eq_flatMap]
  exact List.flatMap_congr fun entry _ => map_place_all _

end Placed

/-! ### Sweeps with an account -/

/-- Where a sweep stands that keeps account of places. -/
structure Tour (β : Type) where
  /-- The trees that are still to be visited, with their places. -/
  stack : List Placed
  /-- The trees whose roots have been visited, in turn. -/
  visited : List Placed
  /-- What the visits have made so far. -/
  result : β

namespace Tour

variable {β : Type}

/-- A tour of trees next to one another, before anything has been visited. -/
def start (trees : List Node) (initial : β) : Tour β :=
  ⟨Placed.row [] trees, [], initial⟩

/-- Where the sweep stands, without the account. -/
def sweep (tour : Tour β) : Sweep β :=
  ⟨tour.stack.map Placed.tree, tour.result⟩

end Tour

/-- Sweep, and write down the places of the trees that are taken off the stack. -/
def touring {β : Type} (visit : β → Node → β) : Loop (Tour β) (Tour β) where
  step
    | ⟨[], visited, result⟩ => .done ⟨[], visited, result⟩
    | ⟨top :: below, visited, result⟩ =>
      .next ⟨top.children ++ below, visited ++ [top], visit result top.tree⟩
  measure tour := Node.sizeAll tour.sweep.stack
  measure_lt := by
    intro tour following h
    obtain ⟨_ | ⟨top, below⟩, visited, result⟩ := tour
    · cases h
    · cases h
      simp [Tour.sweep, Placed.children, Node.sizeAll, Node.size_eq]

section Touring

variable {β : Type} (visit : β → Node → β)

/-- The account makes no difference to where a sweep ends. -/
theorem touring_step_done (tour result : Tour β) (h : (touring visit).step tour = .done result) :
    (sweep visit).step tour.sweep = .done result.result := by
  obtain ⟨_ | ⟨top, below⟩, visited, soFar⟩ := tour <;> cases h
  rfl

/-- The account makes no difference to how a sweep goes on. -/
theorem touring_step_next (tour following : Tour β)
    (h : (touring visit).step tour = .next following) :
    (sweep visit).step tour.sweep = .next following.sweep := by
  obtain ⟨_ | ⟨top, below⟩, visited, soFar⟩ := tour <;> cases h
  simp [sweep, Tour.sweep, Placed.children]

/-- A sweep that keeps account goes through the same states. -/
theorem touring_states (tour : Tour β) :
    ((touring visit).states tour).map Tour.sweep = (sweep visit).states tour.sweep :=
  Loop.map_states (touring_step_done visit) (touring_step_next visit) tour

/-- A sweep that keeps account makes the same. -/
theorem touring_run_result (tour : Tour β) :
    ((touring visit).run tour).result = (sweep visit).run tour.sweep :=
  Loop.map_run (touring_step_done visit) (touring_step_next visit) tour

/-- What has been taken off the stack in the end are the nodes of the trees that were there, each at its
place. -/
theorem touring_run_visited (tour : Tour β) :
    ((touring visit).run tour).visited = tour.visited ++ Placed.allOf tour.stack := by
  refine (touring visit).run_induct
    (motive := fun tour last => last.visited = tour.visited ++ Placed.allOf tour.stack)
    ?done ?next tour
  case done =>
    rintro ⟨_ | ⟨top, below⟩, visited, soFar⟩ result hstep <;> cases hstep
    exact (List.append_nil visited).symm
  case next =>
    rintro ⟨_ | ⟨top, below⟩, visited, soFar⟩ following hstep ih <;> cases hstep
    rw [ih]
    -- The nodes beneath the children come where their parent was taken off.
    simp only [Placed.allOf, List.flatMap_append, List.flatMap_cons, Placed.all_eq top,
      List.append_assoc, List.cons_append, List.nil_append]

end Touring

/-- From any stack, and whatever had been kept or collected before, the sweeps that find nodes and collect
text have as many rounds as there are nodes in the trees on the stack. They leave what was there before,
which stays in front all the time, followed by the selected nodes of the trees, or by the values of their
text nodes, tree by tree from the top of the stack and in document order within each. An account of the
places, which makes no difference to such a sweep, shows that just the nodes of these trees are taken off the
stack, in the ascending order of their places, and so each of them once. -/
theorem sweep_course (stack : List Node) :
    (∀ (selector : Selector) (kept : Array Node),
      (sweep selector.keep).rounds ⟨stack, kept⟩ = Node.sizeAll stack ∧
      ((sweep selector.keep).run ⟨stack, kept⟩).toList =
        kept.toList ++ stack.flatMap (fun root => root.preorder.filter selector.selects) ∧
      ∀ state ∈ (sweep selector.keep).states ⟨stack, kept⟩, kept.toList <+: state.result.toList) ∧
    (∀ text : String,
      (sweep Node.appendText).rounds ⟨stack, text⟩ = Node.sizeAll stack ∧
      (sweep Node.appendText).run ⟨stack, text⟩ =
        text ++ String.join (stack.flatMap fun root => Node.textValues root.preorder) ∧
      ∀ state ∈ (sweep Node.appendText).states ⟨stack, text⟩,
        ∃ added, state.result = text ++ added) ∧
    ∀ {β : Type} (visit : β → Node → β) (initial : β),
      let last := (touring visit).run (.start stack initial)
      ((touring visit).states (.start stack initial)).map Tour.sweep =
          (sweep visit).states ⟨stack, initial⟩ ∧
        last.result = (sweep visit).run ⟨stack, initial⟩ ∧
        (last.visited.map Placed.place).Pairwise (· < ·) ∧
        ∀ inner, inner ∈ last.visited ↔
          ∃ index root path, stack[index]? = some root ∧ index :: path = inner.place ∧
            root.at? path = some inner.tree := by
  refine ⟨fun selector kept => ⟨rounds_sweep _ _, ?_, fun state hstate => ?_⟩,
    fun text => ⟨rounds_sweep _ _, ?_, fun state hstate => ?_⟩, fun visit initial => ?_⟩
  · rw [sweep_run, Selector.foldl_keep, Node.preorderAll_eq_flatMap, List.filter_flatMap]
  · obtain ⟨visited, hresult⟩ := exists_result_eq_foldl _ hstate
    rw [hresult, Selector.foldl_keep]
    exact List.prefix_append _ _
  · rw [sweep_run, Node.foldl_appendText]
    simp only [Node.textValues]
    rw [Node.preorderAll_eq_flatMap, List.filter_flatMap, List.map_flatMap]
  · obtain ⟨visited, hresult⟩ := exists_result_eq_foldl _ hstate
    exact ⟨_, hresult.trans (Node.foldl_appendText visited text)⟩
  · have hstart : (Tour.start stack initial).sweep = ⟨stack, initial⟩ := by
      simp [Tour.start, Tour.sweep]
    have hvisited : ((touring visit).run (.start stack initial)).visited =
        Placed.allOf (Placed.row [] stack) := touring_run_visited visit _
    refine ⟨by rw [touring_states, hstart], by rw [touring_run_result, hstart], ?_, fun inner => ?_⟩
    · rw [hvisited, Placed.map_place_allOf_row]
      exact Node.pairwise_lt_pathsFrom (fun root _ => root.pairwise_lt_paths) 0
    · rw [hvisited, Placed.mem_allOf_row_iff]

end MarkupQuery
