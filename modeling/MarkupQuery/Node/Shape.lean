import MarkupQuery.Node.Basic

/-!
# Size and height of trees

Traversals end because trees are finite. Those that keep a list of pending trees end by the number
of nodes in them, those that go down level by level by the height of the tallest.

## Main definitions

- `Node.size`, `Node.sizeAll`: the number of nodes of a tree, and of a list of trees.
- `Node.height`, `Node.heightAll`: the number of levels of a tree, and of the tallest of a list.

## Main results

- `Node.size_eq`, `Node.height_eq`: both are one more than those of the children.
- `Node.heightAll_flatMap_children`: going down one level takes one off the height.
-/

namespace MarkupQuery.Node

mutual

/-- The number of nodes of a tree. -/
def size : Node → Nat
  | .element _ _ children => sizeAll children + 1
  | .text _ => 1
  | .other _ _ _ _ children => sizeAll children + 1

/-- The number of nodes of all the trees. -/
def sizeAll : List Node → Nat
  | [] => 0
  | node :: rest => node.size + sizeAll rest

end

mutual

/-- The number of levels of a tree: 1 for a node that has no children. -/
def height : Node → Nat
  | .element _ _ children => heightAll children + 1
  | .text _ => 1
  | .other _ _ _ _ children => heightAll children + 1

/-- The number of levels of the tallest of the trees. -/
def heightAll : List Node → Nat
  | [] => 0
  | node :: rest => max node.height (heightAll rest)

end

/-- A tree has one node more than its children together. -/
theorem size_eq (node : Node) : node.size = sizeAll node.children + 1 := by
  cases node <;> simp [size, children, sizeAll]

/-- A tree has one level more than the tallest of its children. -/
theorem height_eq (node : Node) : node.height = heightAll node.children + 1 := by
  cases node <;> simp [height, children, heightAll]

/-- Sizes add up over lists of trees. -/
@[simp]
theorem sizeAll_append (as bs : List Node) : sizeAll (as ++ bs) = sizeAll as + sizeAll bs := by
  induction as with
  | nil => simp [sizeAll]
  | cons a as ih => simp [sizeAll, ih, Nat.add_assoc]

/-- The tallest of two lists of trees is the taller of the tallest of each. -/
@[simp]
theorem heightAll_append (as bs : List Node) :
    heightAll (as ++ bs) = max (heightAll as) (heightAll bs) := by
  induction as with
  | nil => simp [heightAll]
  | cons a as ih => simp [heightAll, ih, Nat.max_assoc]

/-- The children of a level are one level less high than the level. -/
theorem heightAll_flatMap_children (level : List Node) :
    heightAll (level.flatMap children) = heightAll level - 1 := by
  induction level with
  | nil => rfl
  | cons node rest ih =>
    rw [List.flatMap_cons, heightAll_append, ih, heightAll, height_eq]
    -- One level is taken off each of the two heights, and so off the greater of them.
    omega

/-- Every level that holds a node has a height. -/
theorem heightAll_pos {level : List Node} (h : level ≠ []) : 0 < heightAll level := by
  cases level with
  | nil => exact absurd rfl h
  | cons node rest => rw [heightAll, height_eq]; omega

end MarkupQuery.Node
