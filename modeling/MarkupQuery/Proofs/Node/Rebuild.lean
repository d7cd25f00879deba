import MarkupQuery.Proofs.Node.Preorder

/-!
# Rebuilding a tree from its fields

The shape of a node can be told from the name of its kind as long as no opaque node has the kind of
an element or of a text. Such trees are proper. Rebuilding a tree bottom-up from the fields of its
nodes makes it proper and changes nothing else.

## Main definitions

- `Node.Proper`: no opaque node of a tree has the kind of an element or of a text.
- `Node.rebuild`: a tree with every node made again from its fields.

## Main results

- `Node.proper_ofParts`: building a node from its fields keeps trees proper.
- `Node.rebuild_eq`: what rebuilding does to a node.
- `Node.rebuild_eq_self`, `Node.proper_rebuild`: proper trees are those that rebuilding leaves as they
  are, and all that it results in.
-/

namespace MarkupQuery.Node

/-! ### Proper trees -/

/-- No opaque node of the tree has the kind of an element or of a text. -/
def Proper (node : Node) : Prop :=
  ∀ inner ∈ node.preorder, inner.kind = .other →
    inner.kindName ≠ "element" ∧ inner.kindName ≠ "text"

instance (node : Node) : Decidable node.Proper :=
  inferInstanceAs (Decidable (∀ inner ∈ node.preorder, inner.kind = .other →
    inner.kindName ≠ "element" ∧ inner.kindName ≠ "text"))

/-- A tree is proper when its root is not misnamed and the trees of its children are proper. -/
theorem proper_iff {node : Node} :
    node.Proper ↔
      (node.kind = .other → node.kindName ≠ "element" ∧ node.kindName ≠ "text") ∧
        ∀ child ∈ node.children, child.Proper := by
  constructor
  · intro h
    refine ⟨h node (mem_preorder_self node), fun child hchild inner hinner => ?_⟩
    exact h inner (mem_preorder.2 (.inr ⟨child, hchild, hinner⟩))
  · rintro ⟨hroot, hchildren⟩ inner hinner
    rcases mem_preorder.1 hinner with rfl | ⟨child, hchild, hinner⟩
    · exact hroot
    · exact hchildren child hchild inner hinner

/-- A node that is built from its fields is proper if the given children are. -/
theorem proper_ofParts {kind name value : String} {attributes : Attributes}
    {children : List Node} (h : ∀ child ∈ children, child.Proper) :
    (ofParts kind name value attributes children).Proper := by
  rw [proper_iff, ofParts]
  -- The shape is chosen by the kind, and an opaque one is left to other kinds only.
  split
  · exact ⟨nofun, h⟩
  split
  · exact ⟨nofun, nofun⟩
  · next helement htext => exact ⟨fun _ => ⟨helement, htext⟩, h⟩

/-- A node that is not misnamed is built from its own fields. -/
theorem ofParts_fields {node : Node}
    (h : node.kind = .other → node.kindName ≠ "element" ∧ node.kindName ≠ "text") :
    ofParts node.kindName (node.name?.getD "") (node.value?.getD "")
      (node.attributes?.getD .empty) node.children = node := by
  cases node with
  | element name attributes children => rfl
  | text value => rfl
  | other kind name value attributes children =>
    obtain ⟨helement, htext⟩ : kind ≠ "element" ∧ kind ≠ "text" := h rfl
    show ofParts kind name value attributes children = _
    rw [ofParts, if_neg helement, if_neg htext]

/-! ### Rebuilding -/

mutual

/-- The tree with every node built again from its fields, from the leaves upwards. A field that a
node does not have is empty. -/
def rebuild : Node → Node
  | .element name attributes children =>
    ofParts "element" name "" attributes (rebuildAll children)
  | .text value => ofParts "text" "" value .empty []
  | .other kind name value attributes children =>
    ofParts kind name value attributes (rebuildAll children)

/-- All the trees, rebuilt. -/
def rebuildAll : List Node → List Node
  | [] => []
  | node :: rest => node.rebuild :: rebuildAll rest

end

/-- All trees are rebuilt one by one. -/
theorem rebuildAll_eq_map (nodes : List Node) : rebuildAll nodes = nodes.map rebuild := by
  induction nodes with
  | nil => rfl
  | cons node rest ih => rw [rebuildAll, ih, List.map_cons]

/-- A node is rebuilt from its fields and its rebuilt children. -/
theorem rebuild_eq (node : Node) :
    node.rebuild =
      ofParts node.kindName (node.name?.getD "") (node.value?.getD "")
        (node.attributes?.getD .empty) (node.children.map rebuild) := by
  rw [← rebuildAll_eq_map]
  cases node <;> rfl

/-- Rebuilding makes any tree proper. -/
theorem proper_rebuild (node : Node) : node.rebuild.Proper := by
  induction node using induct with
  | node node ih =>
    rw [rebuild_eq]
    apply proper_ofParts
    intro child hchild
    obtain ⟨written, hwritten, rfl⟩ := List.mem_map.1 hchild
    exact ih written hwritten

/-- Rebuilding leaves a proper tree as it is. -/
theorem rebuild_eq_self {node : Node} (h : node.Proper) : node.rebuild = node := by
  induction node using induct with
  | node node ih =>
    obtain ⟨hroot, hchildren⟩ := proper_iff.1 h
    -- The children are left as they are, and with them the root is built from its own fields.
    have hmap : node.children.map rebuild = node.children :=
      (List.map_congr_left fun child hchild => ih child hchild (hchildren child hchild)).trans
        (List.map_id' _)
    rw [rebuild_eq, hmap, ofParts_fields hroot]

end MarkupQuery.Node
