import MarkupQuery.Proofs.Interchange.Yields
import MarkupQuery.Proofs.Node.Rebuild

/-!
# Trees that are built or loaded

Trees come from the builders and the loaders, in any number of steps, each of which may use trees that
were made before. None of them makes an opaque node with the kind of an element or of a text, so all
of these trees are proper.

## Main definitions

- `Node.Built`: a tree made by builders and loaders.

## Main results

- `Node.load_eq_ok_iff`, `Node.loadValue_eq_ok_iff`, `Node.ofJsonAll_of_loadMany`: when loading
  succeeds.
- `Node.Built.proper`: trees that are built or loaded are proper.
-/

namespace MarkupQuery.Node

/-! ### When loading succeeds -/

/-- A node is loaded from a text exactly when it is read from it. -/
theorem load_eq_ok_iff {text : String} {node : Node} :
    (load text).value = .ok node ↔ read text.toList = .ok node := by
  rw [load]
  cases read text.toList with
  | ok read => simp [loaded]
  | error fault => simp

/-- Where reading a text exceeds the limit, so does loading from it. -/
theorem load_of_recursionLimit {text : String}
    (h : ∃ fault, read text.toList = .error fault ∧ fault.cause = .recursionLimit) :
    ∃ position, (load text).value = .error (.json .recursionLimit (some position)) := by
  obtain ⟨fault, hfault, hcause⟩ := h
  refine ⟨fault.position text.toList, ?_⟩
  rw [load, hfault, ← hcause]
  rfl

/-- A node is loaded from a value exactly when the value describes it. -/
theorem loadValue_eq_ok_iff {value : Json.Value} {node : Node} :
    (loadValue value).value = .ok node ↔ ofJson value.json = .ok node := by
  rw [loadValue, ofValue]
  cases ofJson value.json with
  | ok read => simp [loaded]
  | error offence => simp

/-- Nodes that are loaded from an array are those that its items describe. -/
theorem ofJsonAll_of_loadMany {text : String} {nodes : List Node}
    (h : (loadMany text).value = .ok nodes) : ∃ items, ofJsonAll items = .ok nodes := by
  rw [loadMany] at h
  split at h
  · simp at h
  · split at h
    · split at h
      · next hitems =>
        cases h
        exact ⟨_, hitems⟩
      · simp at h
    · simp at h

/-! ### Trees that are built -/

/-- Trees that are made by the builders and the loaders, in any number of steps, from trees made in
the same way. -/
inductive Built : Node → Prop where
  /-- An element without attributes and children. -/
  | ofTag (name : String) : Built (ofTag name)
  /-- A text. -/
  | text (value : String) : Built (.text value)
  /-- An empty node of a kind. -/
  | ofKind (kind : String) : Built (ofKind kind)
  /-- A node with given fields. -/
  | ofParts (kind name value : String) (attributes : Attributes) {children : List Node}
      (h : ∀ child ∈ children, Built child) : Built (ofParts kind name value attributes children)
  /-- A node with an attribute set. -/
  | withAttribute {node : Node} (name value : String) (h : Built node) :
      Built (node.withAttribute name value)
  /-- A node with one more child. -/
  | withChild {node child : Node} (h : Built node) (hchild : Built child) :
      Built (node.withChild child)
  /-- A node with more children. -/
  | withChildren {node : Node} {added : List Node} (h : Built node)
      (hadded : ∀ child ∈ added, Built child) : Built (node.withChildren added)
  /-- A node that was loaded from a text. -/
  | load {text : String} {node : Node} (h : (load text).value = .ok node) : Built node
  /-- A node that was loaded from a value. -/
  | loadValue {value : Json.Value} {node : Node} (h : (loadValue value).value = .ok node) :
      Built node
  /-- One of the nodes that were loaded from an array. -/
  | loadMany {text : String} {nodes : List Node} {node : Node}
      (h : (loadMany text).value = .ok nodes) (hmem : node ∈ nodes) : Built node

/-- Setting an attribute keeps a tree proper. -/
theorem Proper.withAttribute {node : Node} (h : node.Proper) (name value : String) :
    (node.withAttribute name value).Proper := by
  rw [proper_iff] at h ⊢
  cases node <;> exact h

/-- Appending proper children keeps a tree proper. -/
theorem Proper.withChildren {node : Node} {added : List Node} (h : node.Proper)
    (hadded : ∀ child ∈ added, child.Proper) : (node.withChildren added).Proper := by
  rw [proper_iff] at h ⊢
  cases node with
  | text value => exact h
  | element | other =>
    -- The root keeps its kind, and the new children are proper as well as the old ones.
    exact ⟨h.1, List.forall_mem_append.2 ⟨h.2, hadded⟩⟩

/-- The node of a draft with proper children is proper. -/
theorem proper_draft_node (draft : Draft)
    (h : draft.Has fun nodes => ∀ node ∈ nodes, node.Proper) : draft.node.Proper := by
  apply proper_ofParts
  cases hchildren : draft.children? with
  | none => exact List.forall_mem_nil _
  | some nodes => exact h nodes hchildren

/-- Trees that are built or loaded are proper. -/
theorem Built.proper {node : Node} (h : node.Built) : node.Proper := by
  induction h with
  | ofTag name => exact proper_iff.2 ⟨nofun, nofun⟩
  | text value => exact proper_iff.2 ⟨nofun, nofun⟩
  | ofKind kind => exact proper_ofParts (List.forall_mem_nil _)
  | ofParts kind name value attributes h ih => exact proper_ofParts ih
  | withAttribute name value h ih => exact ih.withAttribute name value
  | withChild h hchild ih ihchild =>
    refine ih.withChildren fun child hmem => ?_
    rwa [List.mem_singleton.1 hmem]
  | withChildren h hadded ih ihadded => exact ih.withChildren ihadded
  -- What is loaded is made of drafts, whose nodes are proper if their children are.
  | load h =>
    obtain ⟨rest, hread, -⟩ := Reader.exists_of_readWhole (load_eq_ok_iff.1 h)
    exact (yields_reader_and proper_draft_node _).1.holds hread
  | loadValue h => exact (of_ofJson_and proper_draft_node _).1 _ (loadValue_eq_ok_iff.1 h)
  | loadMany h hmem =>
    obtain ⟨items, hitems⟩ := ofJsonAll_of_loadMany h
    exact forall_mem_of_ofJsonAll (fun item _ => (of_ofJson_and proper_draft_node item).1) hitems
      _ hmem

end MarkupQuery.Node
