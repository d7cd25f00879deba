import MarkupQuery.Interchange.Load
import MarkupQuery.Proofs.Interchange.Normalize
import MarkupQuery.Proofs.Node.Rebuild

/-!
# Nodes by way of values

What is loaded from the value of a node is the node with everything rebuilt from its fields. The
depth of the node does not matter here, and neither does what its strings are.

## Main results

- `Node.toJson_eq`: a node is described by its five fields.
- `Node.ofJson_toJson`: the description of a node describes the rebuilt node.
- `Node.loadValue_toValue`: loading the value of a node rebuilds it, which changes it exactly if an
  opaque node in it has the kind of an element or of a text, and changes it no further.
-/

namespace MarkupQuery

/-- Attributes are read back from their description. -/
theorem Attributes.contentOfJson_toJson (attributes : Attributes) :
    Node.contentOfJson .attributes attributes.toJson = .ok attributes :=
  ofMembers_eq_ok_iff.2
    ⟨attributes.entries, rfl, ext (Entries.ofList_eq_self attributes.ascending)⟩

namespace Node

/-- A node is described by its five fields, those that it does not have being empty. -/
theorem toJson_eq (node : Node) :
    node.toJson =
      .ofFields (node.name?.getD "") node.kindName (node.value?.getD "")
        (node.attributes?.getD .empty) (node.children.map toJson) := by
  rw [← toJsonAll_eq_map]
  cases node <;> rfl

/-- A member that gives a field for the first time goes into the draft. -/
theorem draftOfMembers_cons {draft : Draft} {json : Json} {rest : List (String × Json)}
    (field : Field) {content : field.Content} (hhas : draft.has field = false)
    (hcontent : contentOfJson field json = .ok content) :
    draftOfMembers draft ((field.key, json) :: rest) =
      draftOfMembers (draft.set field content) rest := by
  rw [draftOfMembers, Field.ofKey?_eq_some_iff.2 rfl]
  simp only [hhas, hcontent, Bool.false_eq_true, if_false]
  rfl

/-- Five fields describe the node with these fields. -/
theorem ofJson_ofFields {children : List Json} {nodes : List Node} (name kind value : String)
    (attributes : Attributes) (hchildren : ofJsonAll children = .ok nodes) :
    ofJson (.ofFields name kind value attributes children) =
      .ok (ofParts kind name value attributes nodes) := by
  rw [Json.ofFields, ofJson, bind_eq_ok]
  refine ⟨⟨some name, some kind, some value, some attributes, some nodes⟩, ?_, rfl⟩
  refine (draftOfMembers_cons .name rfl rfl).trans ?_
  refine (draftOfMembers_cons .kind rfl rfl).trans ?_
  refine (draftOfMembers_cons .value rfl rfl).trans ?_
  refine (draftOfMembers_cons .attributes rfl attributes.contentOfJson_toJson).trans ?_
  exact draftOfMembers_cons .children rfl hchildren

/-- The description of a node describes the rebuilt node. -/
theorem ofJson_toJson (node : Node) : ofJson node.toJson = .ok node.rebuild := by
  induction node using induct with
  | node node ih =>
    -- The children describe their rebuilt trees one by one.
    have hchildren : ofJsonAll (node.children.map toJson) = .ok (node.children.map rebuild) := by
      generalize node.children = children at ih
      induction children with
      | nil => rfl
      | cons child rest ihrest =>
        rw [List.map_cons, ofJsonAll, ih child List.mem_cons_self,
          ihrest fun other hmem => ih other (List.mem_cons_of_mem _ hmem)]
        rfl
    rw [toJson_eq, ofJson_ofFields _ _ _ _ hchildren, ← rebuild_eq]

/-- The value of a node describes the rebuilt node. -/
theorem ofValue_toValue (node : Node) : ofValue node.toValue = .ok node.rebuild :=
  (ofJson_normalize_and node.toJson).1 _ (ofJson_toJson node)

/-- Loading the value of a node succeeds whatever its height and results in the node with everything
rebuilt from its fields. That is the node itself exactly if no opaque node in it has the kind of an
element or of a text. Doing it a second time changes nothing. -/
theorem loadValue_toValue (node : Node) :
    (loadValue node.toValue).value = .ok node.rebuild ∧
      (node.rebuild = node ↔
        ∀ inner ∈ node.preorder, inner.kind = .other →
          inner.kindName ≠ "element" ∧ inner.kindName ≠ "text") ∧
      (loadValue node.rebuild.toValue).value = .ok node.rebuild := by
  have hload : ∀ node : Node, (loadValue node.toValue).value = .ok node.rebuild := by
    intro node
    rw [loadValue, ofValue_toValue]
    rfl
  refine ⟨hload node, ⟨?_, rebuild_eq_self⟩, ?_⟩
  · -- What rebuilding results in is proper, so a tree that it leaves as it is must be.
    intro h
    have hproper := proper_rebuild node
    rwa [h] at hproper
  · -- Rebuilding what was rebuilt changes nothing for the same reason.
    rw [hload, rebuild_eq_self (proper_rebuild node)]

end Node

end MarkupQuery
