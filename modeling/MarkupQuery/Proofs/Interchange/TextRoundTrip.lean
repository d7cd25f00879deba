import MarkupQuery.Proofs.Interchange.Built
import MarkupQuery.Proofs.Interchange.ReadBack

/-!
# Nodes by way of texts

A tree that was built or loaded is loaded from its text if it has at most 63 levels. With more levels
the text has more open brackets than may be open at once.

## Main results

- `Node.readsWithin_read_embellished`, `Node.readsWithin_read`: a text of a node is read within two brackets
  for each of its levels.
- `Node.load_toText`: built and loaded trees are loaded from their text, up to 63 levels.
-/

namespace MarkupQuery.Node

/-- A text of a node is read as the rebuilt node within two brackets for each of its levels, in whichever
order it gives the fields and whatever has been inserted into it. -/
theorem readsWithin_read_embellished {order : List Field} (horder : order.Perm Field.all) {node : Node}
    {text : List Char} (h : Embellished order node text) :
    ReadsWithin (2 * node.height) Json.nestingLimit node.rebuild (read text) := by
  have hread := readsWithin_embellished horder h Json.nestingLimit []
  rw [List.append_nil] at hread
  rw [← Nat.max_zero (2 * node.height)]
  exact hread.bind (.of_eq rfl _)

/-- The text of a description is one into which nothing has been inserted. -/
theorem embellished_compact (order : List Field) (node : Node) :
    Embellished order node (node.describe order).compact.toList := by
  rw [Json.compact, String.toList_ofList]
  exact embellished_describe order node

/-- The text of a description, in any order of the fields, is read as the rebuilt node within two brackets
for each of its levels. -/
theorem readsWithin_read_describe {order : List Field} (horder : order.Perm Field.all) (node : Node) :
    ReadsWithin (2 * node.height) Json.nestingLimit node.rebuild
      (read (node.describe order).compact.toList) :=
  readsWithin_read_embellished horder (embellished_compact order node)

/-- The text of a node gives the fields of all nodes in the order of their declaration. -/
theorem toText_eq (node : Node) : node.toText = (node.describe Field.all).compact := by
  rw [toText, toJson_eq_describe]

/-- The text of a node is read as the rebuilt node within two brackets for each of its levels. -/
theorem readsWithin_read (node : Node) :
    ReadsWithin (2 * node.height) Json.nestingLimit node.rebuild (read node.toText.toList) :=
  toText_eq node ▸ readsWithin_read_describe (.refl _) node

/-- A tree that was built or loaded is loaded from its text as it is if it has at most 63 levels. If
it has more, the limit of open brackets is exceeded. -/
theorem load_toText {node : Node} (h : node.Built) :
    (node.height ≤ 63 → (load node.toText).value = .ok node) ∧
      (64 ≤ node.height → ∃ position,
        (load node.toText).value = .error (.json .recursionLimit (some position))) := by
  have hread := readsWithin_read node
  rw [rebuild_eq_self h.proper] at hread
  -- Two brackets for each of 63 levels are within the limit of 127, for one level more they are not.
  constructor
  · intro hle
    rw [load_eq_ok_iff]
    exact hread.ok (by rw [Json.nestingLimit]; omega)
  · intro hlt
    obtain ⟨fault, hfault, hcause⟩ := hread.limit (by rw [Json.nestingLimit]; omega)
    refine ⟨fault.position node.toText.toList, ?_⟩
    rw [load, hfault, ← hcause]
    rfl

/-- A text under `depth` elements, with characters that have to be escaped. -/
def nested : (depth : Nat) → Node
  | 0 => .text "\"\\\x00𝄞"
  | depth + 1 => (ofTag "\n").withChild (nested depth)

/-- Nested elements are built, and have one level more than there are elements. -/
theorem nested_and (depth : Nat) : (nested depth).Built ∧ (nested depth).height = depth + 1 := by
  induction depth with
  | zero => exact ⟨.text _, rfl⟩
  | succ depth ih =>
    refine ⟨.withChild (.ofTag _) ih.1, ?_⟩
    show max (nested depth).height 0 + 1 = depth + 1 + 1
    rw [Nat.max_zero, ih.2]

/-- A text under 62 elements is loaded from its text, one under 63 elements is not. -/
theorem load_toText_nested :
    (load (nested 62).toText).value = .ok (nested 62) ∧
      ∃ position, (load (nested 63).toText).value = .error (.json .recursionLimit (some position)) :=
  ⟨(load_toText (nested_and 62).1).1 (Nat.le_of_eq (nested_and 62).2),
    (load_toText (nested_and 63).1).2 (Nat.le_of_eq (nested_and 63).2.symm)⟩

end MarkupQuery.Node
