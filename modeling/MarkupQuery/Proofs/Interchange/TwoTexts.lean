import MarkupQuery.Proofs.Interchange.TextRoundTrip

/-!
# The text of a node and the text of its value

A node has a text of its own, and its value has a text, too. The two differ in nothing but the order in
which they give the fields of the nodes. Up to 63 levels both mean the same value and the same node, and
with more levels neither is read.

## Main definitions

- `Node.valueText`: the text of the value of a node.

## Main results

- `Node.readsWithin_compact_describe`: a description in any order of the fields is read as JSON within two
  brackets for each level.
- `Node.load_describe`, `Node.load_describe_of_lt`: what is loaded from the text of a description.
- `Node.load_texts`: the same for the text of a node and the text of its value.
-/

namespace MarkupQuery

namespace Node

/-- The text of the value of a node. -/
def valueText (node : Node) : String :=
  node.toValue.json.compact

section Order

variable {order : List Field} (horder : order.Perm Field.all) (node : Node)
include horder

/-- The text of a description is read as JSON within two brackets for each level of the node. -/
theorem readsWithin_compact_describe :
    ReadsWithin (2 * node.height) Json.nestingLimit (node.describe order)
      (Json.read (node.describe order).compact.toList) := by
  rw [← nesting_describe horder]
  exact Json.readsWithin_compact (numberless_describe order node)

/-- Up to 63 levels, the text of a description means the value of the node, and the rebuilt node is loaded
from it. -/
theorem load_describe (hle : node.height ≤ 63) :
    Json.Value.ofText (node.describe order).compact = .ok node.toValue ∧
      (load (node.describe order).compact).value = .ok node.rebuild := by
  have hlimit : 2 * node.height ≤ Json.nestingLimit := by rw [Json.nestingLimit]; omega
  constructor
  · have hvalue : (node.describe order).toValue = node.toValue := by
      rw [toValue, Json.toValue, Json.toValue, Json.Value.mk.injEq, toJson_eq_describe,
        normalize_describe horder, normalize_describe (.refl _)]
    rw [Json.Value.ofText, (readsWithin_compact_describe horder node).ok hlimit, ← hvalue]
  · exact load_eq_ok_iff.2 ((readsWithin_read_describe horder node).ok hlimit)

/-- With more levels, the text of a description exceeds the limit of open brackets. -/
theorem load_describe_of_lt (hlt : 63 < node.height) :
    (∃ position, Json.Value.ofText (node.describe order).compact =
        .error (.json .recursionLimit (some position))) ∧
      ∃ position, (load (node.describe order).compact).value =
        .error (.json .recursionLimit (some position)) := by
  have hlimit : Json.nestingLimit < 2 * node.height := by rw [Json.nestingLimit]; omega
  constructor
  · obtain ⟨fault, hfault, hcause⟩ := (readsWithin_compact_describe horder node).limit hlimit
    refine ⟨fault.position (node.describe order).compact.toList, ?_⟩
    rw [Json.Value.ofText, hfault, ← hcause]
    rfl
  · exact load_of_recursionLimit ((readsWithin_read_describe horder node).limit hlimit)

end Order

/-- The text of the value of a node gives the fields of all nodes with ascending keys. -/
theorem valueText_eq (node : Node) : node.valueText = (node.describe Field.ascending).compact := by
  rw [valueText, toValue_json]

/-- Up to 63 levels, the text of a node and the text of its value both mean its value, and the same node is
loaded from both. With more levels neither of them is read, for the limit of open brackets is exceeded. They
are descriptions that differ in the order of the fields only, at every depth. -/
theorem load_texts (node : Node) :
    (node.height ≤ 63 → ∀ text ∈ [node.toText, node.valueText],
      Json.Value.ofText text = .ok node.toValue ∧ (load text).value = .ok node.rebuild) ∧
      (64 ≤ node.height → ∀ text ∈ [node.toText, node.valueText],
        (∃ position, Json.Value.ofText text = .error (.json .recursionLimit (some position))) ∧
          ∃ position, (load text).value = .error (.json .recursionLimit (some position))) ∧
      node.toText = (node.describe Field.all).compact ∧
      node.valueText = (node.describe Field.ascending).compact := by
  simp only [List.forall_mem_cons]
  refine ⟨fun hle => ?_, fun hlt => ?_, node.toText_eq, node.valueText_eq⟩
  · rw [toText_eq, valueText_eq]
    exact ⟨load_describe (.refl _) node hle, load_describe Field.ascending_perm node hle,
      List.forall_mem_nil _⟩
  · rw [toText_eq, valueText_eq]
    exact ⟨load_describe_of_lt (.refl _) node hlt, load_describe_of_lt Field.ascending_perm node hlt,
      List.forall_mem_nil _⟩

/-- A tree of 63 levels is loaded from the text of its value, one of 64 levels is not. -/
theorem load_valueText_nested :
    (load (nested 62).valueText).value = .ok (nested 62).rebuild ∧
      ∃ position,
        (load (nested 63).valueText).value = .error (.json .recursionLimit (some position)) := by
  have hmem : ∀ node : Node, node.valueText ∈ [node.toText, node.valueText] :=
    fun node => List.mem_cons_of_mem _ List.mem_cons_self
  exact ⟨((load_texts _).1 (Nat.le_of_eq (nested_and 62).2) _ (hmem _)).2,
    ((load_texts _).2.1 (Nat.le_of_eq (nested_and 63).2.symm) _ (hmem _)).2⟩

end Node

end MarkupQuery
