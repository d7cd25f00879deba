import MarkupQuery.Proofs.Interchange.Agreement
import MarkupQuery.Proofs.Interchange.Built
import MarkupQuery.Proofs.Interchange.Normalize

/-!
# The two routes to a node

A node is loaded from a text directly or by way of its value. In which nodes they load, the two routes
differ in one thing only: a value is normalized, so that of repeated members the last one counts, while
the direct route meets all of them.

## Main results

- `Node.load_agrees_loadValue`: a node that is loaded from a text is loaded from its value, and
  conversely if nothing is repeated.
-/

namespace MarkupQuery.Node

/-- Of a text that is JSON, a node that is loaded from the text is also loaded from its value. If no
field of a node and no attribute is written twice, the same nodes are loaded either way. -/
theorem load_agrees_loadValue {text : String} {json : Json}
    (h : Json.read text.toList = .ok json) :
    Json.Value.ofText text = .ok json.toValue ∧
      (∀ node, (load text).value = .ok node → (loadValue json.toValue).value = .ok node) ∧
      (json.Unrepeated → ∀ node,
        (load text).value = .ok node ↔ (loadValue json.toValue).value = .ok node) := by
  have hnormalize : ∀ node,
      (load text).value = .ok node → (loadValue json.toValue).value = .ok node := by
    intro node hload
    rw [load_eq_ok_iff, read_eq_ok_iff_ofJson h] at hload
    rw [loadValue_eq_ok_iff]
    exact (ofJson_normalize_and json).1 node hload
  refine ⟨by rw [Json.Value.ofText, h], hnormalize, fun hunrepeated node => ⟨hnormalize node, ?_⟩⟩
  intro hload
  rw [loadValue_eq_ok_iff] at hload
  rw [load_eq_ok_iff, read_eq_ok_iff_ofJson h]
  exact (ofJson_of_normalize_and json).1 hunrepeated node hload

/-- A text that describes a node. A key that is no field is written twice in it. -/
def annotatedText : String :=
  " \x7b\"value\": \"\\u0076\", \"note\": [null], \"type\": \"text\", \"note\": true\x7d "

/-- The JSON of the text. -/
def annotated : Json :=
  .object [("value", .string "v"), ("note", .array [.null]), ("type", .string "text"),
    ("note", .bool true)]

/-- No field is written twice. -/
theorem unrepeated_annotated : annotated.Unrepeated := by
  have hself : ∀ inner, annotated.NodeWithin inner → inner = annotated := by
    intro inner h
    induction h with
    | self => rfl
    | child _ gives _ ih =>
      subst ih
      simp [annotated, Json.Gives, Field.key] at gives
  constructor
  · intro members h field
    obtain rfl := Json.object.inj (hself _ h)
    cases field <;> decide
  · intro node members h gives
    obtain rfl := hself _ h
    simp [annotated, Json.Gives, Field.key] at gives

/-- The node is loaded from the text because it is loaded from the value. -/
theorem load_annotatedText : (load annotatedText).value = .ok (.text "v") := by
  have hread : Json.read annotatedText.toList = .ok annotated := by with_unfolding_all rfl
  exact ((load_agrees_loadValue hread).2.2 unrepeated_annotated _).2 rfl

end MarkupQuery.Node
