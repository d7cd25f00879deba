import MarkupQuery.Proofs.Interchange.TextRoundTrip

/-!
# Texts tell trees apart

Two trees have the same text exactly if they have the same value, whatever their height and whatever
strings they hold. They are the same tree then, provided that none of their opaque nodes has the kind of
an element or of a text. This does not rest on reading texts within the limit of open brackets, which
would not reach trees of more than 63 levels.

## Main results

- `Node.toValue_eq_iff`: the value of a tree determines its description.
- `Node.toText_eq_iff`: texts, values and proper trees are told apart alike.
-/

namespace MarkupQuery.Node

/-- The value of a tree determines the description from which it is made, and conversely. -/
theorem toValue_eq_iff {a b : Node} : a.toValue = b.toValue ↔ a.toJson = b.toJson := by
  constructor
  · intro h
    have hjson := congrArg Json.Value.json h
    rw [toValue_json, toValue_json] at hjson
    -- The value gives all fields, and they determine the description in their other order.
    rw [toJson_eq_describe, toJson_eq_describe]
    exact describe_congr (fun field => Field.ascending_perm.mem_iff.2 field.mem_all) hjson
  · intro h
    rw [toValue, toValue, h]

/-- Trees with the same value are the same when they are rebuilt from their fields. -/
theorem rebuild_eq_of_toValue_eq {a b : Node} (h : a.toValue = b.toValue) :
    a.rebuild = b.rebuild := by
  have hvalue := ofValue_toValue a
  rw [h, ofValue_toValue] at hvalue
  exact (Except.ok.inj hvalue).symm

/-- Two trees have the same text exactly if they have the same value, and if they are proper, exactly if
they are the same. -/
theorem toText_eq_iff (a b : Node) :
    (a.toText = b.toText ↔ a.toValue = b.toValue) ∧
      (a.Proper → b.Proper → (a.toText = b.toText ↔ a = b)) := by
  have hvalue : a.toText = b.toText ↔ a.toValue = b.toValue := by
    rw [toValue_eq_iff]
    exact ⟨Json.compact_injective (numberless_toJson a) (numberless_toJson b), congrArg _⟩
  refine ⟨hvalue, fun ha hb => ⟨fun h => ?_, congrArg _⟩⟩
  -- Proper trees are left as they are by rebuilding.
  have hrebuild := rebuild_eq_of_toValue_eq (hvalue.1 h)
  rwa [rebuild_eq_self ha, rebuild_eq_self hb] at hrebuild

/-- Trees of 100 and of 101 levels have different texts, although neither can be loaded from its own. -/
theorem toText_nested_ne :
    (nested 99).Proper ∧ (nested 100).Proper ∧ (nested 99).toText ≠ (nested 100).toText := by
  have hproper : ∀ depth, (nested depth).Proper := fun depth => (nested_and depth).1.proper
  refine ⟨hproper 99, hproper 100, fun h => ?_⟩
  have heq := ((toText_eq_iff _ _).2 (hproper 99) (hproper 100)).1 h
  have hheight := congrArg height heq
  rw [(nested_and 99).2, (nested_and 100).2] at hheight
  cases hheight

end MarkupQuery.Node
