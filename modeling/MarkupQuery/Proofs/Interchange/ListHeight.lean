import MarkupQuery.Proofs.Interchange.Lists
import MarkupQuery.Proofs.Json.Nesting

/-!
# How tall loaded trees are

Whatever a text looks like, a tree that is loaded from it is not too tall for a recursion over it. A tree
has at most half as many levels as there are brackets in one another in its description, and one of the
brackets that may be open is needed for a list of descriptions. So a tree that is loaded by itself has at
most 64 levels and one that is loaded in a list at most 63, and in both cases there are trees with so many.

## Main results

- `Node.two_mul_height_le_of_ofJson`: the height of the node that JSON describes, by the nesting.
- `Node.height_le_of_loadMany`: a tree that is loaded in a list has at most 63 levels.
- `Node.height_le_of_load_and_loadMany`: both bounds, and that they are reached.
-/

namespace MarkupQuery.Node

/-- A node has at most half as many levels as there are brackets in one another in the JSON that describes
it. The innermost bracket may be one without anything in it. -/
theorem two_mul_height_le_of_ofJson {json : Json} {node : Node} (h : ofJson json = .ok node) :
    2 * node.height ≤ json.nesting + 1 := by
  refine (ofJson_induct (P := fun json node => 2 * node.height ≤ json.nesting + 1)
    (C := fun json node => 2 * node.height ≤ json.nesting) (fun json draft hfound hdraft => ?_)
    (fun items item hmem node hnode => ?_) json).1 node h
  · have hpos : 0 < json.nesting := by
      cases json <;> simp [Json.found, Json.nesting] at hfound ⊢
    have hchildren : draft.Has fun nodes => ∀ node ∈ nodes, node.height ≤ (json.nesting - 1) / 2 := by
      intro nodes hnodes node hmem
      obtain ⟨part, hpart, hpartNodes⟩ := hdraft nodes hnodes
      have hlt := Json.nesting_lt_of_mem_parts hpart
      have hheight := hpartNodes node hmem
      omega
    have hnode := height_draft_node_le hchildren
    omega
  · have hlt : item.nesting < (Json.array items).nesting := Json.nesting_lt_of_mem_parts hmem
    omega

/-- A tree that is loaded in a list has at most 63 levels. -/
theorem height_le_of_loadMany {text : String} {nodes : List Node}
    (h : (loadMany text).value = .ok nodes) : ∀ node ∈ nodes, node.height ≤ 63 := by
  obtain ⟨outcome, hends⟩ := exists_loadsMany text
  rw [loadMany_of_loadsMany hends] at h
  cases hends with
  | notJson hread => cases h
  | notAnArray hread hjson => cases h
  | refused hread hbefore hitem => cases h
  | @loaded items _ hread hitems =>
    cases h
    refine forall_mem_of_ofJsonAll (fun item hmem node hnode => ?_) (ofJsonAll_of_map_eq hitems)
    obtain ⟨written, hwritten, rfl⟩ := List.mem_map.1 hmem
    obtain ⟨rest, hrun, -⟩ := Reader.exists_of_readWhole hread
    -- The bracket of the list is one of those that may be open.
    have hlimit : (Json.array items).nesting ≤ 127 :=
      (Json.yields_reader_nesting Json.nestingLimit).holds hrun
    have hlt : written.nesting < (Json.array items).nesting := Json.nesting_lt_of_mem_parts hwritten
    have hle := Json.nesting_normalize_le written
    have hheight := two_mul_height_le_of_ofJson hnode
    omega

/-- A chain of 63 levels is loaded in a list. -/
theorem loadMany_listText_chain : (loadMany (listText [chain 62])).value = .ok [chain 62] := by
  have hbuilt : ∀ node ∈ [chain 62], node.Built := by
    simpa using Built.load (load_brief (by decide : 62 < 64))
  rw [loadMany_listText_eq_ok_iff hbuilt]
  simp [height_chain]

/-- Whatever a text looks like, a tree that is loaded from it has at most 64 levels, and a tree that is
loaded from it in a list at most 63. There are texts from which trees of so many levels are loaded. -/
theorem height_le_of_load_and_loadMany :
    (∀ text node, (load text).value = .ok node → node.height ≤ 64) ∧
      (∀ text nodes, (loadMany text).value = .ok nodes → ∀ node ∈ nodes, node.height ≤ 63) ∧
      (∃ text node, (load text).value = .ok node ∧ node.height = 64) ∧
      ∃ text nodes, (loadMany text).value = .ok nodes ∧ ∃ node ∈ nodes, node.height = 63 :=
  ⟨fun _ _ => height_le_of_load, fun _ _ => height_le_of_loadMany,
    ⟨_, _, load_brief (by decide : 63 < 64), height_chain 63⟩,
    ⟨_, _, loadMany_listText_chain, _, List.mem_singleton_self _, height_chain 62⟩⟩

/-- The chain of 64 levels that is loaded by itself, and that of 63 levels that is loaded in a list, are
within the bounds. -/
theorem height_le_of_load_chain :
    ((load (brief 63).compact).value = .ok (chain 63) ∧ (chain 63).height ≤ 64) ∧
      (loadMany (listText [chain 62])).value = .ok [chain 62] ∧ (chain 62).height ≤ 63 :=
  ⟨⟨load_brief (by decide), height_le_of_load_and_loadMany.1 _ _ (load_brief (by decide))⟩,
    loadMany_listText_chain,
    height_le_of_load_and_loadMany.2.1 _ _ loadMany_listText_chain _ (List.mem_singleton_self _)⟩

end MarkupQuery.Node
