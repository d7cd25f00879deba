import MarkupQuery.Proofs.Interchange.Decode
import MarkupQuery.Proofs.Json.Normalize

/-!
# Normal descriptions

A description goes on describing its node when it is normalized, at every depth. The converse needs
that nothing is lost: no field of a node and no attribute may be written twice, for normalizing keeps
only the last of them, and the ones before may have been of any form.

## Main definitions

- `Json.Gives`: what JSON in the place of a node gives for a field.
- `Json.NodeWithin`: what stands in the place of a node.
- `Json.Unrepeated`: no field of a node and no attribute is written twice.

## Main results

- `Node.ofJson_normalize_and`: normalizing keeps the described node.
- `Node.ofJson_of_normalize_and`: no node is described only after normalizing, if nothing is repeated.
-/

namespace MarkupQuery

/-! ### Places of nodes -/

/-- The JSON, in the place of a node, gives the content for the field: an object by a member with the
key of the field, an array by the item whose turn it is. -/
def Json.Gives (json : Json) (field : Field) (content : Json) : Prop :=
  match json with
  | .object members => (field.key, content) ∈ members
  | .array items => (field, content) ∈ Field.all.zip items
  | _ => False

/-- What stands in the place of a node, if the JSON itself does: so do the items that any of them
gives as its children. -/
inductive Json.NodeWithin (json : Json) : Json → Prop where
  /-- The JSON itself. -/
  | self : NodeWithin json json
  /-- A child of what stands in the place of a node. -/
  | child {node item : Json} {items : List Json} (within : NodeWithin json node)
      (gives : node.Gives .children (.array items)) (mem : item ∈ items) : NodeWithin json item

/-- In the place of a node no object writes a field twice, and no object of attributes writes a name
twice. -/
structure Json.Unrepeated (json : Json) : Prop where
  /-- A field is written at most once. -/
  field_once : ∀ {members}, json.NodeWithin (.object members) →
    ∀ field : Field, Entries.Once members field.key
  /-- An attribute is written at most once. -/
  attribute_once : ∀ {node members}, json.NodeWithin node →
    node.Gives .attributes (.object members) → ∀ name, Entries.Once members name

/-- What is in the place of a node within a child is so within its parent. -/
theorem Json.NodeWithin.of_child {json item inner : Json} {items : List Json}
    (gives : json.Gives .children (.array items)) (mem : item ∈ items)
    (h : item.NodeWithin inner) : json.NodeWithin inner := by
  induction h with
  | self => exact .child .self gives mem
  | child _ gives mem ih => exact .child ih gives mem

/-- If nothing is repeated in JSON, nothing is repeated in a child that it gives. -/
theorem Json.Unrepeated.child {json item : Json} {items : List Json} (h : json.Unrepeated)
    (gives : json.Gives .children (.array items)) (mem : item ∈ items) : item.Unrepeated where
  field_once within := h.field_once (within.of_child gives mem)
  attribute_once within := h.attribute_once (within.of_child gives mem)

/-- Nothing is repeated in what is given for a field. -/
structure Field.Unrepeated (field : Field) (json : Json) : Prop where
  /-- An attribute is written at most once. -/
  attribute_once : field = .attributes → ∀ members, json = .object members →
    ∀ name, Entries.Once members name
  /-- Nothing is repeated in any of the children. -/
  child : field = .children → ∀ items, json = .array items → ∀ item ∈ items, item.Unrepeated

/-- If nothing is repeated in JSON, nothing is repeated in what it gives for a field. -/
theorem Json.Unrepeated.field {json content : Json} {field : Field} (h : json.Unrepeated)
    (gives : json.Gives field content) : field.Unrepeated content where
  attribute_once := by
    rintro rfl members rfl
    exact h.attribute_once .self gives
  child := by
    rintro rfl items rfl item hmem
    exact h.child gives hmem

/-! ### Normalizing -/

/-- What is found in the first members is found in the second ones, and describes no less there. -/
theorem Draft.Gains.imp {draft result : Draft} {members members' : List (String × Json)}
    {field : Field} (h : draft.Gains members result field)
    (honce : Entries.Once members' field.key)
    (hnone : members.lookup field.key = none → members'.lookup field.key = none)
    (hsome : ∀ json, members.lookup field.key = some json →
      ∃ json', members'.lookup field.key = some json' ∧
        ∀ content, Node.contentOfJson field json = .ok content →
          Node.contentOfJson field json' = .ok content) :
    draft.Gains members' result field := by
  refine ⟨honce, ?_⟩
  obtain ⟨-, h⟩ := h
  cases hlookup : members.lookup field.key with
  | none =>
    rw [hnone hlookup]
    rwa [hlookup] at h
  | some json =>
    obtain ⟨json', hlookup', hcontent⟩ := hsome json hlookup
    rw [hlookup] at h
    rw [hlookup']
    obtain ⟨hbefore, content, hjson, hresult⟩ := h
    exact ⟨hbefore, content, hcontent content hjson, hresult⟩

/-- Members that are all strings are normal except for their order and repetitions. -/
theorem Json.normalMembers_stringMembers (entries : Entries String) :
    normalMembers (stringMembers entries) = stringMembers (Entries.ofList entries) := by
  have hnormal : normalizeMembers (stringMembers entries) = stringMembers entries := by
    rw [normalizeMembers_eq_map, stringMembers, List.map_map]
    rfl
  rw [normalMembers, hnormal]
  exact Entries.ofList_map _ entries

/-- Normalizing attributes leaves the same attributes. -/
theorem Attributes.ofMembers_normalMembers {members : List (String × Json)}
    {attributes : Attributes} (h : Attributes.empty.ofMembers members = .ok attributes) :
    Attributes.empty.ofMembers (Json.normalMembers members) = .ok attributes := by
  obtain ⟨entries, rfl, rfl⟩ := ofMembers_eq_ok_iff.1 h
  refine ofMembers_eq_ok_iff.2 ⟨_, Json.normalMembers_stringMembers entries, ext ?_⟩
  exact Entries.ofList_eq_self (Entries.ascending_ofList entries)

/-- No attributes come about only by normalizing, if no name is written twice. -/
theorem Attributes.ofMembers_of_normalMembers {members : List (String × Json)}
    {attributes : Attributes} (honce : ∀ name, Entries.Once members name)
    (h : Attributes.empty.ofMembers (Json.normalMembers members) = .ok attributes) :
    Attributes.empty.ofMembers members = .ok attributes := by
  obtain ⟨normal, hnormal, -⟩ := ofMembers_eq_ok_iff.1 h
  -- Every member is among the normal ones, so it is a string there, and hence it was one before.
  have hstring : ∀ member ∈ members, ∃ value, member.2 = .string value := by
    rintro ⟨name, content⟩ hmem
    have hmem' := Json.mem_normalMembers_of_once (honce name) hmem
    rw [hnormal, Json.stringMembers, List.mem_map] at hmem'
    obtain ⟨⟨_, value⟩, -, heq⟩ := hmem'
    exact ⟨value, Json.eq_string_of_normalize (congrArg Prod.snd heq).symm⟩
  obtain ⟨entries, rfl⟩ := Json.exists_eq_stringMembers hstring
  have hok := ofMembers_eq_ok_iff.2 ⟨entries, rfl, rfl⟩
  rw [hok, ← ofMembers_normalMembers hok, h]

namespace Node

/-- Normalizing keeps the described node, and what is given for a field. -/
theorem ofJson_normalize_and (json : Json) :
    (∀ node, ofJson json = .ok node → ofJson json.normalize = .ok node) ∧
      ∀ field content, contentOfJson field json = .ok content →
        contentOfJson field json.normalize = .ok content := by
  induction json using Json.induct with
  | json json ih =>
    cases json with
    | null | bool | number | string =>
      -- Normalizing leaves these as they are.
      exact ⟨fun _ h => h, fun _ _ h => h⟩
    | array items =>
      rw [Json.normalize_array]
      constructor
      · intro node h
        rw [← List.map_id items] at h
        refine ofJson_array_map (fun field item hmem => ?_) h
        exact (ih item (List.of_mem_zip hmem).2).2 field
      · intro field content h
        rw [← List.map_id items] at h
        exact contentOfJson_array_map (fun _ item hmem => (ih item hmem).1) h
    | object members =>
      rw [Json.normalize_object]
      constructor
      · intro node h
        refine ofJson_object_imp (fun field result hgains => ?_) h
        -- The field is written once, so the look-up finds the same member, normalized.
        have hlookup := Json.lookup_normalMembers hgains.1
        refine hgains.imp ((Json.ascending_normalMembers members).once _) ?_ ?_
        · intro hnone
          rw [hlookup, hnone, Option.map_none]
        · intro written hwritten
          have hpart := List.mem_map_of_mem (f := Prod.snd) (Entries.mem_of_lookup hwritten)
          refine ⟨written.normalize, ?_, (ih written hpart).2 field⟩
          rw [hlookup, hwritten, Option.map_some]
      · intro field content h
        exact contentOfJson_object_imp (fun _ _ => Attributes.ofMembers_normalMembers) h

/-- If nothing is repeated, no node is described only after normalizing, and nothing is given for a
field only then. -/
theorem ofJson_of_normalize_and (json : Json) :
    (json.Unrepeated → ∀ node, ofJson json.normalize = .ok node → ofJson json = .ok node) ∧
      ∀ field : Field, field.Unrepeated json →
        ∀ content, contentOfJson field json.normalize = .ok content →
          contentOfJson field json = .ok content := by
  induction json using Json.induct with
  | json json ih =>
    cases json with
    | null | bool | number | string =>
      -- Normalizing leaves these as they are.
      exact ⟨fun _ _ h => h, fun _ _ _ h => h⟩
    | array items =>
      rw [Json.normalize_array]
      constructor
      · intro hunrepeated node h
        rw [← List.map_id items]
        refine ofJson_array_map (fun field item hmem => ?_) h
        exact (ih item (List.of_mem_zip hmem).2).2 field (hunrepeated.field hmem)
      · intro field hunrepeated content h
        rw [← List.map_id items]
        refine contentOfJson_array_map (fun hfield item hmem => ?_) h
        exact (ih item hmem).1 (hunrepeated.child hfield items rfl item hmem)
    | object members =>
      rw [Json.normalize_object]
      constructor
      · intro hunrepeated node h
        refine ofJson_object_imp (fun field result hgains => ?_) h
        -- What is found after normalizing was written, and nothing else is written for the field.
        have honce := hunrepeated.field_once .self field
        have hlookup := Json.lookup_normalMembers honce
        refine hgains.imp honce ?_ ?_
        · intro hnone
          rwa [hlookup, Option.map_eq_none_iff] at hnone
        · intro normal hnormal
          rw [hlookup, Option.map_eq_some_iff] at hnormal
          obtain ⟨written, hwritten, rfl⟩ := hnormal
          have hmem := Entries.mem_of_lookup hwritten
          have hpart := List.mem_map_of_mem (f := Prod.snd) hmem
          exact ⟨written, hwritten, (ih written hpart).2 field (hunrepeated.field hmem)⟩
      · intro field hunrepeated content h
        refine contentOfJson_object_imp (fun hfield attributes => ?_) h
        exact Attributes.ofMembers_of_normalMembers
          (hunrepeated.attribute_once hfield members rfl)

end Node

end MarkupQuery
