import MarkupQuery.Interchange.Field

/-!
# Nodes from JSON

JSON describes a node if it is an object whose members are fields, or an array that gives the fields
in their fixed order and may stop early. Members with other keys do not matter, and neither do fields
that the node turns out not to have; but every field has to be of its form. The first offence in the
order of the JSON is reported.

## Main definitions

- `Node.ofJson`: the node that JSON describes.
- `Node.ofValue`: the same for a value, whose members are visited in ascending order of their keys.
-/

namespace MarkupQuery

/-- Set attributes given as members in turn. Each has to be a string. -/
def Attributes.ofMembers (soFar : Attributes) :
    List (String × Json) → Except Offence Attributes
  | [] => .ok soFar
  | (name, .string value) :: rest => ofMembers (soFar.set name value) rest
  | (_, json) :: _ => .error (.invalidType json.found .string)

namespace Node

mutual

/-- The node that JSON describes. -/
def ofJson : Json → Except Offence Node
  | .object members => do
    let draft ← draftOfMembers .empty members
    .ok draft.node
  | .array items => do
    let draft ← draftOfItems items.length Field.all .empty items
    .ok draft.node
  | json => .error (.invalidType json.found .node)

/-- The draft that results from members in turn. No field may be given twice. -/
def draftOfMembers (draft : Draft) : List (String × Json) → Except Offence Draft
  | [] => .ok draft
  | (key, json) :: rest =>
    match Field.ofKey? key with
    | none => draftOfMembers draft rest
    | some field =>
      if draft.has field then .error (.duplicateField field.key)
      else do
        let content ← contentOfJson field json
        draftOfMembers (draft.set field content) rest

/-- The draft that results from items that give the fields in turn. There may be fewer items than
fields but not more; `length` is that of the whole array. -/
def draftOfItems (length : Nat) (fields : List Field) (draft : Draft) :
    List Json → Except Offence Draft
  | [] => .ok draft
  | json :: rest =>
    match fields with
    | [] => .error (.invalidLength length)
    | field :: fields => do
      let content ← contentOfJson field json
      draftOfItems length fields (draft.set field content) rest

/-- What JSON gives for a field. -/
def contentOfJson : (field : Field) → Json → Except Offence field.Content
  | .name, .string content | .kind, .string content | .value, .string content => .ok content
  | .attributes, .object members => Attributes.ofMembers .empty members
  | .children, .array items => ofJsonAll items
  | field, json => .error (.invalidType json.found field.wanted)

/-- The nodes that items describe. -/
def ofJsonAll : List Json → Except Offence (List Node)
  | [] => .ok []
  | json :: rest => do
    let node ← ofJson json
    let nodes ← ofJsonAll rest
    .ok (node :: nodes)

end

/-- The node that a value describes. -/
def ofValue (value : Json.Value) : Except Offence Node :=
  ofJson value.json

end Node

end MarkupQuery
