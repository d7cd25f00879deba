import MarkupQuery.Json.Write
import MarkupQuery.Node.Basic

/-!
# Nodes as JSON

A node is described by an object with all five fields, those that it does not have being empty. As a
text, the fields stand in the order name, type, value, attributes, children; as a value, their keys
ascend.

## Main definitions

- `Node.toJson`: the description of a node, with its fields in the order of the text.
- `Node.toText`: its text. `Node.toValue`: its value.
-/

namespace MarkupQuery

/-- The attributes as the members of an object. -/
def Attributes.toJson (attributes : Attributes) : Json :=
  .object (attributes.entries.map (fun (name, value) => (name, .string value)))

/-- An object with the five fields of a node. -/
def Json.ofFields (name kind value : String) (attributes : Attributes) (children : List Json) :
    Json :=
  .object
    [("name", .string name), ("type", .string kind), ("value", .string value),
      ("attributes", attributes.toJson), ("children", .array children)]

namespace Node

mutual

/-- The description of a node. -/
def toJson : Node → Json
  | .element name attributes children =>
    .ofFields name "element" "" attributes (toJsonAll children)
  | .text value => .ofFields "" "text" value .empty []
  | .other kind name value attributes children =>
    .ofFields name kind value attributes (toJsonAll children)

/-- The descriptions of nodes. -/
def toJsonAll : List Node → List Json
  | [] => []
  | node :: rest => node.toJson :: toJsonAll rest

end

/-- The description of a node as a text. -/
def toText (node : Node) : String :=
  node.toJson.compact

/-- The description of a node as a value. -/
def toValue (node : Node) : Json.Value :=
  node.toJson.toValue

/-- The descriptions of nodes are those of each of them. -/
theorem toJsonAll_eq_map (nodes : List Node) : toJsonAll nodes = nodes.map toJson := by
  induction nodes with
  | nil => rfl
  | cons node rest ih => simp [toJsonAll, ih]

end Node

end MarkupQuery
