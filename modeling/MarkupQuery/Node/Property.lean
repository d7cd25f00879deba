import MarkupQuery.Node.Basic

/-!
# Reading the fields of a node by name

A field holds a string, an attribute mapping, or a list of children. `"name"`, `"type"` (also
called `"kind"`), `"value"`, `"attributes"` and `"children"` are fields; a node lacks those that its
shape does not have, and every node has a type and children.

## Main definitions

- `Property`: what a field holds.
- `Node.property?`: the field of a node that has the given name.
-/

namespace MarkupQuery

/-- What a field of a node holds. -/
inductive Property where
  /-- A name, a kind or a value. -/
  | string (content : String)
  /-- The attributes of the node. -/
  | attributes (content : Attributes)
  /-- The children of the node. -/
  | children (content : List Node)
deriving DecidableEq

namespace Property

/-- The content, if it is a string. -/
def asString? : Property → Option String
  | .string content => some content
  | _ => none

/-- The content, if it is an attribute mapping. -/
def asAttributes? : Property → Option Attributes
  | .attributes content => some content
  | _ => none

/-- The content, if it is a list of children. -/
def asChildren? : Property → Option (List Node)
  | .children content => some content
  | _ => none

/-- Whether the content is the given string. -/
def isString (property : Property) (content : String) : Bool :=
  property.asString? = some content

end Property

/-- The field of a node that is called `name`. -/
def Node.property? (node : Node) (name : String) : Option Property :=
  match name with
  | "name" => node.name?.map .string
  | "type" | "kind" => some (.string node.kindName)
  | "value" => node.value?.map .string
  | "attributes" => node.attributes?.map .attributes
  | "children" => some (.children node.children)
  | _ => none

end MarkupQuery
