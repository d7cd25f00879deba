import MarkupQuery.Attributes

/-!
# Nodes of a parsed markup tree

A node is an element, a text unit, or an opaque node of any other kind that a parser reported: a
comment, a processing instruction, and so on. A node owns its children, and there is no way up
from a child to its parent.

## Main definitions

- `Node`: the tree, and `NodeKind`, its three shapes.
- `Node.ofParts`: a node from its five fields, whose shape is chosen by the name of its kind.
- `Node.withAttribute`, `Node.withChild`, `Node.withChildren`: building a tree step by step.
- `Node.kindName`, `Node.name?`, `Node.value?`, `Node.attributes?`, `Node.children`: its fields.

Two nodes are equal when they have the same shape and fields all the way down, and this can be
decided.
-/

namespace MarkupQuery

/-- A node of a parsed markup tree. -/
inductive Node where
  /-- An element: its tag name, its attributes, and its children in document order. -/
  | element (name : String) (attributes : Attributes) (children : List Node)
  /-- A unit of literal text. -/
  | text (value : String)
  /-- A node whose kind is not interpreted. What lies beneath it can still be reached. -/
  | other (kind name value : String) (attributes : Attributes) (children : List Node)

/-- The three shapes of a node. -/
inductive NodeKind where
  /-- An element. -/
  | element
  /-- A unit of text. -/
  | text
  /-- A node of any other kind. -/
  | other
deriving DecidableEq

namespace Node

instance : Inhabited Node := ⟨.text ""⟩

/-! ### Building -/

/-- The node with the given fields. The kinds `"element"` and `"text"` give those shapes, any other
kind gives an opaque node; fields that the shape does not have are dropped. -/
def ofParts (kind name value : String) (attributes : Attributes) (children : List Node) : Node :=
  if kind = "element" then .element name attributes children
  else if kind = "text" then .text value
  else .other kind name value attributes children

/-- An element with neither attributes nor children. -/
def ofTag (name : String) : Node :=
  .element name .empty []

/-- An empty node of the given kind. -/
def ofKind (kind : String) : Node :=
  ofParts kind "" "" .empty []

/-- Set an attribute. A text node has none and stays as it is. -/
def withAttribute (node : Node) (name value : String) : Node :=
  match node with
  | .element tag attributes children => .element tag (attributes.set name value) children
  | .text content => .text content
  | .other kind tag content attributes children =>
    .other kind tag content (attributes.set name value) children

/-- Append children in order. A text node has none and stays as it is. -/
def withChildren (node : Node) (added : List Node) : Node :=
  match node with
  | .element tag attributes children => .element tag attributes (children ++ added)
  | .text content => .text content
  | .other kind tag content attributes children =>
    .other kind tag content attributes (children ++ added)

/-- Append one child. A text node has none and stays as it is. -/
def withChild (node child : Node) : Node :=
  node.withChildren [child]

/-! ### Fields -/

/-- The shape of a node. -/
def kind : Node → NodeKind
  | .element .. => .element
  | .text .. => .text
  | .other .. => .other

/-- The name of a node's kind: `"element"`, `"text"`, or what the parser called it. -/
def kindName : Node → String
  | .element .. => "element"
  | .text .. => "text"
  | .other kind .. => kind

/-- The tag name. A text node has none. -/
def name? : Node → Option String
  | .element name .. => some name
  | .text .. => none
  | .other _ name .. => some name

/-- The literal value. An element has none. -/
def value? : Node → Option String
  | .element .. => none
  | .text value => some value
  | .other _ _ value .. => some value

/-- The attributes. A text node has no mapping. -/
def attributes? : Node → Option Attributes
  | .element _ attributes _ => some attributes
  | .text .. => none
  | .other _ _ _ attributes _ => some attributes

/-- The value of the attribute called `name`. -/
def attribute? (node : Node) (name : String) : Option String :=
  node.attributes?.bind (·.get? name)

/-- The children in document order. A text node has none. -/
def children : Node → List Node
  | .element _ _ children => children
  | .text .. => []
  | .other _ _ _ _ children => children

/-- Whether the node is an element. -/
def isElement (node : Node) : Bool :=
  node.kind = .element

/-- Whether the node is a text unit. -/
def isText (node : Node) : Bool :=
  node.kind = .text

/-- Whether the node has a child. -/
def hasChildren (node : Node) : Bool :=
  !node.children.isEmpty

/-- Whether the node has an attribute. -/
def hasAttributes (node : Node) : Bool :=
  node.attributes?.any (!·.isEmpty)

/-! ### Equality -/

mutual

/-- Whether two trees are equal. -/
def decEq : (a b : Node) → Decidable (a = b)
  | .element n₁ a₁ c₁, .element n₂ a₂ c₂ =>
    if h : n₁ = n₂ ∧ a₁ = a₂ then
      match decEqList c₁ c₂ with
      | .isTrue hc => .isTrue (by rw [h.1, h.2, hc])
      | .isFalse hc => .isFalse (fun heq => hc (Node.element.inj heq).2.2)
    else .isFalse (fun heq => h ⟨(Node.element.inj heq).1, (Node.element.inj heq).2.1⟩)
  | .text v₁, .text v₂ =>
    if h : v₁ = v₂ then .isTrue (congrArg _ h) else .isFalse (fun heq => h (Node.text.inj heq))
  | .other k₁ n₁ v₁ a₁ c₁, .other k₂ n₂ v₂ a₂ c₂ =>
    if h : k₁ = k₂ ∧ n₁ = n₂ ∧ v₁ = v₂ ∧ a₁ = a₂ then
      match decEqList c₁ c₂ with
      | .isTrue hc => .isTrue (by rw [h.1, h.2.1, h.2.2.1, h.2.2.2, hc])
      | .isFalse hc => .isFalse (fun heq => hc (Node.other.inj heq).2.2.2.2)
    else
      .isFalse (fun heq =>
        have hinj := Node.other.inj heq
        h ⟨hinj.1, hinj.2.1, hinj.2.2.1, hinj.2.2.2.1⟩)
  | .element .., .text .. | .element .., .other .. | .text .., .element ..
  | .text .., .other .. | .other .., .element .. | .other .., .text .. => .isFalse nofun

/-- Whether two lists of trees are equal. -/
def decEqList : (as bs : List Node) → Decidable (as = bs)
  | [], [] => .isTrue rfl
  | [], _ :: _ | _ :: _, [] => .isFalse nofun
  | a :: as, b :: bs =>
    match decEq a b with
    | .isFalse h => .isFalse (fun heq => h (List.cons.inj heq).1)
    | .isTrue h =>
      match decEqList as bs with
      | .isTrue hs => .isTrue (by rw [h, hs])
      | .isFalse hs => .isFalse (fun heq => hs (List.cons.inj heq).2)

end

instance : DecidableEq Node := decEq

end Node

end MarkupQuery
