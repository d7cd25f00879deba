import MarkupQuery.Node.Property

/-!
# Queries

A query is an ordered list of nodes, its context, about which questions are asked. Nothing here
fails: an index out of range, an unknown name or an empty context give an empty query or nothing.

## Main definitions

- `Query`: the context. A node may occur in it more than once.
- `Query.get?`, `Query.pick`, `Query.first`, `Query.last`: single nodes of the context.
- `Query.children`: one level down.
- `Query.attributes?`, `Query.attribute?`, `Query.property?`: reading the first node.
- `Query.map`: a list made from the nodes with their indices.
-/

namespace MarkupQuery

/-- An ordered list of nodes to ask about. Repetitions are kept. -/
structure Query where
  /-- The context, in order. -/
  nodes : List Node
deriving DecidableEq

namespace Query

/-- The query over nothing. -/
def empty : Query :=
  ⟨[]⟩

/-- The query over one node. -/
def ofNode (node : Node) : Query :=
  ⟨[node]⟩

/-- The query over a node that may be absent. -/
def ofOption (node? : Option Node) : Query :=
  ⟨node?.toList⟩

/-- The contexts of several queries, one after the other. -/
def concat (queries : List Query) : Query :=
  ⟨queries.flatMap nodes⟩

/-- The number of nodes in the context. -/
def size (query : Query) : Nat :=
  query.nodes.length

/-- Whether the context is empty. -/
def isEmpty (query : Query) : Bool :=
  query.nodes.isEmpty

/-- The node at an index. A negative index is out of range. -/
def get? (query : Query) (index : Int) : Option Node :=
  if index < 0 then none else query.nodes[index.toNat]?

/-- The query over the node at an index, or over nothing if the index is out of range. -/
def pick (query : Query) (index : Int) : Query :=
  ofOption (query.get? index)

/-- The query over the first node of the context. -/
def first (query : Query) : Query :=
  query.pick 0

/-- The query over the last node of the context. -/
def last (query : Query) : Query :=
  query.pick (query.size - 1)

/-- The query over the children of all nodes of the context, in order. -/
def children (query : Query) : Query :=
  ⟨query.nodes.flatMap Node.children⟩

/-- The attributes of the first node, if there is one and it has a mapping. -/
def attributes? (query : Query) : Option Attributes :=
  query.nodes.head?.bind Node.attributes?

/-- The value of an attribute of the first node. -/
def attribute? (query : Query) (name : String) : Option String :=
  query.nodes.head?.bind (·.attribute? name)

/-- A field of the first node. -/
def property? (query : Query) (name : String) : Option Property :=
  query.nodes.head?.bind (·.property? name)

/-- The values of a function of each node, its index, and the whole context. -/
def map {α : Type} (query : Query) (f : Node → Nat → List Node → α) : List α :=
  query.nodes.mapIdx (fun index node => f node index query.nodes)

end Query

end MarkupQuery
