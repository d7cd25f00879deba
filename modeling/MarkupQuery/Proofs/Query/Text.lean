import MarkupQuery.Proofs.Node.Paths
import MarkupQuery.Proofs.Query.Sweep

/-!
# The text below a context

The text of a context is put together from the values of the text nodes of its trees, one after the
other, in document order. What an opaque node has for a value does not count, but the text nodes beneath
it do. The same text is described by a recursion that does not go through the trees itself: a text node
gives its value, and any other node gives the text of its children.

## Main definitions

- `Node.textPaths`: the paths to the text nodes of a tree, and `Node.valueAt`, the value found at a path.
- `Query.TextRecursion`: that a function on queries satisfies the recursion.

## Main results

- `Query.text_eq_join`: the text of a context is made of the values of its text nodes.
- `Query.text_append`, `Query.text_ofNode_text`, `Query.text_ofNode`: the text of two contexts in a row,
  of a text node, and of any other node.
- `Query.text_eq_join_values`: the text in terms of paths, and by the recursion.
-/

namespace MarkupQuery

namespace Node

/-- The paths to the text nodes of a tree. -/
def textPaths (root : Node) : List (List Nat) :=
  root.pathsWhere isText

/-- The value of the node that a path leads to; nothing if there is none. -/
def valueAt (root : Node) (path : List Nat) : String :=
  ((root.at? path).bind value?).getD ""

/-- The values of those of the nodes that are text nodes. -/
def textValues (nodes : List Node) : List String :=
  (nodes.filter isText).map fun node => node.value?.getD ""

/-- A node is a text node just when it was made as one. -/
theorem isText_iff {node : Node} : node.isText = true ↔ ∃ value, node = .text value := by
  cases node <;> simp [isText, kind]

/-- The values at the paths to the text nodes of a tree are those of its text nodes in document order. -/
theorem map_valueAt_textPaths (root : Node) :
    root.textPaths.map root.valueAt = textValues root.preorder := by
  have hnodes : root.textPaths.map root.at? = (root.preorder.filter isText).map some :=
    root.map_at?_pathsWhere isText
  calc
    root.textPaths.map root.valueAt
      = (root.textPaths.map root.at?).map fun node? => (node?.bind value?).getD "" := by
        rw [List.map_map]
        rfl
    _ = ((root.preorder.filter isText).map some).map fun node? => (node?.bind value?).getD "" := by
        rw [hnodes]
    _ = textValues root.preorder := by
        rw [List.map_map]
        rfl

/-- Appending text node after text node appends their values. -/
theorem foldl_appendText (nodes : List Node) (text : String) :
    nodes.foldl appendText text = text ++ String.join (textValues nodes) := by
  induction nodes generalizing text with
  | nil => simp [textValues]
  | cons node rest ih =>
    rw [List.foldl_cons, ih]
    -- Only a text node appends anything, and only a text node passes the filter.
    cases node with
    | element name attributes children => rfl
    | text value =>
      show text ++ value ++ _ = text ++ String.join (value :: textValues rest)
      rw [String.join_cons, String.append_assoc]
    | other kind name value attributes children => rfl

end Node

namespace Query

/-- The text of a context is made of the values of the text nodes of its trees in document order. -/
theorem text_eq_join (query : Query) :
    query.text = String.join (Node.textValues (Node.preorderAll query.nodes)) := by
  rw [text, foldl_sweep_run, Node.foldl_appendText, String.empty_append]

/-- The text of two contexts, one after the other, is that of the first and then that of the second. -/
theorem text_append (as bs : List Node) :
    (Query.mk (as ++ bs)).text = (Query.mk as).text ++ (Query.mk bs).text := by
  simp only [text_eq_join, Node.textValues, Node.preorderAll_append, List.filter_append,
    List.map_append, String.join_append]

/-- The text of a text node is its value. -/
theorem text_ofNode_text (value : String) : (ofNode (.text value)).text = value := by
  rw [text_eq_join]
  show String.join [value] = value
  simp

/-- The text of any other node is that of its children, whatever value it may have itself. -/
theorem text_ofNode {node : Node} (h : node.isText = false) :
    (ofNode node).text = (Query.mk node.children).text := by
  rw [text_eq_join, text_eq_join, ofNode, Node.preorderAll, Node.preorder_eq, Node.preorderAll,
    List.append_nil, Node.textValues, List.filter_cons_of_neg (by simp [h])]
  rfl

/-- If there is no text node in a context, its text is that of its children. -/
theorem text_children {query : Query} (h : ∀ node ∈ query.nodes, node.isText = false) :
    query.text = query.children.text := by
  obtain ⟨nodes⟩ := query
  rw [children]
  induction nodes with
  | nil => rfl
  | cons node rest ih =>
    obtain ⟨hnode, hrest⟩ := List.forall_mem_cons.1 h
    rw [List.flatMap_cons, text_append, ← ih hrest, ← text_ofNode hnode]
    exact text_append [node] rest

/-! ### The recursion -/

/-- What a node contributes to a text if its children contribute what a function makes of them. -/
def contribution (f : Query → String) : Node → String
  | .text value => value
  | node => f (ofNode node).children

/-- A function puts texts together by recursion: a text node gives its value, and any other node gives
what the function makes of its children. -/
def TextRecursion (f : Query → String) : Prop :=
  ∀ query : Query, f query = String.join (query.nodes.map (contribution f))

/-- The context of one node has that node's children below it. -/
theorem children_ofNode (node : Node) : (ofNode node).children = ⟨node.children⟩ := by
  rw [children, ofNode, List.flatMap_singleton]

/-- Each node contributes its own text. -/
theorem contribution_text (node : Node) : contribution text node = (ofNode node).text := by
  cases node with
  | element name attributes children =>
    exact (congrArg text (children_ofNode _)).trans (text_ofNode rfl).symm
  | text value => exact (text_ofNode_text value).symm
  | other kind name value attributes children =>
    exact (congrArg text (children_ofNode _)).trans (text_ofNode rfl).symm

/-- Texts satisfy the recursion. -/
theorem textRecursion_text : TextRecursion text := by
  rintro ⟨nodes⟩
  induction nodes with
  | nil => rfl
  | cons node rest ih =>
    rw [List.map_cons, String.join_cons, ← ih, contribution_text]
    exact text_append [node] rest

/-- Whatever satisfies the recursion makes the same of every node. -/
theorem TextRecursion.contribution_eq {f g : Query → String} (hf : TextRecursion f)
    (hg : TextRecursion g) (node : Node) : contribution f node = contribution g node := by
  induction node using Node.induct with
  | node node ih =>
    have hchildren : f (ofNode node).children = g (ofNode node).children := by
      rw [hf, hg, children_ofNode]
      exact congrArg String.join (List.map_congr_left ih)
    cases node with
    | element name attributes children => exact hchildren
    | text value => rfl
    | other kind name value attributes children => exact hchildren

/-- Texts are all that satisfies the recursion. -/
theorem textRecursion_iff {f : Query → String} : TextRecursion f ↔ f = text := by
  constructor
  · intro hf
    funext query
    rw [hf, textRecursion_text]
    exact congrArg String.join
      (List.map_congr_left fun node _ => hf.contribution_eq textRecursion_text node)
  · rintro rfl
    exact textRecursion_text

/-- The paths to the text nodes of a tree are listed in strictly ascending lexicographic order, and they
are all that lead to a text node. The text of a context is put together, root by root, from the values
found at these paths. An opaque node adds nothing of its own to the text of its children. The same text is
given by the recursion, which nothing else satisfies; and where no root is a text node, it is the text of
the children. -/
theorem text_eq_join_values (query : Query) :
    (∀ root : Node, root.textPaths.Pairwise (· < ·) ∧
        ∀ path, path ∈ root.textPaths ↔ ∃ value, root.at? path = some (.text value)) ∧
      query.text =
        String.join (query.nodes.flatMap fun root => root.textPaths.map root.valueAt) ∧
      (∀ kind name value attributes children,
        (ofNode (.other kind name value attributes children)).text = (Query.mk children).text) ∧
      (∀ f : Query → String, TextRecursion f ↔ f = text) ∧
      ((∀ node ∈ query.nodes, node.isText = false) → query.text = query.children.text) := by
  refine ⟨fun root => ⟨root.pairwise_lt_pathsWhere Node.isText, fun path => ?_⟩, ?_, ?_,
    fun f => textRecursion_iff, text_children⟩
  · rw [Node.textPaths, Node.mem_pathsWhere_iff]
    constructor
    · rintro ⟨node, hnode, htext⟩
      obtain ⟨value, rfl⟩ := Node.isText_iff.1 htext
      exact ⟨value, hnode⟩
    · rintro ⟨value, hvalue⟩
      exact ⟨.text value, hvalue, rfl⟩
  · simp only [Node.map_valueAt_textPaths, Node.textValues]
    rw [text_eq_join, Node.textValues, Node.preorderAll_eq_flatMap, List.filter_flatMap,
      List.map_flatMap]
  · intro kind name value attributes children
    exact text_ofNode rfl

end Query

end MarkupQuery
