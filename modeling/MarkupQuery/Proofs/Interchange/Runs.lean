import MarkupQuery.Proofs.Interchange.Built

/-!
# Runs of builders and loaders

In each step of a run a builder or a loader is used, on any strings, attributes and JSON, and on trees
that were made in steps before. What it makes is added to those trees. A step that fails adds nothing,
and so does one that is to use a tree that has not been made.

Nothing that a run makes has an opaque node with the kind of an element or of a text anywhere in it, so
the kind of each of its nodes tells the shape.

## Main definitions

- `Node.Operation`: a use of a builder or a loader, and `Node.Operation.results`, what it makes.
- `Node.run`: all that is made by operations one after the other.
- `Node.Regular`: the name of the kind tells the shape of a node, and its attributes ascend.

## Main results

- `Node.Operation.built_results`: from trees that are built, an operation makes trees that are built.
- `Node.built_of_mem_run`: what a run makes is built.
- `Node.regular_of_mem_run`: all nodes of all trees that a run makes are regular.
-/

namespace MarkupQuery.Node

/-! ### Runs -/

/-- A use of a builder or a loader. Trees are given by their places among those made before. -/
inductive Operation where
  /-- Make an element without attributes and children. -/
  | ofTag (name : String)
  /-- Make a text. -/
  | text (value : String)
  /-- Make an empty node of a kind. -/
  | ofKind (kind : String)
  /-- Make a node of given fields. The attributes may be given in any order and repeatedly. -/
  | ofParts (kind name value : String) (attributes : Entries String) (children : List Nat)
  /-- Set an attribute of a tree. -/
  | withAttribute (node : Nat) (name value : String)
  /-- Append one tree to the children of another. -/
  | withChild (node child : Nat)
  /-- Append trees to the children of another. -/
  | withChildren (node : Nat) (added : List Nat)
  /-- Load a node from a text. -/
  | load (text : String)
  /-- Load a node from a value. -/
  | loadValue (value : Json.Value)
  /-- Load a list of nodes from a text. -/
  | loadMany (text : String)

/-- The trees at the given places, without those that have not been made. -/
def pick (made : List Node) (places : List Nat) : List Node :=
  places.filterMap (made[·]?)

/-- What an operation makes, when the trees `made` have been made before. -/
def Operation.results (made : List Node) : Operation → List Node
  | .ofTag name => [Node.ofTag name]
  | .text value => [.text value]
  | .ofKind kind => [Node.ofKind kind]
  | .ofParts kind name value attributes children =>
    [Node.ofParts kind name value (.ofList attributes) (pick made children)]
  | .withAttribute node name value => (pick made [node]).map (·.withAttribute name value)
  | .withChild node child =>
    (pick made [node]).flatMap fun node => (pick made [child]).map node.withChild
  | .withChildren node added => (pick made [node]).map (·.withChildren (pick made added))
  | .load source => (Node.load source).value.toOption.toList
  | .loadValue value => (Node.loadValue value).value.toOption.toList
  | .loadMany source => (Node.loadMany source).value.toOption.getD []

/-- All trees that operations make one after the other, in the order in which they are made. -/
def run (operations : List Operation) : List Node :=
  operations.foldl (fun made operation => made ++ operation.results made) []

/-! ### What is made -/

/-- Trees that are picked have been made. -/
theorem mem_of_mem_pick {made : List Node} {places : List Nat} {node : Node}
    (h : node ∈ pick made places) : node ∈ made := by
  obtain ⟨place, -, hplace⟩ := List.mem_filterMap.1 h
  exact List.mem_of_getElem? hplace

/-- A loader makes the node that it loads, and nothing if it fails. -/
theorem eq_ok_of_mem_toList {outcome : Except LoadError Node} {node : Node}
    (h : node ∈ outcome.toOption.toList) : outcome = .ok node := by
  cases outcome with
  | error error => cases h
  | ok loaded => rw [List.mem_singleton.1 h]

/-- From trees that are built, an operation makes trees that are built. -/
theorem Operation.built_results {made : List Node} (hmade : ∀ node ∈ made, node.Built)
    (operation : Operation) : ∀ node ∈ operation.results made, node.Built := by
  have hpick : ∀ {places : List Nat}, ∀ node ∈ pick made places, node.Built :=
    fun node h => hmade node (mem_of_mem_pick h)
  intro node hmem
  cases operation with
  | ofTag name => exact List.mem_singleton.1 hmem ▸ .ofTag name
  | text value => exact List.mem_singleton.1 hmem ▸ .text value
  | ofKind kind => exact List.mem_singleton.1 hmem ▸ .ofKind kind
  | ofParts kind name value attributes children =>
    exact List.mem_singleton.1 hmem ▸ .ofParts kind name value _ hpick
  | withAttribute place name value =>
    obtain ⟨root, hroot, rfl⟩ := List.mem_map.1 hmem
    exact .withAttribute name value (hpick root hroot)
  | withChild place child =>
    obtain ⟨root, hroot, hmem⟩ := List.mem_flatMap.1 hmem
    obtain ⟨child, hchild, rfl⟩ := List.mem_map.1 hmem
    exact .withChild (hpick root hroot) (hpick child hchild)
  | withChildren place added =>
    obtain ⟨root, hroot, rfl⟩ := List.mem_map.1 hmem
    exact .withChildren (hpick root hroot) hpick
  -- Only a loader that succeeds makes anything.
  | load text => exact .load (eq_ok_of_mem_toList hmem)
  | loadValue value => exact .loadValue (eq_ok_of_mem_toList hmem)
  | loadMany text =>
    rw [results] at hmem
    cases hload : (Node.loadMany text).value with
    | error error =>
      rw [hload] at hmem
      cases hmem
    | ok nodes =>
      rw [hload] at hmem
      exact .loadMany hload hmem

/-- What a run makes is built. -/
theorem built_of_mem_run {operations : List Operation} {tree : Node} (h : tree ∈ run operations) :
    tree.Built := by
  -- The trees made so far are built at first, since there are none, and after each operation.
  suffices hrun : ∀ made : List Node, (∀ node ∈ made, node.Built) →
      ∀ node ∈ operations.foldl (fun made operation => made ++ operation.results made) made,
        node.Built from
    hrun [] (List.forall_mem_nil _) tree h
  clear h
  induction operations with
  | nil => exact fun made hmade => hmade
  | cons operation rest ih =>
    intro made hmade
    exact ih _ (List.forall_mem_append.2 ⟨hmade, operation.built_results hmade⟩)

/-! ### Regular nodes -/

/-- What a node is can be told from the name of its kind, and the names of its attributes ascend. -/
structure Regular (node : Node) : Prop where
  /-- An opaque node has neither the kind of an element nor that of a text. -/
  other_ne : node.kind = .other → node.kindName ≠ "element" ∧ node.kindName ≠ "text"
  /-- The names of the attributes ascend strictly. -/
  names_ascend : ∀ attributes, node.attributes? = some attributes →
    (attributes.entries.map Prod.fst).Pairwise (· < ·)
  /-- No attribute occurs twice. -/
  names_nodup : ∀ attributes, node.attributes? = some attributes →
    (attributes.entries.map Prod.fst).Nodup
  /-- The kind of an element is that of the elements only. -/
  element_iff : node.kindName = "element" ↔ node.kind = .element
  /-- The kind of a text is that of the texts only. -/
  text_iff : node.kindName = "text" ↔ node.kind = .text

/-- A node that is not misnamed is regular. -/
theorem regular_of_other_ne {node : Node}
    (h : node.kind = .other → node.kindName ≠ "element" ∧ node.kindName ≠ "text") :
    node.Regular where
  other_ne := h
  names_ascend attributes _ := List.pairwise_map.2 attributes.ascending
  names_nodup attributes _ :=
    List.nodup_iff_count.2 fun name => attributes.ascending.once name
  element_iff := by
    cases node with
    | element name attributes children => exact iff_of_true rfl rfl
    | text value => exact iff_of_false (fun h => absurd h (by decide : "text" ≠ "element")) nofun
    | other kind name value attributes children => exact iff_of_false (h rfl).1 nofun
  text_iff := by
    cases node with
    | element name attributes children =>
      exact iff_of_false (fun h => absurd h (by decide : "element" ≠ "text")) nofun
    | text value => exact iff_of_true rfl rfl
    | other kind name value attributes children => exact iff_of_false (h rfl).2 nofun

/-- Every node of every tree that a run makes is regular. -/
theorem regular_of_mem_run {operations : List Operation} {tree node : Node}
    (htree : tree ∈ run operations) (hnode : node ∈ tree.preorder) : node.Regular := by
  have hproper := (built_of_mem_run htree).proper
  exact regular_of_other_ne (hproper node hnode)

/-- A run that loads a node, makes an opaque one, and appends the loaded one to it. Nothing is made of
the place that no tree has. -/
def runOfComment : List Operation :=
  [.load "\x7b\"attributes\": \x7b\"b\": \"\", \"a\": \"\", \"b\": \"1\"\x7d\x7d",
    .ofKind "comment", .withChild 0 7, .withChildren 1 [0, 7]]

/-- What is loaded is in the tree of the opaque node, where it is regular. -/
theorem regular_runOfComment :
    let loaded : Node := .element "" (.ofList [("a", ""), ("b", "1")]) []
    let tree : Node := .other "comment" "" "" .empty [loaded]
    tree ∈ run runOfComment ∧ loaded ∈ tree.preorder ∧ loaded.Regular := by
  intro loaded tree
  have hrun : run runOfComment = [loaded, ofKind "comment", tree] := by with_unfolding_all rfl
  have htree : tree ∈ run runOfComment := by simp [hrun]
  have hloaded : loaded ∈ tree.preorder := by simp [tree, loaded, preorder, preorderAll]
  exact ⟨htree, hloaded, regular_of_mem_run htree hloaded⟩

end MarkupQuery.Node
