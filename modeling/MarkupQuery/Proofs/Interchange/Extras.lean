import MarkupQuery.Proofs.Interchange.FieldOrder
import MarkupQuery.Proofs.Json.TextGrammar

/-!
# Members that nobody asked for

The description of a node may have members besides its fields: anywhere among them, any number of them,
and so for every node of the tree. Their keys are not those of fields, however they are spelled, and what
is given for them is any value.

## Main definitions

- `IsExtra`: the text of a member that nobody asked for.
- `Inserted`: a list with further items inserted.
- `Node.Embellished`: the texts of a node into which such members have been inserted.

## Main results

- `isExtra_memberText`: a member with an unknown key, as it is written, is such a member.
- `Node.embellished_enclose`: the fields of a node are enclosed with whatever has been inserted among them.
- `Node.embellished_describe`: the text of a description is one of these texts.
-/

namespace MarkupQuery

/-- A member that nobody asked for: its key is not that of a field, and its content is any value. Blanks
may stand around each of its pieces. -/
inductive IsExtra : List Char → Prop where
  /-- A key, a colon and a value. -/
  | intro {before spelled between gap content after : List Char} {key : String}
      (hbefore : IsBlanks before) (hkey : StringText.Spells spelled key.toList)
      (hunknown : Field.ofKey? key = none) (hbetween : IsBlanks between) (hgap : IsBlanks gap)
      (hcontent : Json.IsValue content) (hafter : IsBlanks after) :
      IsExtra (before ++ '"' :: (spelled ++ '"' :: (between ++ ':' :: (gap ++ (content ++ after)))))

/-- A member with an unknown key, as it is written, is one that nobody asked for. -/
theorem isExtra_memberText {key : String} (hunknown : Field.ofKey? key = none) {content : List Char}
    (hcontent : Json.IsValue content) : IsExtra (Json.memberText key content) := by
  have hextra := IsExtra.intro isBlanks_nil (StringText.spells_flatMap_escape key.toList) hunknown
    isBlanks_nil isBlanks_nil hcontent isBlanks_nil
  rw [List.append_nil] at hextra
  rw [Json.memberText, StringText.write_eq]
  exact hextra

/-- The second list is the first one with further items of a kind inserted, anywhere. -/
inductive Inserted {α : Type} (kind : α → Prop) : List α → List α → Prop where
  /-- There are no items. -/
  | nil : Inserted kind [] []
  /-- The first item is that of the first list. -/
  | keep (item : α) {items items' : List α} (h : Inserted kind items items') :
      Inserted kind (item :: items) (item :: items')
  /-- The first item is a further one. -/
  | insert {item : α} {items items' : List α} (hitem : kind item) (h : Inserted kind items items') :
      Inserted kind items (item :: items')

/-- Nothing has to be inserted. -/
theorem Inserted.refl {α : Type} {kind : α → Prop} (items : List α) : Inserted kind items items := by
  induction items with
  | nil => exact .nil
  | cons item items ih => exact .keep item ih

namespace Node

/-- What is written for a field of a node, if its children are written as given. -/
def fieldText (node : Node) (children : List (List Char)) : Field → List Char
  | .children => Json.enclose .array children
  | field => (node.fieldJson [] field).write []

/-- The texts of a node with its fields in a given order into which members that nobody asked for have been
inserted, and so for all nodes beneath it. -/
inductive Embellished (order : List Field) : Node → List Char → Prop where
  /-- The members are the fields and what was inserted among them. The children are written as such texts
  themselves. -/
  | intro {node : Node} {children : List (Node × List Char)} {members : List (List Char)}
      (hchildren : children.map Prod.fst = node.children)
      (htexts : ∀ child ∈ children, Embellished order child.1 child.2)
      (hmembers : Inserted IsExtra
        (order.map fun field => Json.memberText field.key (node.fieldText (children.map Prod.snd) field))
        members) :
      Embellished order node (Json.enclose .object members)

/-- A field without children is written in front of any text. -/
theorem fieldText_append {node : Node} {children : List (List Char)} {field : Field}
    (hne : field ≠ .children) (rest : List Char) :
    node.fieldText children field ++ rest = (node.fieldJson [] field).write rest := by
  rw [Json.write_eq_append]
  cases field with
  | children => exact absurd rfl hne
  | name | kind | value | attributes => rfl

/-- What is written for a field is its text. -/
theorem write_fieldJson (node : Node) (children : List Json) (field : Field) :
    (node.fieldJson children field).write [] = node.fieldText (children.map (·.write [])) field := by
  cases field with
  | name | kind | value | attributes => rfl
  | children => exact Json.write_array children

/-- The fields of a node as they are described may be enclosed with whatever has been inserted among
them. -/
theorem embellished_enclose {order : List Field} {node : Node} {members : List (List Char)}
    (hchildren : ∀ child ∈ node.children, Embellished order child ((child.describe order).write []))
    (hmembers : Inserted IsExtra (order.map fun field => Json.memberText field.key
      ((node.fieldJson (node.children.map (describe order)) field).write [])) members) :
    Embellished order node (Json.enclose .object members) := by
  have htexts : ∀ field, (node.fieldJson (node.children.map (describe order)) field).write [] =
      node.fieldText ((node.children.map fun child =>
        (child, (child.describe order).write [])).map Prod.snd) field := by
    intro field
    rw [write_fieldJson, List.map_map, List.map_map]
    rfl
  -- Each child is paired with the text of its description.
  simp only [htexts] at hmembers
  refine .intro ?_ (fun child hmem => ?_) hmembers
  · rw [List.map_map]
    exact List.map_id _
  · obtain ⟨node', hnode, rfl⟩ := List.mem_map.1 hmem
    exact hchildren node' hnode

/-- The text of a description is one into which nothing has been inserted. -/
theorem embellished_describe (order : List Field) (node : Node) :
    Embellished order node ((node.describe order).write []) := by
  induction node using induct with
  | node node ih =>
    rw [describe_eq, describeWith, Json.write_object, List.map_map]
    exact embellished_enclose ih (.refl _)

/-- Such a text may stand where an item is awaited. -/
theorem Embellished.beginsItem {order : List Field} {node : Node} {text : List Char}
    (h : Embellished order node text) (rest : List Char) : Json.BeginsItem (text ++ rest) := by
  cases h
  exact Json.beginsItem_opening .object _

end Node

end MarkupQuery
