import MarkupQuery.Proofs.Interchange.TextRoundTrip
import MarkupQuery.Proofs.Json.Paths

/-!
# What nobody asked for makes no difference

Members that nobody asked for may be added to the description of a node and taken from it, at every node of
the tree. In a text they are passed over, however deeply they are nested, so the node is loaded as if they
were not there. In a value they make no difference to the outcome either, whether it is a node or an
error.

## Main definitions

- `Json.trim`: a description without the members that nobody asked for.
- `Json.NodePath`: a path from the description of a node to one of a node beneath it.

## Main results

- `Json.trim_object_insert`, `Json.trim_replace`: such a member is trimmed away, whichever node it is added to.
- `Node.ofJson_trim`: the trimmed description describes the same, or is refused for the same reason.
- `Node.load_of_embellished`: up to 63 levels, a node is loaded whatever has been inserted.
- `Node.load_embellished_and_loadValue_trim`: both of it, for texts and for values.
-/

namespace MarkupQuery

/-! ### Values -/

namespace Json

mutual

/-- JSON that describes a node, without the members that nobody asked for, and so for all nodes beneath
it. -/
def trim : Json → Json
  | .object members => .object (trimMembers members)
  | .array items => .array (trimItems Field.all items)
  | json => json

/-- The members that are asked for, with the contents that describe nodes trimmed. -/
def trimMembers : List (String × Json) → List (String × Json)
  | [] => []
  | (key, content) :: rest =>
    match Field.ofKey? key with
    | none => trimMembers rest
    | some field => (key, trimContent field content) :: trimMembers rest

/-- Items that give the fields in turn, with those that describe nodes trimmed. -/
def trimItems (fields : List Field) : List Json → List Json
  | [] => []
  | item :: rest =>
    match fields with
    | [] => item :: trimItems [] rest
    | field :: fields => trimContent field item :: trimItems fields rest

/-- What is given for a field, with the descriptions of nodes in it trimmed. -/
def trimContent : Field → Json → Json
  | .children, .array items => .array (trimAll items)
  | _, json => json

/-- Descriptions of nodes, each of them trimmed. -/
def trimAll : List Json → List Json
  | [] => []
  | json :: rest => json.trim :: trimAll rest

end

/-- Trimming leaves as many items as there are. -/
theorem length_trimItems (fields : List Field) (items : List Json) :
    (trimItems fields items).length = items.length := by
  induction items generalizing fields with
  | nil => rfl
  | cons item rest ih =>
    cases fields with
    | nil => rw [trimItems, List.length_cons, ih, List.length_cons]
    | cons field fields => rw [trimItems, List.length_cons, ih, List.length_cons]

/-- A further member whose key is not that of a field is trimmed away, wherever it stands. -/
theorem trim_object_insert {key : String} (hunknown : Field.ofKey? key = none) (content : Json)
    (before after : List (String × Json)) :
    (object (before ++ (key, content) :: after)).trim = (object (before ++ after)).trim := by
  rw [trim, trim]
  congr 1
  induction before with
  | nil => rw [List.nil_append, List.nil_append, trimMembers, hunknown]
  | cons member before ih => rw [List.cons_append, List.cons_append, trimMembers, trimMembers, ih]

/-- A path from the description of a node to that of a node beneath it or of the node itself. -/
inductive NodePath : List Step → Prop where
  /-- The node itself. -/
  | here : NodePath []
  /-- A node beneath a child that a member gives. -/
  | member {path : List Step} (index : Nat) (h : NodePath path) :
      NodePath (.key "children" :: .index index :: path)
  /-- A node beneath a child that the fifth item gives. -/
  | item {path : List Step} (index : Nat) (h : NodePath path) :
      NodePath (.index 4 :: .index index :: path)

/-- If the description of a child is changed in either of two ways and trimmed to the same, so are the
children. -/
theorem trimContent_children_modifyChild {change change' : Json → Json}
    (h : ∀ child, (change child).trim = (change' child).trim) (content : Json) (index : Nat) :
    trimContent .children (content.modifyChild (.index index) change) =
      trimContent .children (content.modifyChild (.index index) change') := by
  cases content with
  | null | bool | number | string | object => rfl
  | array items =>
    rw [modifyChild, modifyChild, trimContent, trimContent]
    congr 1
    induction items generalizing index with
    | nil => cases index <;> rfl
    | cons item rest ih =>
      cases index with
      | zero => rw [List.modify_zero_cons, List.modify_zero_cons, trimAll, trimAll, h]
      | succ index => rw [List.modify_succ_cons, List.modify_succ_cons, trimAll, trimAll, ih]

/-- If the description of a node is replaced by either of two and both are trimmed to the same, so is what is
around it. -/
theorem trim_replace {part part' : Json} (htrim : part.trim = part'.trim) {path : List Step}
    (hpath : NodePath path) (json : Json) :
    (json.replace path part).trim = (json.replace path part').trim := by
  induction hpath generalizing json with
  | here => exact htrim
  | member index _ ih =>
    cases json with
    | null | bool | number | string | array => rfl
    | object members =>
      rw [replace, replace, modifyChild, modifyChild, trim, trim]
      congr 1
      induction members with
      | nil => rfl
      | cons member rest ihRest =>
        obtain ⟨key, content⟩ := member
        rw [List.map_cons, List.map_cons, trimMembers, trimMembers, ihRest]
        by_cases hkey : key = "children"
        · rw [if_pos hkey, if_pos hkey, hkey, show Field.ofKey? "children" = some .children from rfl]
          dsimp only
          congr 2
          exact trimContent_children_modifyChild ih content index
        · rw [if_neg hkey, if_neg hkey]
  | item index _ ih =>
    cases json with
    | null | bool | number | string | object => rfl
    | array items =>
      rw [replace, replace, modifyChild, modifyChild, trim, trim]
      congr 1
      -- Only if there is a fifth item, it is changed, and it is the one that gives the children.
      rcases items with _ | ⟨name, _ | ⟨kind, _ | ⟨value, _ | ⟨attributes, _ | ⟨children, rest⟩⟩⟩⟩⟩
      case cons.cons.cons.cons.cons =>
        have hchildren := trimContent_children_modifyChild ih children index
        exact congrArg (fun content => trimContent .name name :: trimContent .kind kind ::
          trimContent .value value :: trimContent .attributes attributes :: content ::
            trimItems [] rest) hchildren
      all_goals rfl

end Json

namespace Node

mutual

/-- The trimmed description describes the same node, or is refused for the same reason. -/
theorem ofJson_trim : ∀ json : Json, ofJson json.trim = ofJson json
  | .object members => by rw [Json.trim, ofJson, ofJson, draftOfMembers_trim]
  | .array items => by rw [Json.trim, ofJson, ofJson, Json.length_trimItems, draftOfItems_trim]
  | .null | .bool _ | .number _ | .string _ => rfl

/-- Trimmed members give the same draft. -/
theorem draftOfMembers_trim : ∀ (members : List (String × Json)) (draft : Draft),
    draftOfMembers draft (Json.trimMembers members) = draftOfMembers draft members
  | [], _ => rfl
  | (key, content) :: rest, draft => by
    rw [Json.trimMembers, draftOfMembers]
    -- A member with another key is passed over, so it may as well be left out.
    cases hkey : Field.ofKey? key with
    | none => exact draftOfMembers_trim rest draft
    | some field =>
      dsimp only
      rw [draftOfMembers, hkey]
      dsimp only
      rw [contentOfJson_trim field content]
      -- Either the field is refused or the other members follow, whose drafts are the same.
      split
      · rfl
      · exact bind_congr fun read => draftOfMembers_trim rest (draft.set field read)

/-- Trimmed items give the same draft. -/
theorem draftOfItems_trim (length : Nat) : ∀ (items : List Json) (fields : List Field) (draft : Draft),
    draftOfItems length fields draft (Json.trimItems fields items) =
      draftOfItems length fields draft items
  | [], _, _ => rfl
  | item :: rest, fields, draft => by
    -- An item without a field is refused for the length of the array, which trimming keeps.
    cases fields with
    | nil => rfl
    | cons field fields =>
      rw [Json.trimItems, draftOfItems, draftOfItems, contentOfJson_trim field item]
      exact bind_congr fun read => draftOfItems_trim length rest fields (draft.set field read)

/-- What is trimmed gives the same for a field. -/
theorem contentOfJson_trim : ∀ (field : Field) (json : Json),
    contentOfJson field (Json.trimContent field json) = contentOfJson field json
  | .children, .array items => ofJsonAll_trim items
  | .children, .null | .children, .bool _ | .children, .number _ | .children, .string _
  | .children, .object _ => rfl
  | .name, json | .kind, json | .value, json | .attributes, json => by cases json <;> rfl

/-- Trimmed descriptions describe the same nodes. -/
theorem ofJsonAll_trim : ∀ items : List Json, ofJsonAll (Json.trimAll items) = ofJsonAll items
  | [] => rfl
  | json :: rest => by rw [Json.trimAll, ofJsonAll, ofJsonAll, ofJson_trim json, ofJsonAll_trim rest]

end

/-- From values that differ only in what nobody asked for, the same is loaded, or both are refused for the
same reason. -/
theorem loadValue_congr_trim {value value' : Json.Value} (h : value.json.trim = value'.json.trim) :
    loadValue value = loadValue value' := by
  have hnode : ofValue value = ofValue value' := by
    rw [ofValue, ofValue, ← ofJson_trim, h, ofJson_trim]
  rw [loadValue, loadValue, hnode]

/-! ### Texts -/

/-- Up to 63 levels, a tree that was built or loaded is loaded from its text, whatever has been inserted
into it. -/
theorem load_of_embellished {order : List Field} (horder : order.Perm Field.all) {node : Node}
    {text : String} (h : Embellished order node text.toList) (hbuilt : node.Built)
    (hle : node.height ≤ 63) : (load text).value = .ok node := by
  have hread := readsWithin_read_embellished horder h
  rw [rebuild_eq_self hbuilt.proper] at hread
  exact load_eq_ok_iff.2 (hread.ok (by rw [Json.nestingLimit]; omega))

/-- The text of a node is one into which nothing has been inserted. -/
theorem embellished_toText (node : Node) : Embellished Field.all node node.toText.toList :=
  toText_eq node ▸ embellished_compact _ node

/-- The text of a node with a further member in front, which refers back to a parent by its text. -/
def withParent (parent node : Node) : String :=
  String.ofList (Json.enclose .object (Json.memberText "parent" (parent.toJson.write []) ::
    Field.all.map fun field => Json.memberText field.key
      ((node.fieldJson (node.children.map (describe Field.all)) field).write [])))

/-- However tall it is, the parent is a member that nobody asked for. -/
theorem embellished_withParent (parent node : Node) :
    Embellished Field.all node (withParent parent node).toList := by
  have hparent := (numberless_toJson parent).isValue_write
  rw [withParent, String.toList_ofList]
  exact embellished_enclose (fun child _ => embellished_describe _ child)
    (.insert (isExtra_memberText rfl hparent) (.refl _))

/-! ### Texts and values -/

/-- Up to 63 levels, a tree that was built or loaded is loaded from every text that results from its own by
inserting members that nobody asked for into any of its nodes, among them its own text. From values that
differ only in such members the same is loaded, or both are refused for the same reason, and so it is if one
such member is added to the description of any node in a value or taken from it. -/
theorem load_embellished_and_loadValue_trim :
    (∀ node : Node, Embellished Field.all node node.toText.toList) ∧
      (∀ (node : Node) (text : String), node.Built → node.height ≤ 63 →
        Embellished Field.all node text.toList → (load text).value = .ok node) ∧
      (∀ value value' : Json.Value, value.json.trim = value'.json.trim →
        loadValue value = loadValue value') ∧
      ∀ (value part part' : Json.Value) path key content before after, Json.NodePath path →
        Field.ofKey? key = none → part.json = .object (before ++ (key, content) :: after) →
        part'.json = .object (before ++ after) →
        loadValue (value.replace path part) = loadValue (value.replace path part') := by
  refine ⟨embellished_toText, fun _ _ hbuilt hle h => load_of_embellished (.refl _) h hbuilt hle,
    fun _ _ => loadValue_congr_trim, ?_⟩
  intro value part part' path key content before after hpath hunknown hpart hpart'
  have htrim : part.json.trim = part'.json.trim := by
    rw [hpart, hpart', Json.trim_object_insert hunknown]
  exact loadValue_congr_trim (Json.trim_replace htrim hpath value.json)

/-- A value that describes a text. -/
def describedText : Json.Value where
  json := .object [("type", .string "text")]
  normal := ⟨by decide, trivial, trivial⟩

/-- A value that describes a text and has a note besides. -/
def notedText : Json.Value where
  json := .object [("note", .array [.null]), ("type", .string "text")]
  normal := ⟨by decide, ⟨trivial, trivial⟩, trivial, trivial⟩

/-- An element is loaded from a text that refers back to a parent of 201 levels. A value in which a text
beneath an element has a note is loaded like the one without the note. -/
theorem load_withParent_nested :
    (load (withParent (nested 200) (ofTag "a"))).value = .ok (ofTag "a") ∧
      loadValue (Json.object [("children", .array
          [.object [("note", .array [.null]), ("type", .string "text")]])]).toValue =
        loadValue (Json.object [("children", .array [.object [("type", .string "text")]])]).toValue ∧
      let childless := (Json.object [("children", .array [.null])]).toValue
      loadValue (childless.replace [.key "children", .index 0] notedText) =
        loadValue (childless.replace [.key "children", .index 0] describedText) :=
  ⟨load_embellished_and_loadValue_trim.2.1 _ _ (.ofTag "a") (by decide)
      (embellished_withParent (nested 200) (ofTag "a")),
    load_embellished_and_loadValue_trim.2.2.1 _ _ rfl,
    load_embellished_and_loadValue_trim.2.2.2 _ _ _ _ "note" _ [] _ (.member 0 .here) rfl rfl rfl⟩

end Node

end MarkupQuery
