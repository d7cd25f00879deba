import MarkupQuery.Proofs.Interchange.ValueRoundTrip
import MarkupQuery.Proofs.Json.TextRoundTrip

/-!
# The order of the fields

The text of a node gives its fields in one order and its value gives them in another, the ascending one
of their keys. Both are descriptions by the same fields, in an order that is the same at every depth.
Which order it is makes no difference to the value, to how deeply the description is nested, and to
which nodes it tells apart.

## Main definitions

- `Field.ascending`: the fields with their keys ascending.
- `Node.fieldJson`: what a node gives for a field.
- `Node.describe`: the description of a node with its fields in a given order, at every depth.

## Main results

- `Node.toJson_eq_describe`, `Node.toValue_json`: the descriptions of the text and of the value.
- `Node.normalize_describe`: the value does not depend on the order of the fields.
- `Node.describe_congr`: a description in one order determines those in the others.
- `Node.nesting_describe`: a description has two brackets for each level, in any order.
-/

namespace MarkupQuery

/-- The fields with their keys ascending. -/
def Field.ascending : List Field :=
  [.attributes, .children, .name, .kind, .value]

/-- All fields are given in the ascending order of their keys, too. -/
theorem Field.ascending_perm : Field.ascending.Perm Field.all := by
  decide

/-- Every field is one of all fields. -/
theorem Field.mem_all (field : Field) : field ∈ Field.all := by
  cases field <;> decide

namespace Node

/-! ### Descriptions -/

/-- What a node gives for a field, if its children are given by their descriptions. -/
def fieldJson (node : Node) (children : List Json) : Field → Json
  | .name => .string (node.name?.getD "")
  | .kind => .string node.kindName
  | .value => .string (node.value?.getD "")
  | .attributes => (node.attributes?.getD .empty).toJson
  | .children => .array children

/-- The object of the fields of a node in a given order, if its children are given by their
descriptions. -/
def describeWith (order : List Field) (node : Node) (children : List Json) : Json :=
  .object (order.map fun field => (field.key, node.fieldJson children field))

mutual

/-- The description of a node with its fields in a given order, and so for all nodes beneath it. -/
def describe (order : List Field) : Node → Json
  | .element name attributes children =>
    describeWith order (.element name attributes children) (describeAll order children)
  | .text value => describeWith order (.text value) []
  | .other kind name value attributes children =>
    describeWith order (.other kind name value attributes children) (describeAll order children)

/-- The descriptions of nodes. -/
def describeAll (order : List Field) : List Node → List Json
  | [] => []
  | node :: rest => node.describe order :: describeAll order rest

end

/-- Nodes are described one by one. -/
theorem describeAll_eq_map (order : List Field) (nodes : List Node) :
    describeAll order nodes = nodes.map (describe order) := by
  induction nodes with
  | nil => rfl
  | cons node rest ih => rw [describeAll, ih, List.map_cons]

/-- A node is described by its fields and the descriptions of its children. -/
theorem describe_eq (order : List Field) (node : Node) :
    node.describe order = describeWith order node (node.children.map (describe order)) := by
  rw [← describeAll_eq_map]
  cases node <;> rfl

/-- The text of a node gives its fields in the order of their declaration. -/
theorem toJson_eq_describe (node : Node) : node.toJson = node.describe Field.all := by
  induction node using induct with
  | node node ih =>
    rw [toJson_eq, describe_eq, List.map_congr_left ih]
    rfl

/-! ### Values -/

/-- The members of a node with ascending keys. -/
theorem ascending_members (json : Field → Json) :
    Entries.Ascending (Field.ascending.map fun field => (field.key, json field)) := by
  rw [Entries.Ascending, List.pairwise_map]
  exact (by decide : Field.ascending.Pairwise fun a b => a.key < b.key)

/-- The attributes of a node are normal as they are described. -/
theorem normalize_toJson_attributes (attributes : Attributes) :
    attributes.toJson.normalize = attributes.toJson := by
  have hmembers := Json.normalMembers_stringMembers attributes.entries
  rw [Entries.ofList_eq_self attributes.ascending] at hmembers
  exact congrArg Json.object hmembers

/-- What a node gives for a field is normalized by normalizing the descriptions of the children. -/
theorem normalize_fieldJson (node : Node) (children : List Json) (field : Field) :
    (node.fieldJson children field).normalize =
      node.fieldJson (children.map Json.normalize) field := by
  cases field with
  | name | kind | value => rfl
  | attributes => exact normalize_toJson_attributes _
  | children => exact Json.normalize_array children

/-- The value of a description gives the fields with ascending keys, in whichever order they are
given. -/
theorem normalize_describe {order : List Field} (horder : order.Perm Field.all) (node : Node) :
    (node.describe order).normalize = node.describe Field.ascending := by
  induction node using induct with
  | node node ih =>
    -- The contents are normalized where they stand, and then the members change their places.
    have hmembers : Json.normalizeMembers
        (order.map fun field => (field.key, node.fieldJson (node.children.map (describe order)) field)) =
        order.map fun field =>
          (field.key, node.fieldJson (node.children.map (describe Field.ascending)) field) := by
      rw [Json.normalizeMembers_eq_map, List.map_map]
      refine List.map_congr_left fun field _ => ?_
      rw [Function.comp_apply, normalize_fieldJson, List.map_map, ← List.map_congr_left ih]
      rfl
    rw [describe_eq, describe_eq, describeWith, describeWith, Json.normalize_object,
      Json.normalMembers, hmembers]
    congr 1
    exact Entries.ofList_eq_of_perm (ascending_members _)
      ((horder.trans Field.ascending_perm.symm).map _)

/-- The value of a node gives its fields with ascending keys. -/
theorem toValue_json (node : Node) : node.toValue.json = node.describe Field.ascending := by
  rw [← normalize_describe (List.Perm.refl Field.all), ← toJson_eq_describe]
  rfl

/-! ### What a description determines -/

/-- If one function on lists tells apart at least what another one does, it does so item by item. -/
theorem map_eq_map_of_imp {α β γ : Type} {f : α → β} {g : α → γ} {xs ys : List α}
    (himp : ∀ x ∈ xs, ∀ y, f x = f y → g x = g y) (h : xs.map f = ys.map f) :
    xs.map g = ys.map g := by
  induction xs generalizing ys with
  | nil => rw [List.map_eq_nil_iff.1 h.symm]
  | cons x xs ih =>
    obtain ⟨y, ys, rfl, hfirst, hrest⟩ := List.map_eq_cons_iff.1 h.symm
    obtain ⟨hx, hxs⟩ := List.forall_mem_cons.1 himp
    rw [List.map_cons, List.map_cons, hx y hfirst.symm, ih hxs hrest.symm]

/-- A description by all fields, in any order, determines the description in any other order. -/
theorem describe_congr {order order' : List Field} (horder : ∀ field, field ∈ order) {a b : Node}
    (h : a.describe order = b.describe order) : a.describe order' = b.describe order' := by
  induction a using induct generalizing b with
  | node a ih =>
    rw [describe_eq, describe_eq, describeWith, describeWith, Json.object.injEq, List.map_inj_left] at h
    have hfield : ∀ field, a.fieldJson (a.children.map (describe order)) field =
        b.fieldJson (b.children.map (describe order)) field :=
      fun field => (Prod.mk.inj (h field (horder field))).2
    -- The children are described alike one by one, and so they are in the other order.
    have hchildren : a.children.map (describe order') = b.children.map (describe order') :=
      map_eq_map_of_imp (fun child hmem other => ih child hmem) (Json.array.inj (hfield .children))
    rw [describe_eq, describe_eq, hchildren, describeWith, describeWith]
    congr 1
    refine List.map_congr_left fun field _ => ?_
    cases field with
    | name => exact congrArg _ (hfield .name)
    | kind => exact congrArg _ (hfield .kind)
    | value => exact congrArg _ (hfield .value)
    | attributes => exact congrArg _ (hfield .attributes)
    | children => rfl

/-! ### Nesting -/

/-- In a description there are strings but no numbers. -/
theorem numberless_describe (order : List Field) (node : Node) :
    (node.describe order).Numberless := by
  induction node using induct with
  | node node ih =>
    rw [describe_eq, describeWith]
    refine .object fun member hmem => ?_
    obtain ⟨field, -, rfl⟩ := List.mem_map.1 hmem
    cases field with
    | name | kind | value => exact .string _
    | attributes =>
      refine .object fun member hmem => ?_
      obtain ⟨entry, -, rfl⟩ := List.mem_map.1 hmem
      exact .string entry.2
    | children =>
      refine .array fun item hmem => ?_
      obtain ⟨child, hchild, rfl⟩ := List.mem_map.1 hmem
      exact ih child hchild

/-- The description of attributes has one bracket, for there is nothing in it but strings. -/
theorem nesting_toJson_attributes (attributes : Attributes) : attributes.toJson.nesting = 1 := by
  rw [Attributes.toJson, Json.nesting, Nat.add_eq_right]
  induction attributes.entries with
  | nil => rfl
  | cons entry entries ih =>
    rw [List.map_cons, Json.nestingMembers, ih]
    rfl

/-- How many brackets the field of a node needs, by the number of levels beneath the node. -/
def fieldNesting (levels : Nat) : Field → Nat
  | .name | .kind | .value => 0
  | .attributes => 1
  | .children => 2 * levels + 1

/-- In any order, the fields of a node need as many brackets as its children do. -/
theorem foldr_max_fieldNesting {order : List Field} (horder : order.Perm Field.all) (levels : Nat) :
    (order.map (fieldNesting levels)).foldr max 0 = 2 * levels + 1 := by
  rw [(horder.map (fieldNesting levels)).foldr_eq' (fun _ _ _ _ _ => by omega)]
  simp only [Field.all, fieldNesting, List.map_cons, List.map_nil, List.foldr_cons, List.foldr_nil]
  omega

/-- Trees need as many brackets as the tallest of them. -/
theorem foldr_max_height (nodes : List Node) :
    (nodes.map (fun node => 2 * node.height)).foldr max 0 = 2 * heightAll nodes := by
  induction nodes with
  | nil => rfl
  | cons node rest ih =>
    rw [List.map_cons, List.foldr_cons, ih, heightAll]
    omega

/-- The description of a node has two brackets in one another for each of its levels, in whichever order
the fields are given. -/
theorem nesting_describe {order : List Field} (horder : order.Perm Field.all) (node : Node) :
    (node.describe order).nesting = 2 * node.height := by
  induction node using induct with
  | node node ih =>
    have hchildren : Json.nestingItems (node.children.map (describe order)) =
        2 * heightAll node.children := by
      rw [← Json.foldr_max_nesting, ← foldr_max_height, List.map_map]
      exact congrArg (List.foldr max 0) (List.map_congr_left ih)
    have hfield : ∀ field, (node.fieldJson (node.children.map (describe order)) field).nesting =
        fieldNesting (heightAll node.children) field := by
      intro field
      cases field with
      | name | kind | value => rfl
      | attributes => exact nesting_toJson_attributes _
      | children => exact congrArg (· + 1) hchildren
    have hneeded : (order.map fun field =>
        (field.key, node.fieldJson (node.children.map (describe order)) field)).map
          (fun member => member.2.nesting) = order.map (fieldNesting (heightAll node.children)) := by
      rw [List.map_map]
      exact List.map_congr_left fun field _ => hfield field
    rw [describe_eq, describeWith, Json.nesting, ← Json.foldr_max_nestingMembers, hneeded,
      foldr_max_fieldNesting horder, height_eq]
    omega

/-- The text of a node holds strings but no numbers. -/
theorem numberless_toJson (node : Node) : node.toJson.Numberless :=
  toJson_eq_describe node ▸ numberless_describe _ node

/-- The text of a node has two brackets in one another for each of its levels. -/
theorem nesting_toJson (node : Node) : node.toJson.nesting = 2 * node.height :=
  toJson_eq_describe node ▸ nesting_describe (.refl _) node

end Node

end MarkupQuery
