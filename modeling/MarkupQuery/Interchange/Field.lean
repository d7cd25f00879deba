import MarkupQuery.Json.Fault
import MarkupQuery.Node.Basic

/-!
# Fields of a described node

A node is described by up to five fields, whichever shape it has. They may be given by their keys in
any order, or without keys in a fixed order. A draft holds the fields that have been given so far.

## Main definitions

- `Field`: the five fields, `Field.key`, their keys, and `Field.Content`, what each of them holds.
- `Draft`: the fields given so far, with `Draft.get?` and `Draft.set`.
- `Draft.node`: the node that a draft describes.

## Main results

- `Field.ofKey?_eq_some_iff`: every field is found by its key.
- `Draft.get?_set_self`, `Draft.get?_set_of_ne`: a field that was set is there, the others are left.
-/

namespace MarkupQuery

/-- The fields of a described node. -/
inductive Field where
  /-- The tag name. -/
  | name
  /-- The name of the kind. -/
  | kind
  /-- The literal value. -/
  | value
  /-- The attributes. -/
  | attributes
  /-- The children. -/
  | children
deriving DecidableEq

namespace Field

/-- All fields, in the order in which they are given without keys. -/
def all : List Field :=
  [.name, .kind, .value, .attributes, .children]

/-- The key of a field. -/
def key : Field → String
  | .name => "name"
  | .kind => "type"
  | .value => "value"
  | .attributes => "attributes"
  | .children => "children"

/-- The field that has a key. -/
def ofKey? : String → Option Field
  | "name" => some .name
  | "type" => some .kind
  | "value" => some .value
  | "attributes" => some .attributes
  | "children" => some .children
  | _ => none

/-- What a field holds. -/
def Content : Field → Type
  | .name | .kind | .value => String
  | .attributes => Attributes
  | .children => List Node

/-- What is wanted for a field. -/
def wanted : Field → Wanted
  | .name | .kind | .value => .string
  | .attributes => .map
  | .children => .sequence

/-- A field is found by its key and by no other. -/
theorem ofKey?_eq_some_iff {key : String} {field : Field} :
    ofKey? key = some field ↔ key = field.key := by
  constructor
  · intro h
    -- Each of the five keys leaves one field, and any other key none.
    rw [ofKey?.eq_def] at h
    split at h <;> simp only [Option.some.injEq, reduceCtorEq] at h <;> subst h <;> rfl
  · rintro rfl
    cases field <;> rfl

end Field

/-- The fields of a node that have been given so far. -/
structure Draft where
  /-- The tag name, if it has been given. -/
  name? : Option String
  /-- The name of the kind, if it has been given. -/
  kind? : Option String
  /-- The literal value, if it has been given. -/
  value? : Option String
  /-- The attributes, if they have been given. -/
  attributes? : Option Attributes
  /-- The children, if they have been given. -/
  children? : Option (List Node)

namespace Draft

/-- No field has been given. -/
def empty : Draft :=
  ⟨none, none, none, none, none⟩

/-- What has been given for a field. -/
def get? (draft : Draft) : (field : Field) → Option field.Content
  | .name => draft.name?
  | .kind => draft.kind?
  | .value => draft.value?
  | .attributes => draft.attributes?
  | .children => draft.children?

/-- Give a field. -/
def set (draft : Draft) : (field : Field) → field.Content → Draft
  | .name, content => { draft with name? := some content }
  | .kind, content => { draft with kind? := some content }
  | .value, content => { draft with value? := some content }
  | .attributes, content => { draft with attributes? := some content }
  | .children, content => { draft with children? := some content }

/-- Whether a field has been given. -/
def has (draft : Draft) (field : Field) : Bool :=
  (draft.get? field).isSome

/-- The node that is described. It is an element if no kind has been given, and any other field that
has not been given is empty. -/
def node (draft : Draft) : Node :=
  .ofParts (draft.kind?.getD "element") (draft.name?.getD "") (draft.value?.getD "")
    (draft.attributes?.getD .empty) (draft.children?.getD [])

/-- A field that was just given is there. -/
@[simp]
theorem get?_set_self (draft : Draft) (field : Field) (content : field.Content) :
    (draft.set field content).get? field = some content := by
  cases field <;> rfl

/-- Giving a field leaves the others alone. -/
theorem get?_set_of_ne (draft : Draft) {field other : Field} (content : field.Content)
    (hne : other ≠ field) : (draft.set field content).get? other = draft.get? other := by
  cases field <;> cases other <;> first | rfl | exact absurd rfl hne

end Draft

end MarkupQuery
