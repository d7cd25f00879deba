import MarkupQuery.Entries

/-!
# JSON

JSON as it is written: the members of an object stand in the order of the text, and a key may occur
more than once. The value that is meant has each key once, in ascending order, with what was last
written for it.

## Main definitions

- `Json`: JSON as it is written, and `Number`, its numbers.
- `Json.normalize`: every object with its keys ascending, the last of repeated keys kept.
- `Json.IsNormal`: every object has ascending keys.
- `Json.Value`: JSON whose objects all have ascending keys.

## Main results

- `Json.isNormal_normalize`: normalizing gives a value.
-/

namespace MarkupQuery

/-- A number: whole as long as it is written so and fits 64 bits. -/
inductive Number where
  /-- A whole number. -/
  | integer (value : Int)
  /-- Any other number, which is never infinite. -/
  | float (value : Float)

/-- JSON as it is written. -/
inductive Json where
  /-- The literal `null`. -/
  | null
  /-- A truth value. -/
  | bool (value : Bool)
  /-- A number. -/
  | number (value : Number)
  /-- A string. -/
  | string (value : String)
  /-- An array with its items in order. -/
  | array (items : List Json)
  /-- An object with its members in the order of the text. -/
  | object (members : List (String × Json))

namespace Json

instance : Inhabited Json := ⟨.null⟩

mutual

/-- The same JSON with the keys of every object ascending; of repeated keys the last one counts. -/
def normalize : Json → Json
  | .null => .null
  | .bool value => .bool value
  | .number value => .number value
  | .string value => .string value
  | .array items => .array (normalizeItems items)
  | .object members => .object (Entries.ofList (normalizeMembers members))

/-- Normalize every item. -/
def normalizeItems : List Json → List Json
  | [] => []
  | item :: rest => item.normalize :: normalizeItems rest

/-- Normalize the content of every member, where it stands. -/
def normalizeMembers : List (String × Json) → List (String × Json)
  | [] => []
  | (key, content) :: rest => (key, content.normalize) :: normalizeMembers rest

end

mutual

/-- The keys of every object ascend. -/
def IsNormal : Json → Prop
  | .null | .bool _ | .number _ | .string _ => True
  | .array items => ItemsNormal items
  | .object members => Entries.Ascending members ∧ MembersNormal members

/-- The keys of every object in the items ascend. -/
def ItemsNormal : List Json → Prop
  | [] => True
  | item :: rest => item.IsNormal ∧ ItemsNormal rest

/-- The keys of every object in the members' contents ascend. -/
def MembersNormal : List (String × Json) → Prop
  | [] => True
  | (_, content) :: rest => content.IsNormal ∧ MembersNormal rest

end

/-- Items are normal when each of them is. -/
theorem itemsNormal_iff {items : List Json} :
    ItemsNormal items ↔ ∀ item ∈ items, item.IsNormal := by
  induction items with
  | nil => simp [ItemsNormal]
  | cons item rest ih => simp [ItemsNormal, ih]

/-- Members are normal when the content of each of them is. -/
theorem membersNormal_iff {members : List (String × Json)} :
    MembersNormal members ↔ ∀ member ∈ members, member.2.IsNormal := by
  induction members with
  | nil => simp [MembersNormal]
  | cons member rest ih => obtain ⟨key, content⟩ := member; simp [MembersNormal, ih]

mutual

/-- Normalizing leaves every object with ascending keys. -/
theorem isNormal_normalize : ∀ json : Json, json.normalize.IsNormal
  | .null | .bool _ | .number _ | .string _ => trivial
  | .array items => itemsNormal_normalizeItems items
  | .object members =>
    ⟨Entries.ascending_ofList _, membersNormal_iff.2 (fun member hmem =>
      membersNormal_iff.1 (membersNormal_normalizeMembers members) member
        (Entries.mem_of_mem_ofList hmem))⟩

/-- Normalizing items leaves them normal. -/
theorem itemsNormal_normalizeItems : ∀ items : List Json, ItemsNormal (normalizeItems items)
  | [] => trivial
  | item :: rest => ⟨isNormal_normalize item, itemsNormal_normalizeItems rest⟩

/-- Normalizing members leaves their contents normal. -/
theorem membersNormal_normalizeMembers :
    ∀ members : List (String × Json), MembersNormal (normalizeMembers members)
  | [] => trivial
  | (_, content) :: rest => ⟨isNormal_normalize content, membersNormal_normalizeMembers rest⟩

end

/-- JSON in which the keys of every object ascend. -/
structure Value where
  /-- The JSON. -/
  json : Json
  /-- The keys of every object ascend. -/
  normal : json.IsNormal

/-- The value that is meant by JSON as it is written. -/
def toValue (json : Json) : Value :=
  ⟨json.normalize, isNormal_normalize json⟩

end Json

end MarkupQuery
