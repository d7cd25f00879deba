import MarkupQuery.Json.Basic
import MarkupQuery.Proofs.Entries

/-!
# Normal JSON

Normalizing JSON changes nothing but the members of its objects, which are written in turn into
entries with ascending keys. What a look-up finds in a normalized object is the normalized content
of the last member with that key.

## Main definitions

- `Json.parts`: what stands directly in an array or an object.
- `Json.normalMembers`: the members of a normalized object.

## Main results

- `Json.induct`: induction from what stands in an array or an object.
- `Json.lookup_normalMembers`: a key that occurs once has the same content, normalized.
-/

namespace MarkupQuery.Json

/-- What stands directly in an array or an object. -/
def parts : Json → List Json
  | .array items => items
  | .object members => members.map Prod.snd
  | _ => []

mutual

/-- What holds of JSON whenever it holds of all that stands in it holds of all JSON. -/
theorem induct {motive : Json → Prop}
    (json : ∀ json : Json, (∀ part ∈ json.parts, motive part) → motive json) :
    ∀ json, motive json
  | .null | .bool _ | .number _ | .string _ => json _ nofun
  | .array items => json _ (inductItems json items)
  | .object members => json _ (inductMembers json members)

/-- What holds of JSON whenever it holds of all that stands in it holds of all items of a list. -/
theorem inductItems {motive : Json → Prop}
    (json : ∀ json : Json, (∀ part ∈ json.parts, motive part) → motive json) :
    ∀ items : List Json, ∀ item ∈ items, motive item
  | [] => nofun
  | first :: rest => fun item hmem =>
    (List.mem_cons.1 hmem).elim (fun h => h ▸ induct json first) (inductItems json rest item)

/-- What holds of JSON whenever it holds of all that stands in it holds of all contents of members. -/
theorem inductMembers {motive : Json → Prop}
    (json : ∀ json : Json, (∀ part ∈ json.parts, motive part) → motive json) :
    ∀ members : List (String × Json), ∀ part ∈ members.map Prod.snd, motive part
  | [] => nofun
  | (_, content) :: rest => fun part hmem =>
    (List.mem_cons.1 hmem).elim (fun h => h ▸ induct json content) (inductMembers json rest part)

end

/-- What stands in normal JSON is normal. -/
theorem IsNormal.part {json part : Json} (h : json.IsNormal) (hmem : part ∈ json.parts) :
    part.IsNormal := by
  cases json with
  | null | bool | number | string => cases hmem
  | array items => exact itemsNormal_iff.1 h part hmem
  | object members =>
    obtain ⟨member, hmember, rfl⟩ := List.mem_map.1 hmem
    exact membersNormal_iff.1 h.2 member hmember

/-- The members of the normalized object. -/
def normalMembers (members : List (String × Json)) : List (String × Json) :=
  Entries.ofList (normalizeMembers members)

/-- Normalizing items normalizes each of them. -/
theorem normalizeItems_eq_map (items : List Json) : normalizeItems items = items.map normalize := by
  induction items with
  | nil => rfl
  | cons item rest ih => rw [normalizeItems, ih, List.map_cons]

/-- Normalizing members normalizes the content of each of them. -/
theorem normalizeMembers_eq_map (members : List (String × Json)) :
    normalizeMembers members = members.map (fun member => (member.1, member.2.normalize)) := by
  induction members with
  | nil => rfl
  | cons member rest ih => rw [normalizeMembers, ih, List.map_cons]

/-- An array is normalized item by item. -/
theorem normalize_array (items : List Json) :
    (array items).normalize = .array (items.map normalize) := by
  rw [normalize, normalizeItems_eq_map]

/-- An object is normalized to its normal members. -/
theorem normalize_object (members : List (String × Json)) :
    (object members).normalize = .object (normalMembers members) :=
  rfl

/-- The keys of normal members ascend. -/
theorem ascending_normalMembers (members : List (String × Json)) :
    Entries.Ascending (normalMembers members) :=
  Entries.ascending_ofList _

/-- Normalizing the contents leaves the keys as they are. -/
theorem once_normalizeMembers {members : List (String × Json)} {key : String} :
    Entries.Once (normalizeMembers members) key ↔ Entries.Once members key := by
  rw [normalizeMembers_eq_map, Entries.Once, List.map_map]
  rfl

/-- A key that occurs once has the same content in the normal members, normalized. -/
theorem lookup_normalMembers {members : List (String × Json)} {key : String}
    (honce : Entries.Once members key) :
    List.lookup key (normalMembers members) = (members.lookup key).map normalize := by
  rw [normalMembers, Entries.lookup_ofList_of_once (once_normalizeMembers.2 honce),
    normalizeMembers_eq_map, Entries.lookup_map]

/-- A member whose key occurs once is among the normal members, normalized. -/
theorem mem_normalMembers_of_once {members : List (String × Json)} {key : String} {content : Json}
    (honce : Entries.Once members key) (hmem : (key, content) ∈ members) :
    (key, content.normalize) ∈ normalMembers members := by
  refine Entries.mem_ofList (once_normalizeMembers.2 honce) ?_
  rw [normalizeMembers_eq_map]
  exact List.mem_map_of_mem (f := fun member => (member.1, member.2.normalize)) hmem

/-- Only a string is a string when normalized. -/
theorem eq_string_of_normalize {json : Json} {value : String}
    (h : json.normalize = .string value) : json = .string value := by
  cases json <;> simp_all [normalize]

end MarkupQuery.Json
