import MarkupQuery.Entries

/-!
# Attributes

The attributes of a node map names to values. The mapping is kept as entries with ascending names,
so the order in which attributes were set is not part of it, and two mappings that answer every
look-up alike are equal.

## Main definitions

- `Attributes`: entries whose names ascend.
- `Attributes.set`, `Attributes.ofList`: setting one attribute, or many in turn.
- `Attributes.get?`: the value of a name.

## Main results

- `Attributes.get?_set_self`, `Attributes.get?_set_of_ne`: the last value set is the one found.
-/

namespace MarkupQuery

/-- A mapping from attribute names to values. -/
structure Attributes where
  /-- The attributes in ascending order of their names. -/
  entries : Entries String
  /-- Each name occurs once, and the names ascend. -/
  ascending : entries.Ascending
deriving DecidableEq

namespace Attributes

/-- No attributes. -/
def empty : Attributes :=
  ⟨[], Entries.ascending_nil⟩

instance : Inhabited Attributes := ⟨empty⟩

/-- Set one attribute, in the stead of the value its name had. -/
def set (attributes : Attributes) (name value : String) : Attributes :=
  ⟨attributes.entries.insert name value, Entries.ascending_insert attributes.ascending name value⟩

/-- Set attributes one after the other, starting from none. -/
def ofList (entries : Entries String) : Attributes :=
  ⟨Entries.ofList entries, Entries.ascending_ofList entries⟩

/-- The value of the attribute called `name`. -/
def get? (attributes : Attributes) (name : String) : Option String :=
  attributes.entries.lookup name

/-- Whether there are no attributes. -/
def isEmpty (attributes : Attributes) : Bool :=
  attributes.entries.isEmpty

/-- Mappings with the same entries are equal. -/
@[ext]
theorem ext {a b : Attributes} (h : a.entries = b.entries) : a = b := by
  cases a; cases b; cases h; rfl

/-- An attribute that was just set has the value set. -/
@[simp]
theorem get?_set_self (attributes : Attributes) (name value : String) :
    (attributes.set name value).get? name = some value :=
  Entries.lookup_insert_self _ _ _

/-- Setting one attribute leaves the others alone. -/
theorem get?_set_of_ne (attributes : Attributes) {name other : String} (value : String)
    (hne : other ≠ name) : (attributes.set name value).get? other = attributes.get? other :=
  Entries.lookup_insert_of_ne _ value hne

end Attributes

end MarkupQuery
