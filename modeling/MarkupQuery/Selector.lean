import MarkupQuery.Node.Basic

/-!
# Selectors

A selector names a tag and may require attributes to have given values. The requirements are a
list: repeating one changes nothing, and two values required of one attribute are met by no node.

## Main definitions

- `Selector`: a tag name with its requirements.
- `Selector.tag`, `Selector.withAttributes`, `Selector.requiring`: making selectors.
- `Selector.selects`: whether a node is selected.
-/

namespace MarkupQuery

/-- A tag name with required attributes. -/
structure Selector where
  /-- The name that a node must have. -/
  name : String
  /-- The attributes that a node must have, with their values, in the order they were required. -/
  required : List (String × String)
deriving DecidableEq

namespace Selector

/-- Select by tag name alone. -/
def tag (name : String) : Selector :=
  ⟨name, []⟩

/-- Select by tag name and every entry of an attribute mapping. -/
def withAttributes (name : String) (filter : Attributes) : Selector :=
  ⟨name, filter.entries⟩

/-- Require one more attribute. -/
def requiring (selector : Selector) (key value : String) : Selector :=
  { selector with required := selector.required ++ [(key, value)] }

/-- Whether a node has the name and all the required attributes. A text node has no name. -/
def selects (selector : Selector) (node : Node) : Bool :=
  node.name? = some selector.name ∧
    ∀ pair ∈ selector.required, node.attribute? pair.1 = some pair.2

end Selector

end MarkupQuery
