import MarkupQuery.Event
import MarkupQuery.Interchange.Decode
import MarkupQuery.Interchange.Encode
import MarkupQuery.Interchange.Read

/-!
# Loading nodes

A node is loaded from the text of its description or from a value, and a list of nodes from the text of
an array of descriptions. A success is reported, a failure is not.

A text that describes one node is read straight into the node. A text that describes a list is first
read as a value, so that in the nodes of a list the last of repeated keys counts, and offences are
told without their place.

## Main definitions

- `LoadError`: why nothing was loaded. `Json.typeName`: the name of what is found in place of an array.
- `Json.Value.ofText`: the value of a text.
- `Node.load`, `Node.loadValue`, `Node.loadMany`: load a node from a text or from a value, and a list
  of nodes from a text.
-/

namespace MarkupQuery

/-- Why nothing was loaded. -/
inductive LoadError where
  /-- The text is refused, at a position unless it is the value that has another form. -/
  | json (cause : Cause) (position? : Option Position)
  /-- The text should be an array but is something else, whose type has a name. -/
  | notAnArray (typeName : String)

namespace LoadError

/-- The error of a fault in a text. -/
def ofFault (text : List Char) (fault : Fault) : LoadError :=
  .json fault.cause (some (fault.position text))

/-- The error of a value of another form. -/
def ofOffence (offence : Offence) : LoadError :=
  .json (.offence offence) none

/-- What went wrong. -/
def message : LoadError → String
  | .json cause none => "Invalid AST JSON: " ++ cause.message
  | .json cause (some position) =>
    "Invalid AST JSON: " ++ cause.message ++ " at line " ++ toString position.line ++
      " column " ++ toString position.column
  | .notAnArray typeName => "Expected a JSON array of nodes, found " ++ typeName

end LoadError

/-- The name of a type of JSON. -/
def Json.typeName : Json → String
  | .null => "null"
  | .bool _ => "boolean"
  | .number _ => "number"
  | .string _ => "string"
  | .array _ => "array"
  | .object _ => "object"

/-- The value of a text. -/
def Json.Value.ofText (text : String) : Except LoadError Json.Value :=
  match Json.read text.toList with
  | .ok json => .ok json.toValue
  | .error fault => .error (.ofFault text.toList fault)

namespace Node

/-- A loaded node, with its name reported. -/
def loaded (node : Node) : Traced (Except LoadError Node) :=
  ⟨.ok node, [.loadedTree (node.name?.getD "")]⟩

/-- Load a node from a text. -/
def load (text : String) : Traced (Except LoadError Node) :=
  match read text.toList with
  | .ok node => loaded node
  | .error fault => ⟨.error (.ofFault text.toList fault), []⟩

/-- Load a node from a value. -/
def loadValue (value : Json.Value) : Traced (Except LoadError Node) :=
  match ofValue value with
  | .ok node => loaded node
  | .error offence => ⟨.error (.ofOffence offence), []⟩

/-- Load a list of nodes from a text. Either all of them are loaded or none. -/
def loadMany (text : String) : Traced (Except LoadError (List Node)) :=
  match Json.Value.ofText text with
  | .error error => ⟨.error error, []⟩
  | .ok value =>
    match value.json with
    | .array items =>
      match ofJsonAll items with
      | .ok nodes => ⟨.ok nodes, [.loadedTrees nodes.length]⟩
      | .error offence => ⟨.error (.ofOffence offence), []⟩
    | json => ⟨.error (.notAnArray json.typeName), []⟩

end Node

end MarkupQuery
