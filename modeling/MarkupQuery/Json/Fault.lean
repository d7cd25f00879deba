import MarkupQuery.Decimal.Layout
import MarkupQuery.Json.Basic
import MarkupQuery.Text.Quoted

/-!
# Faults in JSON

A text may not be JSON at all, or it may be JSON of another form than is wanted. Both are causes for
refusing it. A fault is a cause together with the place where it was met, given by the rest of the
text from there, so that it does not depend on what stands before.

## Main definitions

- `Found`, `Wanted`: what was met and what would have been accepted in its place.
- `Offence`: JSON of another form than is wanted. `Cause`: any reason for refusing a text.
- `Fault`: a cause at a place.
- `Position`: a line and a column, and `Fault.position`, those of a fault in a text.
-/

namespace MarkupQuery

/-- What was met where something else was wanted. -/
inductive Found where
  /-- The literal `null`. -/
  | null
  /-- A truth value. -/
  | bool (value : Bool)
  /-- A number. -/
  | number (value : Number)
  /-- A string. -/
  | string (value : String)
  /-- An array. -/
  | array
  /-- An object. -/
  | object

/-- What is wanted. -/
inductive Wanted where
  /-- A string. -/
  | string
  /-- An object of strings. -/
  | map
  /-- An array of nodes. -/
  | sequence
  /-- An object or an array that describes a node. -/
  | node
deriving DecidableEq

/-- A way in which JSON has another form than is wanted. -/
inductive Offence where
  /-- Something is there in the place of another thing. -/
  | invalidType (found : Found) (wanted : Wanted)
  /-- An array has so many items, which is more than there are fields. -/
  | invalidLength (length : Nat)
  /-- A field is given twice. -/
  | duplicateField (field : String)

/-- A reason for refusing a text. -/
inductive Cause where
  /-- The text ends where a value is to follow or has begun. -/
  | endOfValue
  /-- The text ends within a string. -/
  | endOfString
  /-- The text ends within an array. -/
  | endOfArray
  /-- The text ends within an object. -/
  | endOfObject
  /-- A word begins like a literal and goes on otherwise. -/
  | expectedLiteral
  /-- No value begins with this character. -/
  | expectedValue
  /-- A key is not followed by a colon. -/
  | expectedColon
  /-- An item is followed by neither a comma nor the end of the array. -/
  | expectedCommaInArray
  /-- A member is followed by neither a comma nor the end of the object. -/
  | expectedCommaInObject
  /-- A number has no digit where it needs one, or a zero too many in front. -/
  | invalidNumber
  /-- A number is too large. -/
  | numberOutOfRange
  /-- There is no such escape in a string. -/
  | invalidEscape
  /-- Half of a surrogate pair stands alone. -/
  | loneSurrogate
  /-- The second half of a surrogate pair is missing. -/
  | endOfEscape
  /-- A string holds a control character that is not escaped. -/
  | controlCharacter
  /-- A member of an object does not begin with a string. -/
  | keyNotString
  /-- A comma is followed by the end of its array or object. -/
  | trailingComma
  /-- Something follows where nothing may. -/
  | trailingCharacters
  /-- Too many arrays and objects are open. -/
  | recursionLimit
  /-- What stands here is JSON, but not of the form that is wanted. -/
  | offence (form : Offence)

/-- Numbers in messages are written plainly from a hundred-thousandth up to below `10 ^ 16`. -/
def Number.layout : DecimalLayout :=
  ⟨-5, 15⟩

/-- The text of a number. -/
def Number.text : Number → String
  | .integer value => toString value
  | .float value => layout.write (.ofFloat value)

/-- What JSON is met as. -/
def Json.found : Json → Found
  | .null => .null
  | .bool value => .bool value
  | .number value => .number value
  | .string value => .string value
  | .array _ => .array
  | .object _ => .object

/-- What was met, with its content if it is not an array or an object. -/
def Found.text : Found → String
  | .null => "null"
  | .bool value => "boolean `" ++ (if value then "true" else "false") ++ "`"
  | .number (.integer value) => "integer `" ++ (Number.integer value).text ++ "`"
  | .number (.float value) => "floating point `" ++ (Number.float value).text ++ "`"
  | .string value => "string " ++ Quoted.ofString value
  | .array => "sequence"
  | .object => "map"

/-- What is wanted, in words. -/
def Wanted.text : Wanted → String
  | .string => "a string"
  | .map => "a map"
  | .sequence => "a sequence"
  | .node => "struct RawNode"

/-- What is wrong with the form. -/
def Offence.message : Offence → String
  | .invalidType found wanted => "invalid type: " ++ found.text ++ ", expected " ++ wanted.text
  | .invalidLength length =>
    "invalid length " ++ toString length ++ ", expected fewer elements in array"
  | .duplicateField field => "duplicate field `" ++ field ++ "`"

/-- Why a text is refused. -/
def Cause.message : Cause → String
  | .endOfValue => "EOF while parsing a value"
  | .endOfString => "EOF while parsing a string"
  | .endOfArray => "EOF while parsing a list"
  | .endOfObject => "EOF while parsing an object"
  | .expectedLiteral => "expected ident"
  | .expectedValue => "expected value"
  | .expectedColon => "expected `:`"
  | .expectedCommaInArray => "expected `,` or `]`"
  | .expectedCommaInObject => "expected `,` or `\x7d`"
  | .invalidNumber => "invalid number"
  | .numberOutOfRange => "number out of range"
  | .invalidEscape => "invalid escape"
  | .loneSurrogate => "lone leading surrogate in hex escape"
  | .endOfEscape => "unexpected end of hex escape"
  | .controlCharacter =>
    "control character (\\u0000-\\u001F) found while parsing a string"
  | .keyNotString => "key must be a string"
  | .trailingComma => "trailing comma"
  | .trailingCharacters => "trailing characters"
  | .recursionLimit => "recursion limit exceeded"
  | .offence form => form.message

/-- A cause with the place where it was met. -/
structure Fault where
  /-- Why the text is refused. -/
  cause : Cause
  /-- The rest of the text from the place on. -/
  rest : List Char
  /-- The number of bytes of the rest that belong to the fault. -/
  ahead : Nat

/-- A fault before the rest of the text. -/
def Fault.before (cause : Cause) (rest : List Char) : Fault :=
  ⟨cause, rest, 0⟩

/-- A fault at the first byte of the rest, if there is one. -/
def Fault.on (cause : Cause) (rest : List Char) : Fault :=
  ⟨cause, rest, 1⟩

/-- The number of bytes of a text. -/
def byteLength (text : List Char) : Nat :=
  text.foldl (fun length char => length + char.utf8Size) 0

/-- A line, counted from 1, and the number of bytes before a place in it. -/
structure Position where
  /-- The line. -/
  line : Nat
  /-- The number of bytes of the line before the place. -/
  column : Nat
deriving DecidableEq

namespace Position

/-- The position that is reached from a given one after so many bytes of the text. -/
def advance (position : Position) (text : List Char) (offset : Nat) : Position :=
  match text with
  | [] => position
  | char :: rest =>
    if offset < char.utf8Size then { position with column := position.column + offset }
    else if char = '\n' then advance ⟨position.line + 1, 0⟩ rest (offset - char.utf8Size)
    else
      advance { position with column := position.column + char.utf8Size } rest
        (offset - char.utf8Size)

/-- The position after so many bytes of a text. -/
def ofOffset (text : List Char) (offset : Nat) : Position :=
  advance ⟨1, 0⟩ text offset

end Position

/-- The position of a fault in the text whose rest it was met at. It never lies past the end. -/
def Fault.position (fault : Fault) (text : List Char) : Position :=
  let length := byteLength text
  .ofOffset text (min length (length - byteLength fault.rest + fault.ahead))

end MarkupQuery
