import MarkupQuery.Json.StringText

/-!
# Writing JSON

JSON is written without blanks, and the members of an object in the order in which they stand. A
writer puts its text before a given rest, so that the parts of a text are written one by one from the
back and nothing is copied.

## Main definitions

- `Json.write`: write JSON before the rest of a text.
- `Json.compact`: the text of JSON.
-/

namespace MarkupQuery.Json

/-- Write the comma that stands before every item but the first. -/
def writeComma (isFirst : Bool) (rest : List Char) : List Char :=
  if isFirst then rest else ',' :: rest

mutual

/-- Write JSON before the rest of a text. -/
def write : Json → List Char → List Char
  | .null, rest => 'n' :: 'u' :: 'l' :: 'l' :: rest
  | .bool true, rest => 't' :: 'r' :: 'u' :: 'e' :: rest
  | .bool false, rest => 'f' :: 'a' :: 'l' :: 's' :: 'e' :: rest
  | .number value, rest => value.text.toList ++ rest
  | .string value, rest => StringText.write value rest
  | .array items, rest => '[' :: writeItems true items (']' :: rest)
  | .object members, rest => '\x7b' :: writeMembers true members ('\x7d' :: rest)

/-- Write the items of an array before the rest of a text. -/
def writeItems (isFirst : Bool) : List Json → List Char → List Char
  | [], rest => rest
  | item :: items, rest => writeComma isFirst (item.write (writeItems false items rest))

/-- Write the members of an object before the rest of a text. -/
def writeMembers (isFirst : Bool) : List (String × Json) → List Char → List Char
  | [], rest => rest
  | (key, content) :: members, rest =>
    writeComma isFirst
      (StringText.write key (':' :: content.write (writeMembers false members rest)))

end

/-- The text of JSON, without blanks. -/
def compact (json : Json) : String :=
  String.ofList (json.write [])

end MarkupQuery.Json
