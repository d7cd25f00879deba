import MarkupQuery.Json.Write
import MarkupQuery.Proofs.Json.StringText

/-!
# Texts made of texts

What is written for JSON does not depend on what stands behind it. So the text of an array is made of
the texts of its items, and the text of an object of the texts of its members, with commas between
them.

## Main definitions

- `Json.joinTexts`: texts with commas between them. `Json.enclose`: the same with a bracket around them.
- `Json.memberText`: the text of a member.

## Main results

- `Json.write_eq_append`: what is written does not depend on what stands behind.
- `Json.enclose_append`: a bracket in front of a text.
- `Json.write_array`, `Json.write_object`: arrays and objects are written as the texts of what stands in
  them.
-/

namespace MarkupQuery.Json

/-! ### What stands behind -/

/-- What is written for a string does not depend on what stands behind. -/
theorem string_write_eq_append (content : String) (rest : List Char) :
    StringText.write content rest = StringText.write content [] ++ rest := by
  rw [StringText.write_eq, StringText.write_eq content [], List.cons_append, List.append_assoc]
  rfl

mutual

/-- What is written does not depend on what stands behind. -/
theorem write_eq_append : ∀ (json : Json) (rest : List Char), json.write rest = json.write [] ++ rest
  | .null, _ | .bool true, _ | .bool false, _ => rfl
  | .number value, rest => by rw [write, write, List.append_nil]
  | .string value, rest => string_write_eq_append value rest
  | .array items, rest => by
    rw [write, write, writeItems_eq_append true items (']' :: rest),
      writeItems_eq_append true items [']'], List.cons_append, List.append_assoc]
    rfl
  | .object members, rest => by
    rw [write, write, writeMembers_eq_append true members ('\x7d' :: rest),
      writeMembers_eq_append true members ['\x7d'], List.cons_append, List.append_assoc]
    rfl

/-- What is written for items does not depend on what stands behind. -/
theorem writeItems_eq_append (isFirst : Bool) : ∀ (items : List Json) (rest : List Char),
    writeItems isFirst items rest = writeItems isFirst items [] ++ rest
  | [], _ => rfl
  | item :: items, rest => by
    rw [writeItems, writeItems, write_eq_append item (writeItems false items rest),
      write_eq_append item (writeItems false items []), writeItems_eq_append false items rest]
    cases isFirst <;> simp [writeComma]

/-- What is written for members does not depend on what stands behind. -/
theorem writeMembers_eq_append (isFirst : Bool) : ∀ (members : List (String × Json))
    (rest : List Char), writeMembers isFirst members rest = writeMembers isFirst members [] ++ rest
  | [], _ => rfl
  | (key, content) :: members, rest => by
    rw [writeMembers, writeMembers, string_write_eq_append,
      string_write_eq_append key (':' :: content.write (writeMembers false members [])),
      write_eq_append content (writeMembers false members rest),
      write_eq_append content (writeMembers false members []),
      writeMembers_eq_append false members rest]
    cases isFirst <;> simp [writeComma]

end

/-! ### Texts with commas between them -/

/-- Write texts one after the other before the rest of a text, with a comma before each of them but the
first of all. -/
def joinTexts (isFirst : Bool) : List (List Char) → List Char → List Char
  | [], rest => rest
  | text :: texts, rest => writeComma isFirst (text ++ joinTexts false texts rest)

/-- From the first one on, the texts stand between commas. -/
theorem joinTexts_true (texts : List (List Char)) (rest : List Char) :
    joinTexts true texts rest = [','].intercalate texts ++ rest := by
  induction texts with
  | nil => rfl
  | cons text texts ih =>
    cases texts with
    | nil =>
      rw [List.intercalate_singleton]
      rfl
    | cons next texts =>
      -- The next text is written with the comma before it, and apart from that like a first one.
      have hnext : joinTexts false (next :: texts) rest = ',' :: joinTexts true (next :: texts) rest :=
        rfl
      rw [joinTexts, hnext, ih, List.intercalate_cons_cons, List.append_assoc, List.append_assoc]
      rfl

/-- Items are written as their texts with commas between them. -/
theorem writeItems_eq_joinTexts (isFirst : Bool) (items : List Json) (rest : List Char) :
    writeItems isFirst items rest = joinTexts isFirst (items.map (·.write [])) rest := by
  induction items generalizing isFirst with
  | nil => rfl
  | cons item items ih => rw [writeItems, write_eq_append, ih, List.map_cons, joinTexts]

/-- The text of a member: its key, a colon and the text of its content. -/
def memberText (key : String) (content : List Char) : List Char :=
  StringText.write key (':' :: content)

/-- What is written for a member stands before the rest. -/
theorem memberText_append (key : String) (content rest : List Char) :
    memberText key content ++ rest = StringText.write key (':' :: (content ++ rest)) := by
  rw [memberText, string_write_eq_append, string_write_eq_append key (':' :: (content ++ rest)),
    List.append_assoc]
  rfl

/-- Members are written as their texts with commas between them. -/
theorem writeMembers_eq_joinTexts (isFirst : Bool) (members : List (String × Json))
    (rest : List Char) :
    writeMembers isFirst members rest =
      joinTexts isFirst (members.map fun member => memberText member.1 (member.2.write [])) rest := by
  induction members generalizing isFirst with
  | nil => rfl
  | cons member members ih =>
    rw [writeMembers, write_eq_append, ih, List.map_cons, joinTexts, memberText_append]

/-- The text of what stands within a bracket, item by item, with the bracket around it. -/
def enclose (bracket : Bracket) (texts : List (List Char)) : List Char :=
  bracket.opening :: ([','].intercalate texts ++ [bracket.closing])

/-- After its opening, a bracket is its items and its closing. -/
theorem enclose_append (bracket : Bracket) (texts : List (List Char)) (rest : List Char) :
    enclose bracket texts ++ rest =
      bracket.opening :: joinTexts true texts (bracket.closing :: rest) := by
  rw [enclose, joinTexts_true, List.cons_append, List.append_assoc]
  rfl

/-- An array is written as the texts of its items, enclosed. -/
theorem write_array (items : List Json) :
    (array items).write [] = enclose .array (items.map (·.write [])) := by
  rw [write, writeItems_eq_joinTexts, ← List.append_nil (enclose _ _), enclose_append]
  rfl

/-- An object is written as the texts of its members, enclosed. -/
theorem write_object (members : List (String × Json)) :
    (object members).write [] =
      enclose .object (members.map fun member => memberText member.1 (member.2.write [])) := by
  rw [write, writeMembers_eq_joinTexts, ← List.append_nil (enclose _ _), enclose_append]
  rfl

/-- The text of an array is made of the texts of its items, brackets and commas. -/
theorem compact_array (items : List Json) :
    (Json.array items).compact = "[" ++ ",".intercalate (items.map compact) ++ "]" := by
  have htexts : (items.map compact).map String.toList = items.map (·.write []) := by
    rw [List.map_map]
    exact List.map_congr_left fun item _ => String.toList_ofList
  apply String.toList_injective
  rw [compact, String.toList_ofList, write_array, String.toList_append, String.toList_append,
    String.toList_intercalate, htexts]
  rfl

end MarkupQuery.Json
