import MarkupQuery.Json.NumberText
import MarkupQuery.Json.StringText

/-!
# Reading JSON

A text is read as JSON with its members in the order of the text. Only so many arrays and objects
may be open at once; opening one more is a fault even if it is empty.

## Main definitions

- `Json.readScalar`: a value that is neither an array nor an object.
- `Reader.list`, `Reader.member`, `Reader.members`: what stands within brackets.
- `Json.reader`: a value in which so many brackets may be open at once.
- `Json.read`: a whole text.
- `Json.readString`, `Json.unwanted`: a value that is wanted to be a string, and the fault of one that
  is not of the wanted form.
-/

namespace MarkupQuery

namespace Reader

variable {α : Type}

/-- Read the items of an array whose bracket has been opened. -/
def list (item : Reader α) : Reader (List α) :=
  (within .array (fun soFar => item.map (· :: soFar)) []).map List.reverse

/-- Read a key, which is a string. -/
def key : Reader String where
  run text :=
    match text with
    | '"' :: rest => StringText.readTail.run rest
    | text => .error (.on .keyNotString text)
  length_lt h := by
    split at h
    · exact Nat.lt_succ_of_lt (StringText.readTail.length_lt h)
    · cases h

/-- Read a key with what is given for it. -/
def member (content : Reader α) : Reader (String × α) where
  run text := do
    let (key, rest) ← key.run text
    let rest ← readColon rest
    let (content, rest) ← content.run rest
    .ok ((key, content), rest)
  length_lt h := by
    obtain ⟨⟨key, rest₁⟩, hkey, h⟩ := bind_eq_ok.1 h
    obtain ⟨rest₂, hcolon, h⟩ := bind_eq_ok.1 h
    obtain ⟨⟨value, rest₃⟩, hcontent, h⟩ := bind_eq_ok.1 h
    cases h
    have h₁ := Reader.key.length_lt hkey
    have h₂ := length_lt_of_readColon hcolon
    have h₃ := content.length_lt hcontent
    omega

/-- Read the members of an object whose bracket has been opened. -/
def members (content : Reader α) : Reader (List (String × α)) :=
  (within .object (fun soFar => (member content).map (· :: soFar)) []).map List.reverse

end Reader

namespace Json

/-- Read a value that is neither an array nor an object. -/
def readScalar (text : List Char) : Except Fault (Json × List Char) :=
  match text with
  | [] => .error (.on .endOfValue [])
  | 'n' :: rest => do
    let rest ← readLiteral ['u', 'l', 'l'] rest
    .ok (.null, rest)
  | 't' :: rest => do
    let rest ← readLiteral ['r', 'u', 'e'] rest
    .ok (.bool true, rest)
  | 'f' :: rest => do
    let rest ← readLiteral ['a', 'l', 's', 'e'] rest
    .ok (.bool false, rest)
  | '"' :: rest => do
    let (content, rest) ← StringText.readTail.run rest
    .ok (.string content, rest)
  | '-' :: rest => do
    let (value, rest) ← NumberText.read true rest
    .ok (.number value, rest)
  | char :: rest =>
    if char.isDigit then do
      let (value, rest) ← NumberText.read false (char :: rest)
      .ok (.number value, rest)
    else .error (.on .expectedValue (char :: rest))

/-- A value is at least one character. -/
theorem length_lt_of_readScalar {text rest : List Char} {json : Json}
    (h : readScalar text = .ok (json, rest)) : rest.length < text.length := by
  rw [readScalar.eq_def] at h
  split at h
  · cases h
  · obtain ⟨_, hword, h⟩ := bind_eq_ok.1 h
    cases h
    exact Nat.lt_succ_of_le (length_le_of_readLiteral hword)
  · obtain ⟨_, hword, h⟩ := bind_eq_ok.1 h
    cases h
    exact Nat.lt_succ_of_le (length_le_of_readLiteral hword)
  · obtain ⟨_, hword, h⟩ := bind_eq_ok.1 h
    cases h
    exact Nat.lt_succ_of_le (length_le_of_readLiteral hword)
  · obtain ⟨_, hcontent, h⟩ := bind_eq_ok.1 h
    cases h
    exact Nat.lt_succ_of_lt (StringText.readTail.length_lt hcontent)
  · obtain ⟨_, hnumber, h⟩ := bind_eq_ok.1 h
    cases h
    exact Nat.lt_succ_of_lt (NumberText.length_lt_of_read hnumber)
  · split at h
    · obtain ⟨_, hnumber, h⟩ := bind_eq_ok.1 h
      cases h
      exact NumberText.length_lt_of_read hnumber
    · cases h

/-- Read a value. Within its brackets values are read by `nested?`; if that is absent, no bracket may
be opened. -/
def readerWithin (nested? : Option (Reader Json)) : Reader Json where
  run text :=
    match skipBlanks text with
    | [] => .error (.on .endOfValue [])
    | char :: rest =>
      match Bracket.opened? char, nested? with
      | none, _ => readScalar (char :: rest)
      | some _, none => .error (.on .recursionLimit (char :: rest))
      | some .array, some nested => (nested.list.map .array).run rest
      | some .object, some nested => (nested.members.map .object).run rest
  length_lt {text _ _} h := by
    have hle := length_skipBlanks_le text
    split at h
    · cases h
    · next heq =>
      rw [heq, List.length_cons] at hle
      split at h
      · exact Nat.lt_of_lt_of_le (length_lt_of_readScalar h) (by simpa using hle)
      · cases h
      · exact Nat.lt_trans (Reader.length_lt _ h) hle
      · exact Nat.lt_trans (Reader.length_lt _ h) hle

/-- Read a value in which up to `depth` brackets may be open at once. -/
def reader : (depth : Nat) → Reader Json
  | 0 => readerWithin none
  | depth + 1 => readerWithin (some (reader depth))

/-- The number of brackets that may be open at once. -/
def nestingLimit : Nat :=
  127

/-- Read a whole text. -/
def read (text : List Char) : Except Fault Json :=
  (reader nestingLimit).readWhole text

/-! ### Values of a wanted form -/

/-- The fault of a value that is not of the wanted form, or of what is not a value. An array or an
object is refused at its bracket, any other value after it has been read. -/
def unwanted (wanted : Wanted) (text : List Char) : Fault :=
  match text with
  | [] => .on .endOfValue []
  | char :: rest =>
    match Bracket.opened? char with
    | some .array => .before (.offence (.invalidType .array wanted)) (char :: rest)
    | some .object => .before (.offence (.invalidType .object wanted)) (char :: rest)
    | none =>
      match readScalar (char :: rest) with
      | .error fault => fault
      | .ok (json, rest) => .before (.offence (.invalidType json.found wanted)) rest

/-- Read a value that has to be a string. -/
def readString : Reader String where
  run text :=
    match skipBlanks text with
    | '"' :: rest => StringText.readTail.run rest
    | text => .error (unwanted .string text)
  length_lt {text _ _} h := by
    have hle := length_skipBlanks_le text
    split at h
    · next heq =>
      rw [heq, List.length_cons] at hle
      exact Nat.lt_trans (StringText.readTail.length_lt h) hle
    · cases h

end Json

end MarkupQuery
