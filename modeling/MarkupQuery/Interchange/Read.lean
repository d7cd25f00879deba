import MarkupQuery.Interchange.Field
import MarkupQuery.Json.Skip

/-!
# Reading nodes from text

A description of a node is read straight from a text: each field is read in the form that is wanted
for it, and what is given for other keys is passed over, however deeply it is nested. The brackets of a
node, of its attributes and of its children may be open only so many at once.

## Main definitions

- `Node.readAttributes`: the attributes of a node.
- `Node.readMember`: one member of a node, `Node.readItems`: its fields without keys.
- `Node.reader`, `Node.listReader`: a node and a list of nodes in which so many brackets may be open
  at once.
- `Node.read`: a whole text.
-/

namespace MarkupQuery.Node

/-- Read attributes. Unless `mayOpen`, no bracket may be opened. -/
def readAttributes (mayOpen : Bool) : Reader Attributes where
  run text :=
    match skipBlanks text with
    | [] => .error (.on .endOfValue [])
    | char :: rest =>
      if char ≠ Bracket.object.opening then .error (Json.unwanted .map (char :: rest))
      else if !mayOpen then .error (.on .recursionLimit (char :: rest))
      else
        (Reader.within .object
          (fun attributes => (Reader.member Json.readString).map
            (fun (name, value) => attributes.set name value)) Attributes.empty).run rest
  length_lt {text _ _} h := by
    have hle := length_skipBlanks_le text
    split at h
    · cases h
    · next heq =>
      rw [heq, List.length_cons] at hle
      split at h
      · cases h
      split at h
      · cases h
      · exact Nat.lt_trans (Reader.length_lt _ h) hle

/-- The fault of giving a field twice. It is met before the colon, and a bracket that closes there
belongs to it. -/
def duplicate (field : Field) (text : List Char) : Fault :=
  let cause := Cause.offence (.duplicateField field.key)
  match skipBlanks text with
  | [] => .before cause []
  | char :: rest =>
    if char = Bracket.object.closing then .on cause (char :: rest) else .before cause (char :: rest)

/-- Read one member of a node into its draft. -/
def readMember (content : (field : Field) → Reader field.Content) (draft : Draft) :
    Reader Draft where
  run text := do
    let (key, rest) ← Reader.key.run text
    match Field.ofKey? key with
    | none =>
      let rest ← readColon rest
      let (_, rest) ← Json.skipper.run rest
      .ok (draft, rest)
    | some field =>
      -- A field that is given again is refused before anything is read for it.
      if draft.has field then .error (duplicate field rest)
      else
        let rest ← readColon rest
        let (content, rest) ← (content field).run rest
        .ok (draft.set field content, rest)
  length_lt h := by
    obtain ⟨⟨key, rest₁⟩, hkey, h⟩ := bind_eq_ok.1 h
    have h₁ := Reader.key.length_lt hkey
    dsimp only at h
    split at h
    · obtain ⟨rest₂, hcolon, h⟩ := bind_eq_ok.1 h
      obtain ⟨⟨_, rest₃⟩, hskip, h⟩ := bind_eq_ok.1 h
      cases h
      have h₂ := length_lt_of_readColon hcolon
      exact Nat.lt_trans (Json.skipper.length_lt hskip) (Nat.lt_trans h₂ h₁)
    · split at h
      · cases h
      · obtain ⟨rest₂, hcolon, h⟩ := bind_eq_ok.1 h
        obtain ⟨⟨_, rest₃⟩, hcontent, h⟩ := bind_eq_ok.1 h
        cases h
        have h₂ := length_lt_of_readColon hcolon
        exact Nat.lt_trans ((content _).length_lt hcontent) (Nat.lt_trans h₂ h₁)

/-- Read the end of an array all of whose fields have been read. -/
def readEnd (text : List Char) : Except Fault (List Char) :=
  match skipBlanks text with
  | [] => .error (.on .endOfArray [])
  | char :: rest =>
    if char = Bracket.array.closing then .ok rest
    else if char ≠ ',' then .error (.on .trailingCharacters (char :: rest))
    else
      match skipBlanks rest with
      | [] => .error (.on .trailingCharacters [])
      | char :: rest =>
        .error (.on (if char = Bracket.array.closing then .trailingComma else .trailingCharacters)
          (char :: rest))

/-- The end of an array is a character. -/
theorem length_lt_of_readEnd {text rest : List Char} (h : readEnd text = .ok rest) :
    rest.length < text.length := by
  have hle := length_skipBlanks_le text
  rw [readEnd] at h
  split at h
  · cases h
  · next heq =>
    rw [heq] at hle
    split at h
    · cases h; exact hle
    split at h
    · cases h
    · split at h <;> cases h

/-- Read fields without keys into a draft, in the given order, up to the end of the array. -/
def readItems (content : (field : Field) → Reader field.Content) (isFirst : Bool) (draft : Draft)
    (fields : List Field) (text : List Char) : Except Fault (Draft × List Char) :=
  match fields with
  | [] => do
    let rest ← readEnd text
    .ok (draft, rest)
  | field :: fields => do
    match ← Bracket.array.turn isFirst text with
    | (.close, rest) => .ok (draft, rest)
    | (.item, rest) =>
      let (content', rest) ← (content field).run rest
      readItems content false (draft.set field content') fields rest

/-- The end of the array is read, too. -/
theorem length_lt_of_readItems {content : (field : Field) → Reader field.Content} {isFirst : Bool}
    {draft result : Draft} {fields : List Field} {text rest : List Char}
    (h : readItems content isFirst draft fields text = .ok (result, rest)) :
    rest.length < text.length := by
  induction fields generalizing isFirst draft text with
  | nil =>
    obtain ⟨_, hend, h⟩ := bind_eq_ok.1 h
    cases h
    exact length_lt_of_readEnd hend
  | cons field fields ih =>
    obtain ⟨⟨next, rest₁⟩, hturn, h⟩ := bind_eq_ok.1 h
    have h₁ := Bracket.length_le_of_turn hturn
    cases next with
    | close => cases h; exact h₁.2 rfl
    -- The end of the array is read after the fields that are left.
    | item =>
      obtain ⟨⟨_, rest₂⟩, hcontent, h⟩ := bind_eq_ok.1 h
      have h₂ := (content field).length_lt hcontent
      have h₃ := ih h
      omega

/-- Read a node. What is given for its fields is read by `content?`; if that is absent, no bracket may
be opened. -/
def readerWithin (content? : Option ((field : Field) → Reader field.Content)) : Reader Node where
  run text :=
    match skipBlanks text with
    | [] => .error (.on .endOfValue [])
    | char :: rest =>
      match Bracket.opened? char, content? with
      | none, _ => .error (Json.unwanted .node (char :: rest))
      | some _, none => .error (.on .recursionLimit (char :: rest))
      | some .array, some content => do
        let (draft, rest) ← readItems content true .empty Field.all rest
        .ok (draft.node, rest)
      | some .object, some content =>
        ((Reader.within .object (readMember content) .empty).map Draft.node).run rest
  length_lt {text _ _} h := by
    have hle := length_skipBlanks_le text
    split at h
    · cases h
    · next heq =>
      rw [heq, List.length_cons] at hle
      split at h
      · cases h
      · cases h
      · obtain ⟨_, hitems, h⟩ := bind_eq_ok.1 h
        cases h
        exact Nat.lt_trans (length_lt_of_readItems hitems) hle
      · exact Nat.lt_trans (Reader.length_lt _ h) hle

/-- Read a list of nodes. The nodes are read by `node?`; if that is absent, no bracket may be
opened. -/
def listReaderWithin (node? : Option (Reader Node)) : Reader (List Node) where
  run text :=
    match skipBlanks text with
    | [] => .error (.on .endOfValue [])
    | char :: rest =>
      if char ≠ Bracket.array.opening then .error (Json.unwanted .sequence (char :: rest))
      else
        match node? with
        | none => .error (.on .recursionLimit (char :: rest))
        | some node => node.list.run rest
  length_lt {text _ _} h := by
    have hle := length_skipBlanks_le text
    split at h
    · cases h
    · next heq =>
      rw [heq, List.length_cons] at hle
      split at h
      · cases h
      split at h
      · cases h
      · exact Nat.lt_trans (Reader.length_lt _ h) hle

mutual

/-- Read a node in which up to `depth` brackets may be open at once. -/
def reader : (depth : Nat) → Reader Node
  | 0 => readerWithin none
  | depth + 1 =>
    readerWithin <| some fun
      | .name | .kind | .value => Json.readString
      | .attributes => readAttributes (depth ≠ 0)
      | .children => listReader depth

/-- Read a list of nodes in which up to `depth` brackets may be open at once. -/
def listReader : (depth : Nat) → Reader (List Node)
  | 0 => listReaderWithin none
  | depth + 1 => listReaderWithin (some (reader depth))

end

/-- Read a whole text as the description of a node. -/
def read (text : List Char) : Except Fault Node :=
  (reader Json.nestingLimit).readWhole text

end MarkupQuery.Node
