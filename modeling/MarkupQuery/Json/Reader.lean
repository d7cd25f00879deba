import MarkupQuery.Json.Fault

/-!
# Readers

A reader takes something off the front of a text and returns it with the rest of the text, or tells
the fault that it met. It always takes at least one character, so that reading one thing after the
other comes to an end.

## Main definitions

- `Reader`: a function that reads off the front of a text and leaves a shorter rest.
- `skipBlanks`: the text without the blanks in front.
- `readLiteral`, `readColon`: the fixed pieces of the notation.
- `Bracket`: the two kinds of brackets, and `Bracket.turn`, which tells whether another item follows
  or the bracket is closed.
- `Reader.map`, `Reader.readWhole`: make something of what is read, and read a text to its end.
- `Reader.within`: all that stands within a bracket, item by item.

## Main results

- `Reader.items_eq`: what one turn contributes to reading within a bracket.
- `bind_eq_ok`: when two readings in a row succeed.
-/

namespace MarkupQuery

/-- One result after another: both are there if the two together are. -/
theorem bind_eq_ok {ε α β : Type} {first : Except ε α} {next : α → Except ε β} {result : β} :
    (first >>= next) = .ok result ↔ ∃ value, first = .ok value ∧ next value = .ok result := by
  cases first <;> simp [bind, Except.bind]

/-- What reads something off the front of a text. -/
structure Reader (α : Type) where
  /-- Read: what was read with the rest of the text, or a fault. -/
  run : List Char → Except Fault (α × List Char)
  /-- The rest is shorter than the text. -/
  length_lt : ∀ {text value rest}, run text = .ok (value, rest) → rest.length < text.length

/-! ### Blanks and fixed pieces -/

/-- Spaces, tabs and line ends may stand between any two pieces. -/
def isBlank (char : Char) : Bool :=
  char = ' ' || char = '\n' || char = '\t' || char = '\r'

/-- The text without the blanks in front. -/
def skipBlanks (text : List Char) : List Char :=
  text.dropWhile isBlank

/-- Leaving out a run of characters in front makes a text no longer. -/
theorem length_dropWhile_le (p : Char → Bool) (text : List Char) :
    (text.dropWhile p).length ≤ text.length :=
  (List.dropWhile_sublist p).length_le

/-- Skipping blanks makes a text no longer. -/
theorem length_skipBlanks_le (text : List Char) : (skipBlanks text).length ≤ text.length :=
  length_dropWhile_le _ text

/-- Read the rest of a literal whose first letter has been read. -/
def readLiteral : List Char → List Char → Except Fault (List Char)
  | [], text => .ok text
  | _ :: _, [] => .error (.before .endOfValue [])
  | letter :: letters, char :: text =>
    if char = letter then readLiteral letters text
    else .error (.on .expectedLiteral (char :: text))

/-- Reading a literal makes a text no longer. -/
theorem length_le_of_readLiteral {letters text rest : List Char}
    (h : readLiteral letters text = .ok rest) : rest.length ≤ text.length := by
  induction letters generalizing text with
  | nil => cases h; exact Nat.le_refl _
  | cons letter letters ih =>
    cases text with
    | nil => cases h
    | cons char text =>
      rw [readLiteral] at h
      split at h
      · exact Nat.le_succ_of_le (ih h)
      · cases h

/-- Read the colon between a key and what is given for it. -/
def readColon (text : List Char) : Except Fault (List Char) :=
  match skipBlanks text with
  | [] => .error (.on .endOfObject [])
  | char :: rest => if char = ':' then .ok rest else .error (.on .expectedColon (char :: rest))

/-- A colon is a character. -/
theorem length_lt_of_readColon {text rest : List Char} (h : readColon text = .ok rest) :
    rest.length < text.length := by
  have hle := length_skipBlanks_le text
  rw [readColon] at h
  split at h
  · cases h
  · next char _ heq =>
    rw [heq] at hle
    split at h
    · cases h; exact hle
    · cases h

/-! ### Brackets -/

/-- The brackets that enclose items. -/
inductive Bracket where
  /-- Square brackets, around the items of an array. -/
  | array
  /-- Braces, around the members of an object. -/
  | object
deriving DecidableEq

namespace Bracket

/-- The character that opens the bracket. -/
def opening : Bracket → Char
  | .array => '['
  | .object => '\x7b'

/-- The bracket that a character opens, if it opens one. -/
def opened? (char : Char) : Option Bracket :=
  if char = opening .array then some .array
  else if char = opening .object then some .object
  else none

/-- The character that closes the bracket. -/
def closing : Bracket → Char
  | .array => ']'
  | .object => '\x7d'

/-- The text ends before the bracket is closed. -/
def unclosed : Bracket → Cause
  | .array => .endOfArray
  | .object => .endOfObject

/-- An item is followed by something else than a comma or the end. -/
def expectedComma : Bracket → Cause
  | .array => .expectedCommaInArray
  | .object => .expectedCommaInObject

/-- What comes next within a bracket. -/
inductive Turn where
  /-- The bracket is closed. -/
  | close
  /-- An item begins. -/
  | item
deriving DecidableEq

/-- Find out what comes next within a bracket. Before any item but the first stands a comma, and no
comma stands before the end. An item is left in the rest, without blanks in front. -/
def turn (bracket : Bracket) (isFirst : Bool) (text : List Char) :
    Except Fault (Turn × List Char) :=
  match skipBlanks text with
  | [] => .error (.on bracket.unclosed [])
  | char :: rest =>
    if char = bracket.closing then .ok (.close, rest)
    else if isFirst then .ok (.item, char :: rest)
    else if char ≠ ',' then .error (.on bracket.expectedComma (char :: rest))
    else
      match skipBlanks rest with
      | [] => .error (.on .endOfValue [])
      | char :: rest =>
        if char = bracket.closing then .error (.on .trailingComma (char :: rest))
        else .ok (.item, char :: rest)

/-- Looking for what comes next makes a text no longer, and the end of the bracket shorter. -/
theorem length_le_of_turn {bracket : Bracket} {isFirst : Bool} {text rest : List Char} {next : Turn}
    (h : bracket.turn isFirst text = .ok (next, rest)) :
    rest.length ≤ text.length ∧ (next = .close → rest.length < text.length) := by
  have hle := length_skipBlanks_le text
  rw [turn] at h
  split at h
  · cases h
  · next char after heq =>
    rw [heq, List.length_cons] at hle
    split at h
    · cases h; exact ⟨Nat.le_of_lt hle, fun _ => hle⟩
    split at h
    · cases h; exact ⟨hle, nofun⟩
    split at h
    · cases h
    -- Behind the comma the blanks are skipped once more.
    have hle' := length_skipBlanks_le after
    split at h
    · cases h
    · next heq' =>
      rw [heq', List.length_cons] at hle'
      split at h
      · cases h
      · cases h
        exact ⟨by simp only [List.length_cons]; omega, nofun⟩

end Bracket

namespace Reader

variable {α β σ : Type}

/-- Read, and make something of what was read. -/
def map (f : α → β) (reader : Reader α) : Reader β where
  run text := do
    let (value, rest) ← reader.run text
    .ok (f value, rest)
  length_lt h := by
    obtain ⟨_, hrun, h⟩ := bind_eq_ok.1 h
    cases h
    exact reader.length_lt hrun

/-- Read a whole text; nothing but blanks may follow. -/
def readWhole (reader : Reader α) (text : List Char) : Except Fault α := do
  let (value, rest) ← reader.run text
  match skipBlanks rest with
  | [] => .ok value
  | char :: rest => .error (.on .trailingCharacters (char :: rest))

/-- Read item by item until the bracket is closed. What has been read so far goes into the reader
of the next item, which adds to it. -/
def items (bracket : Bracket) (item : σ → Reader σ) (isFirst : Bool) (soFar : σ)
    (text : List Char) : Except Fault (σ × List Char) :=
  match hturn : bracket.turn isFirst text with
  | .error fault => .error fault
  | .ok (.close, rest) => .ok (soFar, rest)
  | .ok (.item, rest) =>
    match hitem : (item soFar).run rest with
    | .error fault => .error fault
    | .ok (soFar, rest') =>
      have : rest'.length < text.length :=
        Nat.lt_of_lt_of_le ((item _).length_lt hitem) (Bracket.length_le_of_turn hturn).1
      items bracket item false soFar rest'
termination_by text.length

/-- What one turn contributes to reading within a bracket. -/
theorem items_eq (bracket : Bracket) (item : σ → Reader σ) (isFirst : Bool) (soFar : σ)
    (text : List Char) :
    items bracket item isFirst soFar text =
      match bracket.turn isFirst text with
      | .error fault => .error fault
      | .ok (.close, rest) => .ok (soFar, rest)
      | .ok (.item, rest) =>
        match (item soFar).run rest with
        | .error fault => .error fault
        | .ok (soFar, rest) => items bracket item false soFar rest := by
  rw [items]
  split <;> simp_all
  split <;> simp_all

/-- The end of the bracket is read, too. -/
theorem length_lt_of_items {bracket : Bracket} {item : σ → Reader σ} {isFirst : Bool}
    {soFar result : σ} {text rest : List Char}
    (h : items bracket item isFirst soFar text = .ok (result, rest)) :
    rest.length < text.length := by
  -- Every item makes the text shorter, so the induction is on its length.
  induction hn : text.length using Nat.strongRecOn generalizing isFirst soFar text with
  | ind n ih =>
    subst hn
    rw [items_eq] at h
    split at h
    · cases h
    · next hturn => cases h; exact (Bracket.length_le_of_turn hturn).2 rfl
    · next hturn =>
      have hle := (Bracket.length_le_of_turn hturn).1
      split at h
      · cases h
      · next hitem =>
        have hlt := Nat.lt_of_lt_of_le ((item soFar).length_lt hitem) hle
        exact Nat.lt_trans (ih _ hlt h rfl) hlt

/-- Read all that stands within a bracket, starting from `initial`; the opening has been read. -/
def within (bracket : Bracket) (item : σ → Reader σ) (initial : σ) : Reader σ where
  run := items bracket item true initial
  length_lt := length_lt_of_items

end Reader

end MarkupQuery
