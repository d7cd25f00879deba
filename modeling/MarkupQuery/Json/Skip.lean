import MarkupQuery.Json.Read

/-!
# Skipping JSON

What is given for a key that nobody asked for is passed over. Open brackets are held in a list, so
they may be nested to any depth. Less is checked than when a value is read: numbers may be too large,
and halves of surrogate pairs may stand alone.

## Main definitions

- `Skip.string`, `Skip.number`, `Skip.scalar`: pass over values without brackets.
- `Skip.leave`: pass over the brackets that are closed, up to the next item.
- `Skip.value`: pass over a value, and finish the brackets that are open.
- `Json.skipper`: pass over one value.

## Main results

- `Skip.string_cons`, `Skip.value_eq`: what one character and one advance contribute.
-/

namespace MarkupQuery.Skip

/-- Pass over an escape whose backslash has been passed. -/
def escape (text : List Char) : Except Fault (List Char) :=
  match text with
  | [] => .error (.before .endOfString [])
  | letter :: rest =>
    if letter = 'u' then do
      let (_, rest) ← StringText.readUnit rest
      .ok rest
    else if (StringText.escaped? letter).isSome then .ok rest
    else .error (.on .invalidEscape (letter :: rest))

/-- An escape is at least one character. -/
theorem length_lt_of_escape {text rest : List Char} (h : escape text = .ok rest) :
    rest.length < text.length := by
  cases text with
  | nil => cases h
  | cons letter text =>
    rw [escape] at h
    split at h
    · obtain ⟨_, hunit, h⟩ := bind_eq_ok.1 h
      cases h
      exact Nat.lt_succ_of_lt (StringText.length_lt_of_readUnit hunit)
    · split at h
      · cases h; exact Nat.lt_succ_self _
      · cases h

/-- Pass over the rest of a string whose opening quote has been passed. -/
def string (text : List Char) : Except Fault (List Char) :=
  match text with
  | [] => .error (.before .endOfString [])
  | char :: rest =>
    if char < ' ' then .error (.before .controlCharacter (char :: rest))
    else if char = '"' then .ok rest
    else if char = '\\' then
      match hescape : escape rest with
      | .error fault => .error fault
      | .ok rest' =>
        have := length_lt_of_escape hescape
        string rest'
    else string rest
termination_by text.length

/-- What one character contributes to passing over a string. -/
theorem string_cons (char : Char) (rest : List Char) :
    string (char :: rest) =
      if char < ' ' then .error (.before .controlCharacter (char :: rest))
      else if char = '"' then .ok rest
      else if char = '\\' then
        match escape rest with
        | .error fault => .error fault
        | .ok rest => string rest
      else string rest := by
  rw [string.eq_def]
  dsimp only
  split
  · rfl
  · split
    · rfl
    · split
      · split <;> simp_all
      · rfl

/-- A string ends with a quote. -/
theorem length_lt_of_string {text rest : List Char} (h : string text = .ok rest) :
    rest.length < text.length := by
  fun_induction string text with
  | case1 => cases h
  | case2 => cases h
  | case3 => cases h; exact Nat.lt_succ_self _
  | case4 => cases h
  | case5 _ _ _ _ _ hlt ih =>
    have := ih h
    simp only [List.length_cons]
    omega
  | case6 _ _ _ _ _ ih => exact Nat.lt_succ_of_lt (ih h)

/-- Pass over at least one digit; `fault` tells what is wrong if there is none. -/
def digits (fault : List Char → Fault) (text : List Char) : Except Fault (List Char) :=
  match text with
  | [] => .error (fault [])
  | char :: rest =>
    if char.isDigit then .ok (rest.dropWhile Char.isDigit) else .error (fault (char :: rest))

/-- Pass over a fraction, if there is one. -/
def fraction (text : List Char) : Except Fault (List Char) :=
  match text with
  | '.' :: rest => digits (.on .invalidNumber) rest
  | text => .ok text

/-- Pass over an exponent, if there is one. -/
def exponent (text : List Char) : Except Fault (List Char) :=
  match text with
  | 'e' :: '+' :: rest | 'e' :: '-' :: rest | 'E' :: '+' :: rest | 'E' :: '-' :: rest
  | 'e' :: rest | 'E' :: rest => digits (.on .invalidNumber) rest
  | text => .ok text

/-- Pass over the whole part of a number. -/
def whole (text : List Char) : Except Fault (List Char) :=
  match text with
  | '0' :: next :: rest =>
    if next.isDigit then .error (.on .invalidNumber (next :: rest)) else .ok (next :: rest)
  | text => digits (.on .invalidNumber) text

/-- Pass over a number whose minus, if it has one, has been passed. -/
def number (text : List Char) : Except Fault (List Char) := do
  let rest ← whole text
  let rest ← fraction rest
  exponent rest

/-- Digits are characters. -/
theorem length_lt_of_digits {fault : List Char → Fault} {text rest : List Char}
    (h : digits fault text = .ok rest) : rest.length < text.length := by
  rw [digits.eq_def] at h
  split at h
  · cases h
  · split at h
    · cases h; exact Nat.lt_succ_of_le (length_dropWhile_le _ _)
    · cases h

/-- Passing over a fraction makes a text no longer. -/
theorem length_le_of_fraction {text rest : List Char} (h : fraction text = .ok rest) :
    rest.length ≤ text.length := by
  rw [fraction.eq_def] at h
  split at h
  · exact Nat.le_succ_of_le (Nat.le_of_lt (length_lt_of_digits h))
  · cases h; exact Nat.le_refl _

/-- Passing over an exponent makes a text no longer. -/
theorem length_le_of_exponent {text rest : List Char} (h : exponent text = .ok rest) :
    rest.length ≤ text.length := by
  rw [exponent.eq_def] at h
  split at h
  case h_7 => cases h; exact Nat.le_refl _
  -- In all other cases a letter is passed, perhaps with a sign, and then digits.
  all_goals
    have hlt := length_lt_of_digits h
    simp only [List.length_cons]
    omega

/-- The whole part of a number is at least one character. -/
theorem length_lt_of_whole {text rest : List Char} (h : whole text = .ok rest) :
    rest.length < text.length := by
  rw [whole.eq_def] at h
  split at h
  · split at h
    · cases h
    · cases h; exact Nat.lt_succ_self _
  · exact length_lt_of_digits h

/-- A number is at least one character. -/
theorem length_lt_of_number {text rest : List Char} (h : number text = .ok rest) :
    rest.length < text.length := by
  obtain ⟨_, hwhole, h⟩ := bind_eq_ok.1 h
  obtain ⟨_, hfraction, h⟩ := bind_eq_ok.1 h
  have h₁ := length_lt_of_whole hwhole
  have h₂ := length_le_of_fraction hfraction
  have h₃ := length_le_of_exponent h
  omega

/-- Pass over a value that is neither an array nor an object. -/
def scalar (text : List Char) : Except Fault (List Char) :=
  match text with
  | [] => .error (.on .endOfValue [])
  | 'n' :: rest => readLiteral ['u', 'l', 'l'] rest
  | 't' :: rest => readLiteral ['r', 'u', 'e'] rest
  | 'f' :: rest => readLiteral ['a', 'l', 's', 'e'] rest
  | '"' :: rest => string rest
  | '-' :: rest => number rest
  | char :: rest =>
    if char.isDigit then number (char :: rest) else .error (.on .expectedValue (char :: rest))

/-- A value is at least one character. -/
theorem length_lt_of_scalar {text rest : List Char} (h : scalar text = .ok rest) :
    rest.length < text.length := by
  rw [scalar.eq_def] at h
  split at h
  · cases h
  · exact Nat.lt_succ_of_le (length_le_of_readLiteral h)
  · exact Nat.lt_succ_of_le (length_le_of_readLiteral h)
  · exact Nat.lt_succ_of_le (length_le_of_readLiteral h)
  · exact Nat.lt_succ_of_lt (length_lt_of_string h)
  · exact Nat.lt_succ_of_lt (length_lt_of_number h)
  · split at h
    · exact length_lt_of_number h
    · cases h

/-- Pass over brackets that are closed. Either none is left open, or the rest begins where the next
item of the innermost one does. No comma is awaited directly after a bracket was opened. -/
def leave (afterItem : Bool) (opened : List Bracket) (text : List Char) :
    Except Fault (List Bracket × List Char) :=
  match opened with
  | [] => .ok ([], text)
  | bracket :: outer =>
    match skipBlanks text with
    | [] => .error (.on bracket.unclosed [])
    | char :: rest =>
      if afterItem ∧ char = ',' then .ok (bracket :: outer, rest)
      else if char = bracket.closing then leave true outer rest
      else if afterItem then .error (.on bracket.expectedComma (char :: rest))
      else .ok (bracket :: outer, char :: rest)

/-- Passing over brackets makes a text no longer. -/
theorem length_le_of_leave {afterItem : Bool} {opened left : List Bracket} {text rest : List Char}
    (h : leave afterItem opened text = .ok (left, rest)) : rest.length ≤ text.length := by
  induction opened generalizing afterItem text with
  | nil => cases h; exact Nat.le_refl _
  | cons bracket outer ih =>
    have hle := length_skipBlanks_le text
    rw [leave] at h
    split at h
    · cases h
    · next heq =>
      rw [heq, List.length_cons] at hle
      split at h
      · cases h; exact Nat.le_of_lt hle
      split at h
      · exact Nat.le_trans (ih h) (Nat.le_of_lt hle)
      split at h
      · cases h
      · cases h; exact hle

/-- Pass over what stands before the value of an item: in an object, its key and the colon. -/
def label (bracket : Bracket) (text : List Char) : Except Fault (List Char) :=
  match bracket with
  | .array => .ok text
  | .object =>
    match skipBlanks text with
    | [] => .error (.on .endOfObject [])
    | char :: rest =>
      if char = '"' then do
        let rest ← string rest
        readColon rest
      else .error (.on .keyNotString (char :: rest))

/-- Passing over a key makes a text no longer. -/
theorem length_le_of_label {bracket : Bracket} {text rest : List Char}
    (h : label bracket text = .ok rest) : rest.length ≤ text.length := by
  cases bracket with
  | array => cases h; exact Nat.le_refl _
  | object =>
    have hle := length_skipBlanks_le text
    rw [label] at h
    split at h
    · cases h
    · next heq =>
      rw [heq, List.length_cons] at hle
      split at h
      · obtain ⟨_, hkey, h⟩ := bind_eq_ok.1 h
        have h₁ := length_lt_of_string hkey
        have h₂ := length_lt_of_readColon h
        omega
      · cases h

/-- Pass over a bracket that opens, or over a value without brackets. -/
def head (text : List Char) : Except Fault (Option Bracket × List Char) :=
  match skipBlanks text with
  | [] => .error (.on .endOfValue [])
  | char :: rest =>
    match Bracket.opened? char with
    | some bracket => .ok (some bracket, rest)
    | none => do
      let rest ← scalar (char :: rest)
      .ok (none, rest)

/-- What a value begins with is at least one character. -/
theorem length_lt_of_head {text rest : List Char} {opened? : Option Bracket}
    (h : head text = .ok (opened?, rest)) : rest.length < text.length := by
  have hle := length_skipBlanks_le text
  rw [head] at h
  split at h
  · cases h
  · next heq =>
    rw [heq] at hle
    split at h
    · cases h; exact hle
    · obtain ⟨_, hscalar, h⟩ := bind_eq_ok.1 h
      cases h
      exact Nat.lt_of_lt_of_le (length_lt_of_scalar hscalar) hle

/-- Pass over a bracket or a plain value and all that is closed after it, up to the next value: the
brackets that are still open, innermost first, with the rest. -/
def advance (opened : List Bracket) (text : List Char) :
    Except Fault (List Bracket × List Char) := do
  let (bracket?, rest) ← head text
  let (left, rest) ← leave bracket?.isNone (bracket?.toList ++ opened) rest
  match left with
  | [] => .ok ([], rest)
  | bracket :: outer =>
    let rest ← label bracket rest
    .ok (bracket :: outer, rest)

/-- Every advance passes over at least one character. -/
theorem length_lt_of_advance {opened left : List Bracket} {text rest : List Char}
    (h : advance opened text = .ok (left, rest)) : rest.length < text.length := by
  -- Only what a value begins with is sure to take something off the text.
  obtain ⟨⟨bracket?, rest₁⟩, hhead, h⟩ := bind_eq_ok.1 h
  obtain ⟨⟨left', rest₂⟩, hleave, h⟩ := bind_eq_ok.1 h
  have h₁ := length_lt_of_head hhead
  have h₂ := length_le_of_leave hleave
  cases left' with
  | nil => cases h; omega
  | cons bracket outer =>
    obtain ⟨rest₃, hlabel, h⟩ := bind_eq_ok.1 h
    cases h
    have h₃ := length_le_of_label hlabel
    omega

/-- Pass over a value, and over all that is left of the brackets that are open around it. -/
def value (opened : List Bracket) (text : List Char) : Except Fault (List Char) :=
  match h : advance opened text with
  | .error fault => .error fault
  | .ok ([], rest) => .ok rest
  | .ok (bracket :: outer, rest) =>
    have := length_lt_of_advance h
    value (bracket :: outer) rest
termination_by text.length

/-- What one advance contributes to passing over a value. -/
theorem value_eq (opened : List Bracket) (text : List Char) :
    value opened text =
      match advance opened text with
      | .error fault => .error fault
      | .ok ([], rest) => .ok rest
      | .ok (bracket :: outer, rest) => value (bracket :: outer) rest := by
  rw [value]
  split <;> simp_all

/-- A value is at least one character. -/
theorem length_lt_of_value {opened : List Bracket} {text rest : List Char}
    (h : value opened text = .ok rest) : rest.length < text.length := by
  fun_induction value opened text with
  | case1 => cases h
  | case2 _ _ _ hadvance => cases h; exact length_lt_of_advance hadvance
  | case3 _ _ _ _ _ _ hlt ih => exact Nat.lt_trans (ih h) hlt

end MarkupQuery.Skip

/-- Pass over one value. -/
def MarkupQuery.Json.skipper : MarkupQuery.Reader Unit where
  run text := do
    let rest ← MarkupQuery.Skip.value [] text
    .ok ((), rest)
  length_lt h := by
    obtain ⟨_, hvalue, h⟩ := MarkupQuery.bind_eq_ok.1 h
    cases h
    exact MarkupQuery.Skip.length_lt_of_value hvalue
