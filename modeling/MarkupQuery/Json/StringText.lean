import MarkupQuery.Json.Reader

/-!
# Strings in JSON

A string stands between quotes. A quote, a backslash and the control characters below U+0020 do not
stand in it as they are but are escaped; any other character may be escaped, too.

## Main definitions

- `StringText.escape`, `StringText.write`: how a character and a string are written.
- `StringText.readEscape`: the character meant by an escape.
- `StringText.readTail`: the string whose opening quote has been read.

## Main results

- `StringText.readOn_cons`: what one character contributes to reading a string.
-/

namespace MarkupQuery.StringText

/-! ### Writing -/

/-- The digit for a number below 16, in lower case. -/
def hexDigit (value : Nat) : Char :=
  if value < 10 then Char.ofNat ('0'.toNat + value) else Char.ofNat ('a'.toNat + (value - 10))

/-- How a character is written within a string. -/
def escape (char : Char) : List Char :=
  match char with
  | '"' => ['\\', '"']
  | '\\' => ['\\', '\\']
  | '\x08' => ['\\', 'b']
  | '\x0c' => ['\\', 'f']
  | '\n' => ['\\', 'n']
  | '\r' => ['\\', 'r']
  | '\t' => ['\\', 't']
  | char =>
    if char < ' ' then
      ['\\', 'u', '0', '0', hexDigit (char.toNat / 16), hexDigit (char.toNat % 16)]
    else [char]

/-- Write a string before the rest of a text. -/
def write (content : String) (rest : List Char) : List Char :=
  '"' :: content.toList.foldr (fun char rest => escape char ++ rest) ('"' :: rest)

/-! ### Reading -/

/-- The value of a hexadecimal digit of either case. -/
def hexValue? (char : Char) : Option Nat :=
  if '0' ≤ char ∧ char ≤ '9' then some (char.toNat - '0'.toNat)
  else if 'a' ≤ char ∧ char ≤ 'f' then some (char.toNat - 'a'.toNat + 10)
  else if 'A' ≤ char ∧ char ≤ 'F' then some (char.toNat - 'A'.toNat + 10)
  else none

/-- The number that four hexadecimal digits in front of a text stand for. -/
def unit? : List Char → Option (Nat × List Char)
  | a :: b :: c :: d :: rest => do
    let a ← hexValue? a
    let b ← hexValue? b
    let c ← hexValue? c
    let d ← hexValue? d
    some (((a * 16 + b) * 16 + c) * 16 + d, rest)
  | _ => none

/-- Read four hexadecimal digits. If they are not there, four bytes are looked at, or all there are. -/
def readUnit (text : List Char) : Except Fault (Nat × List Char) :=
  match unit? text with
  | some read => .ok read
  | none =>
    .error (if byteLength text < 4 then .before .endOfString [] else ⟨.invalidEscape, text, 4⟩)

/-- Read one character that has to stand here. -/
def readExactly (wanted : Char) (text : List Char) : Except Fault (List Char) :=
  match text with
  | [] => .error (.before .endOfString [])
  | char :: rest => if char = wanted then .ok rest else .error (.on .endOfEscape (char :: rest))

/-- Whether a number is the first half of a surrogate pair. -/
def isLeading (unit : Nat) : Bool :=
  0xD800 ≤ unit && unit ≤ 0xDBFF

/-- Whether a number is the second half of a surrogate pair. -/
def isTrailing (unit : Nat) : Bool :=
  0xDC00 ≤ unit && unit ≤ 0xDFFF

/-- Read the character whose code point follows in hexadecimal digits, those beyond U+FFFF as a
pair of surrogates. -/
def readCodePoint (text : List Char) : Except Fault (Char × List Char) := do
  let (unit, rest) ← readUnit text
  if isTrailing unit then .error (.before .loneSurrogate rest)
  else if !isLeading unit then .ok (Char.ofNat unit, rest)
  else
    -- The first half of a pair has been read, so the second has to follow at once.
    let rest ← readExactly '\\' rest
    let rest ← readExactly 'u' rest
    let (second, rest) ← readUnit rest
    if isTrailing second then
      .ok (Char.ofNat ((unit - 0xD800) * 0x400 + (second - 0xDC00) + 0x10000), rest)
    else .error (.before .loneSurrogate rest)

/-- The character that is meant by a single letter after a backslash. -/
def escaped? : Char → Option Char
  | '"' => some '"'
  | '\\' => some '\\'
  | '/' => some '/'
  | 'b' => some '\x08'
  | 'f' => some '\x0c'
  | 'n' => some '\n'
  | 'r' => some '\r'
  | 't' => some '\t'
  | _ => none

/-- Read an escape whose backslash has been read. -/
def readEscape (text : List Char) : Except Fault (Char × List Char) :=
  match text with
  | [] => .error (.before .endOfString [])
  | letter :: rest =>
    match escaped? letter with
    | some char => .ok (char, rest)
    | none =>
      if letter = 'u' then readCodePoint rest else .error (.on .invalidEscape (letter :: rest))

/-- Four digits are characters. -/
theorem length_lt_of_readUnit {text rest : List Char} {unit : Nat}
    (h : readUnit text = .ok (unit, rest)) : rest.length < text.length := by
  rw [readUnit] at h
  split at h
  · next hunit =>
    cases h
    match text, hunit with
    | a :: b :: c :: d :: text, hunit =>
      simp only [unit?, Option.bind_eq_bind, Option.bind_eq_some_iff, Option.some.injEq,
        Prod.mk.injEq] at hunit
      obtain ⟨_, _, _, _, _, _, _, _, _, rfl⟩ := hunit
      simp only [List.length_cons]
      omega
  · cases h

/-- A required character is a character. -/
theorem length_lt_of_readExactly {wanted : Char} {text rest : List Char}
    (h : readExactly wanted text = .ok rest) : rest.length < text.length := by
  cases text with
  | nil => cases h
  | cons char text =>
    rw [readExactly] at h
    split at h
    · cases h; exact Nat.lt_succ_self _
    · cases h

/-- A code point is given by at least one character. -/
theorem length_lt_of_readCodePoint {text rest : List Char} {char : Char}
    (h : readCodePoint text = .ok (char, rest)) : rest.length < text.length := by
  obtain ⟨⟨unit, rest₁⟩, hunit, h⟩ := bind_eq_ok.1 h
  have h₁ := length_lt_of_readUnit hunit
  dsimp only at h
  split at h
  · cases h
  split at h
  · simp only [Except.ok.injEq, Prod.mk.injEq] at h
    exact h.2 ▸ h₁
  -- The second half of a pair takes a backslash, a letter and four more digits.
  obtain ⟨rest₂, hslash, h⟩ := bind_eq_ok.1 h
  obtain ⟨rest₃, hu, h⟩ := bind_eq_ok.1 h
  obtain ⟨⟨second, rest₄⟩, hsecond, h⟩ := bind_eq_ok.1 h
  have h₂ := length_lt_of_readExactly hslash
  have h₃ := length_lt_of_readExactly hu
  have h₄ := length_lt_of_readUnit hsecond
  dsimp only at h
  split at h
  · simp only [Except.ok.injEq, Prod.mk.injEq] at h
    rw [← h.2]
    omega
  · cases h

/-- An escape is at least one character. -/
theorem length_lt_of_readEscape {text rest : List Char} {char : Char}
    (h : readEscape text = .ok (char, rest)) : rest.length < text.length := by
  cases text with
  | nil => cases h
  | cons letter text =>
    rw [readEscape] at h
    split at h
    · cases h; exact Nat.lt_succ_self _
    · split at h
      · exact Nat.lt_succ_of_lt (length_lt_of_readCodePoint h)
      · cases h

/-- Read the rest of a string up to its closing quote. The characters read so far are held in
reverse. -/
def readOn (soFar : List Char) (text : List Char) : Except Fault (String × List Char) :=
  match text with
  | [] => .error (.before .endOfString [])
  | char :: rest =>
    if char = '"' then .ok (String.ofList soFar.reverse, rest)
    else if char = '\\' then
      match hescape : readEscape rest with
      | .error fault => .error fault
      | .ok (meant, rest') =>
        have := length_lt_of_readEscape hescape
        readOn (meant :: soFar) rest'
    else if char < ' ' then .error (.on .controlCharacter (char :: rest))
    else readOn (char :: soFar) rest
termination_by text.length

/-- What one character contributes to reading a string. -/
theorem readOn_cons (soFar : List Char) (char : Char) (rest : List Char) :
    readOn soFar (char :: rest) =
      if char = '"' then .ok (String.ofList soFar.reverse, rest)
      else if char = '\\' then
        match readEscape rest with
        | .error fault => .error fault
        | .ok (meant, rest) => readOn (meant :: soFar) rest
      else if char < ' ' then .error (.on .controlCharacter (char :: rest))
      else readOn (char :: soFar) rest := by
  rw [readOn.eq_def]
  dsimp only
  split
  · rfl
  · split
    · split <;> simp_all
    · rfl

/-- A string ends with a quote. -/
theorem length_lt_of_readOn {soFar text rest : List Char} {content : String}
    (h : readOn soFar text = .ok (content, rest)) : rest.length < text.length := by
  fun_induction readOn soFar text with
  | case1 => cases h
  | case2 => cases h; exact Nat.lt_succ_self _
  | case3 => cases h
  | case4 _ _ _ _ _ _ hlt ih =>
    have := ih h
    simp only [List.length_cons]
    omega
  | case5 => cases h
  | case6 _ _ _ _ _ _ ih => exact Nat.lt_succ_of_lt (ih h)

/-- Read the rest of a string whose opening quote has been read. -/
def readTail : Reader String where
  run := readOn []
  length_lt := length_lt_of_readOn

end MarkupQuery.StringText
