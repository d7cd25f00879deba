import MarkupQuery.Json.Reader

/-!
# Numbers in JSON

A number has a whole part without a needless zero in front, and perhaps a fraction and an exponent.
One without the latter two that fits 64 bits is whole; any other is a floating-point number, made from
the digits as far as they fit 64 bits and a power of ten.

## Main definitions

- `NumberText.extend`: append digits to a whole number as long as it stays within a limit.
- `NumberText.scale`: a floating-point number times a power of ten, in steps of at most `10 ^ 308`.
- `NumberText.read`: the number whose sign has been read.
-/

namespace MarkupQuery.NumberText

/-- The greatest significand, and the greatest whole number. -/
def greatestWhole : Nat :=
  0xFFFFFFFFFFFFFFFF

/-- The greatest exponent that is written. -/
def greatestExponent : Nat :=
  0x7FFFFFFF

/-- The value of a digit. -/
def digitValue (digit : Char) : Nat :=
  digit.toNat - '0'.toNat

/-- Append digits to a number until one would take it beyond the limit. That digit and those after
it are left over. -/
def extend (limit number : Nat) : List Char → Nat × List Char
  | [] => (number, [])
  | digit :: digits =>
    let longer := number * 10 + digitValue digit
    if longer ≤ limit then extend limit longer digits else (number, digit :: digits)

/-- The power of ten with an exponent up to 308. -/
def powerOfTen (exponent : Nat) : Float :=
  Float.ofScientific 1 false exponent

/-- Multiply by a power of ten. The result is lost if it is too large, and zero if it is too small. -/
def scale (number : Float) (exponent : Int) : Option Float :=
  if exponent.natAbs ≤ 308 then
    if 0 ≤ exponent then
      let product := number * powerOfTen exponent.toNat
      if product.isInf then none else some product
    else some (number / powerOfTen exponent.natAbs)
  -- A quotient that has come down to zero stays there, however far the exponent is from it.
  else if number == 0 then some number
  else if 0 ≤ exponent then none
  else scale (number / powerOfTen 308) (exponent + 308)
termination_by exponent.natAbs

/-- The floating-point number with a significand that fits 64 bits and a power of ten. -/
def scaled (negative : Bool) (significand : Nat) (exponent : Int) (rest : List Char) :
    Except Fault (Number × List Char) :=
  match scale significand.toUInt64.toFloat exponent with
  | some number => .ok (.float (if negative then -number else number), rest)
  | none => .error (.before .numberOutOfRange rest)

/-- The number without fraction and exponent. Zero with a minus, and what lies below the least
64-bit integer, are floating-point numbers. -/
def whole (negative : Bool) (significand : Nat) : Number :=
  if negative then
    if significand = 0 ∨ 0x8000000000000000 < significand then .float (-significand.toUInt64.toFloat)
    else .integer (-significand)
  else .integer significand

/-- Zero with a sign. -/
def zero (negative : Bool) : Number :=
  .float (if negative then -0.0 else 0.0)

/-- Read the digits of an exponent, whose sign has been read. An exponent that is too long makes
zero of anything if it is negative, leaves zero as it is, and is a fault otherwise. -/
def readExponentDigits (negative : Bool) (significand : Nat) (exponent : Int)
    (exponentNegative : Bool) (text : List Char) : Except Fault (Number × List Char) :=
  match text with
  | [] => .error (.before .endOfValue [])
  | char :: _ =>
    if !char.isDigit then .error (.on .invalidNumber text)
    else
      let rest := text.dropWhile Char.isDigit
      match extend greatestExponent 0 (text.takeWhile Char.isDigit) with
      | (written, []) =>
        -- Beyond 32 bits the exponent makes no difference any more.
        let total := exponent + (if exponentNegative then -(written : Int) else written)
        scaled negative significand (max (-0x80000000) (min greatestExponent total)) rest
      | (_, beyond) =>
        if significand ≠ 0 ∧ !exponentNegative then
          .error (.on .numberOutOfRange (beyond ++ rest))
        else .ok (zero negative, rest)

/-- Read an exponent whose letter has been read. -/
def readExponent (negative : Bool) (significand : Nat) (exponent : Int) (text : List Char) :
    Except Fault (Number × List Char) :=
  match text with
  | '+' :: text => readExponentDigits negative significand exponent false text
  | '-' :: text => readExponentDigits negative significand exponent true text
  | text => readExponentDigits negative significand exponent false text

/-- Read what may follow the digits of a number that has a fraction or does not fit 64 bits. -/
def readScaled (negative : Bool) (significand : Nat) (exponent : Int) (text : List Char) :
    Except Fault (Number × List Char) :=
  match text with
  | 'e' :: text | 'E' :: text => readExponent negative significand exponent text
  | text => scaled negative significand exponent text

/-- Read a fraction whose point has been read. Digits that do not fit are left out. -/
def readFraction (negative : Bool) (significand : Nat) (exponent : Int) (text : List Char) :
    Except Fault (Number × List Char) :=
  let digits := text.takeWhile Char.isDigit
  let rest := text.dropWhile Char.isDigit
  if digits.isEmpty then
    .error (.on (if rest.isEmpty then .endOfValue else .invalidNumber) rest)
  else
    let (significand, beyond) := extend greatestWhole significand digits
    readScaled negative significand (exponent - (digits.length - beyond.length : Nat)) rest

/-- Read what follows the whole part of a number. Each digit of it that does not fit makes the number
ten times as large. -/
def readAfterWhole (negative : Bool) (significand beyond : Nat) (text : List Char) :
    Except Fault (Number × List Char) :=
  match text with
  | '.' :: text => readFraction negative significand beyond text
  | 'e' :: text | 'E' :: text => readExponent negative significand beyond text
  | text =>
    if beyond = 0 then .ok (whole negative significand, text)
    else scaled negative significand beyond text

/-- Read a number whose minus, if it has one, has been read. -/
def read (negative : Bool) (text : List Char) : Except Fault (Number × List Char) :=
  match text with
  | [] => .error (.before .endOfValue [])
  | char :: rest =>
    if char = '0' then
      match rest with
      | next :: _ =>
        if next.isDigit then .error (.on .invalidNumber rest)
        else readAfterWhole negative 0 0 rest
      | [] => readAfterWhole negative 0 0 rest
    else if char.isDigit then
      let (significand, beyond) := extend greatestWhole 0 (text.takeWhile Char.isDigit)
      readAfterWhole negative significand beyond.length (text.dropWhile Char.isDigit)
    else .error (.on .invalidNumber text)

/-! ### What is left of the text -/

/-- Scaling reads nothing. -/
theorem rest_eq_of_scaled {negative : Bool} {significand : Nat} {exponent : Int}
    {text rest : List Char} {number : Number}
    (h : scaled negative significand exponent text = .ok (number, rest)) : rest = text := by
  rw [scaled] at h
  split at h
  · cases h; rfl
  · cases h

/-- Reading the digits of an exponent makes a text no longer. -/
theorem length_le_of_readExponentDigits {negative : Bool} {significand : Nat} {exponent : Int}
    {exponentNegative : Bool} {text rest : List Char} {number : Number}
    (h : readExponentDigits negative significand exponent exponentNegative text =
      .ok (number, rest)) : rest.length ≤ text.length := by
  rw [readExponentDigits.eq_def] at h
  split at h
  · cases h
  split at h
  · cases h
  dsimp only at h
  split at h
  · rw [rest_eq_of_scaled h]
    exact length_dropWhile_le _ _
  · split at h
    · cases h
    · cases h
      exact length_dropWhile_le _ _

/-- Reading an exponent makes a text no longer. -/
theorem length_le_of_readExponent {negative : Bool} {significand : Nat} {exponent : Int}
    {text rest : List Char} {number : Number}
    (h : readExponent negative significand exponent text = .ok (number, rest)) :
    rest.length ≤ text.length := by
  rw [readExponent.eq_def] at h
  split at h
  · exact Nat.le_succ_of_le (length_le_of_readExponentDigits h)
  · exact Nat.le_succ_of_le (length_le_of_readExponentDigits h)
  · exact length_le_of_readExponentDigits h

/-- Reading an exponent that may be missing makes a text no longer. -/
theorem length_le_of_readScaled {negative : Bool} {significand : Nat} {exponent : Int}
    {text rest : List Char} {number : Number}
    (h : readScaled negative significand exponent text = .ok (number, rest)) :
    rest.length ≤ text.length := by
  rw [readScaled.eq_def] at h
  split at h
  · exact Nat.le_succ_of_le (length_le_of_readExponent h)
  · exact Nat.le_succ_of_le (length_le_of_readExponent h)
  · exact Nat.le_of_eq (congrArg _ (rest_eq_of_scaled h))

/-- Reading a fraction makes a text no longer. -/
theorem length_le_of_readFraction {negative : Bool} {significand : Nat} {exponent : Int}
    {text rest : List Char} {number : Number}
    (h : readFraction negative significand exponent text = .ok (number, rest)) :
    rest.length ≤ text.length := by
  rw [readFraction] at h
  dsimp only at h
  split at h
  · cases h
  · exact Nat.le_trans (length_le_of_readScaled h) (length_dropWhile_le _ _)

/-- Reading what follows the whole part makes a text no longer. -/
theorem length_le_of_readAfterWhole {negative : Bool} {significand beyond : Nat}
    {text rest : List Char} {number : Number}
    (h : readAfterWhole negative significand beyond text = .ok (number, rest)) :
    rest.length ≤ text.length := by
  rw [readAfterWhole.eq_def] at h
  split at h
  · exact Nat.le_succ_of_le (length_le_of_readFraction h)
  · exact Nat.le_succ_of_le (length_le_of_readExponent h)
  · exact Nat.le_succ_of_le (length_le_of_readExponent h)
  · split at h
    · cases h; exact Nat.le_refl _
    · exact Nat.le_of_eq (congrArg _ (rest_eq_of_scaled h))

/-- A number has at least one digit. -/
theorem length_lt_of_read {negative : Bool} {text rest : List Char} {number : Number}
    (h : read negative text = .ok (number, rest)) : rest.length < text.length := by
  rw [read.eq_def] at h
  split at h
  · cases h
  · next char after =>
    split at h
    · split at h
      · split at h
        · cases h
        · exact Nat.lt_succ_of_le (length_le_of_readAfterWhole h)
      · exact Nat.lt_succ_of_le (length_le_of_readAfterWhole h)
    split at h
    · next hdigit =>
      -- The first digit is dropped together with those that follow it.
      have hle := length_le_of_readAfterWhole h
      rw [List.dropWhile_cons, if_pos hdigit] at hle
      exact Nat.lt_succ_of_le (Nat.le_trans hle (length_dropWhile_le _ _))
    · cases h

end MarkupQuery.NumberText
