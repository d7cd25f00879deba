import MarkupQuery.Text.CodePoints

/-!
# Quoted text

A string is shown between quotes. Quotes and backslashes have a backslash before them, and a few control
characters are written by a letter. Any other character that would not be seen, for it shows nothing by
itself or extends the one before it, is written by its code point, and all others stand for themselves.

## Main definitions

- `Quoted.isHidden`: whether a character would not be seen.
- `Quoted.escape`: how one character is shown.
- `Quoted.ofString`: a string between quotes.
-/

namespace MarkupQuery.Quoted

/-- Whether a character would not be seen by itself between quotes. -/
def isHidden (char : Char) : Bool :=
  CodePoints.graphemeExtending.contains char.toNat || CodePoints.unprintable.contains char.toNat

/-- How a character is shown between quotes. -/
def escape (char : Char) : String :=
  match char with
  | '"' => "\\\""
  | '\\' => "\\\\"
  | '\n' => "\\n"
  | '\r' => "\\r"
  | '\t' => "\\t"
  | '\x00' => "\\0"
  | char =>
    if isHidden char then
      "\\u\x7b" ++ String.ofList (Nat.toDigits 16 char.toNat) ++ "\x7d"
    else String.singleton char

/-- A string between quotes. -/
def ofString (text : String) : String :=
  "\"" ++ String.join (text.toList.map escape) ++ "\""

end MarkupQuery.Quoted
