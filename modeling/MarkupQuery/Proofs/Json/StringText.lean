import MarkupQuery.Json.StringText

/-!
# Strings are read as they are spelled

The same string may be spelled in many ways, for any of its characters may be escaped. Reading takes up
exactly the spelling, whichever it is, and nothing is asked of what follows the closing quote. What is
written for a string is one of its spellings, so it is read back.

## Main definitions

- `StringText.Spells`: the texts between quotes that stand for given characters.

## Main results

- `StringText.readOn_of_spells`: a spelling is read as the characters that it stands for.
- `StringText.spells_escape`: what is written for a character spells it.
- `StringText.write_eq_cons`: a string is read back in front of any text.
-/

namespace MarkupQuery.StringText

/-! ### Spellings -/

/-- A text that stands between quotes for given characters. -/
inductive Spells : List Char → List Char → Prop where
  /-- No characters. -/
  | nil : Spells [] []
  /-- A character that stands for itself. -/
  | plain {char : Char} {text content : List Char} (hquote : char ≠ '"') (hslash : char ≠ '\\')
      (hcontrol : ¬char < ' ') (h : Spells text content) : Spells (char :: text) (char :: content)
  /-- A character that is meant by a letter. -/
  | letter {letter char : Char} {text content : List Char} (hletter : escaped? letter = some char)
      (h : Spells text content) : Spells ('\\' :: letter :: text) (char :: content)
  /-- A character that is given by its code point. -/
  | codePoint {digits text content : List Char} {unit : Nat} (hdigits : unit? digits = some (unit, []))
      (hleading : isLeading unit = false) (htrailing : isTrailing unit = false)
      (h : Spells text content) :
      Spells ('\\' :: 'u' :: (digits ++ text)) (Char.ofNat unit :: content)
  /-- A character that is given by a pair of surrogates. -/
  | pair {digits digits' text content : List Char} {unit unit' : Nat}
      (hdigits : unit? digits = some (unit, [])) (hleading : isLeading unit = true)
      (hdigits' : unit? digits' = some (unit', [])) (htrailing : isTrailing unit' = true)
      (h : Spells text content) :
      Spells ('\\' :: 'u' :: (digits ++ '\\' :: 'u' :: (digits' ++ text)))
        (Char.ofNat ((unit - 0xD800) * 0x400 + (unit' - 0xDC00) + 0x10000) :: content)

/-- Four digits are read in front of any text. -/
theorem readUnit_append {digits : List Char} {unit : Nat} (h : unit? digits = some (unit, []))
    (rest : List Char) : readUnit (digits ++ rest) = .ok (unit, rest) := by
  match digits, h with
  | a :: b :: c :: d :: more, h =>
    simp only [unit?, Option.bind_eq_bind, Option.bind_eq_some_iff, Option.some.injEq,
      Prod.mk.injEq] at h
    obtain ⟨_, ha, _, hb, _, hc, _, hd, rfl, rfl⟩ := h
    simp only [readUnit, unit?, List.cons_append, List.nil_append, ha, hb, hc, hd,
      Option.bind_eq_bind, Option.bind_some]

/-- No leading half of a pair is a trailing one. -/
theorem isTrailing_of_isLeading {unit : Nat} (h : isLeading unit = true) :
    isTrailing unit = false := by
  simp only [isLeading, isTrailing, Bool.and_eq_true, decide_eq_true_eq, Bool.and_eq_false_iff,
    decide_eq_false_iff_not] at h ⊢
  omega

/-- An escape by a letter is read as the character that is meant. -/
theorem readOn_letter {letter char : Char} (h : escaped? letter = some char)
    (soFar rest : List Char) :
    readOn soFar ('\\' :: letter :: rest) = readOn (char :: soFar) rest := by
  rw [readOn_cons, if_neg (by decide), if_pos rfl, readEscape, h]

/-- An escape that is read as a code point is read as that character. -/
theorem readOn_of_readCodePoint {text rest : List Char} {char : Char}
    (h : readCodePoint text = .ok (char, rest)) (soFar : List Char) :
    readOn soFar ('\\' :: 'u' :: text) = readOn (char :: soFar) rest := by
  have hletter : escaped? 'u' = none := rfl
  rw [readOn_cons, if_neg (by decide), if_pos rfl]
  simp only [readEscape, hletter, if_true, h]

/-- Characters are read as they are spelled, up to the closing quote. -/
theorem readOn_of_spells {text content : List Char} (h : Spells text content)
    (soFar rest : List Char) :
    readOn soFar (text ++ '"' :: rest) = .ok (String.ofList (soFar.reverse ++ content), rest) := by
  -- The characters read so far are held in reverse, so the statement is about any of them.
  induction h generalizing soFar with
  | nil => rw [List.nil_append, readOn_cons, if_pos rfl, List.append_nil]
  | plain hquote hslash hcontrol _ ih =>
    rw [List.cons_append, readOn_cons, if_neg hquote, if_neg hslash, if_neg hcontrol, ih,
      List.reverse_cons, List.append_assoc]
    rfl
  | letter hletter _ ih =>
    rw [List.cons_append, List.cons_append, readOn_letter hletter, ih, List.reverse_cons,
      List.append_assoc]
    rfl
  | @codePoint digits text _ unit hdigits hleading htrailing _ ih =>
    have hread : readCodePoint (digits ++ (text ++ '"' :: rest)) =
        .ok (Char.ofNat unit, text ++ '"' :: rest) := by
      simp only [readCodePoint, readUnit_append hdigits, bind, Except.bind, hleading, htrailing,
        Bool.not_false, Bool.false_eq_true, if_false, if_true]
    rw [List.cons_append, List.cons_append, List.append_assoc, readOn_of_readCodePoint hread, ih,
      List.reverse_cons, List.append_assoc]
    rfl
  | @pair digits digits' text _ unit unit' hdigits hleading hdigits' htrailing _ ih =>
    -- The first half is read, and then the second one, which has to follow at once.
    have hread : readCodePoint (digits ++ '\\' :: 'u' :: (digits' ++ (text ++ '"' :: rest))) =
        .ok (Char.ofNat ((unit - 0xD800) * 0x400 + (unit' - 0xDC00) + 0x10000),
          text ++ '"' :: rest) := by
      simp only [readCodePoint, readUnit_append hdigits, readUnit_append hdigits', readExactly, bind,
        Except.bind, hleading, isTrailing_of_isLeading hleading, htrailing, Bool.not_true,
        Bool.false_eq_true, if_false, if_true]
    rw [List.cons_append, List.cons_append, List.append_assoc, List.cons_append, List.cons_append,
      List.append_assoc, readOn_of_readCodePoint hread, ih, List.reverse_cons, List.append_assoc]
    rfl

/-! ### What is written -/

/-- Digits have the values they are written for. -/
theorem hexValue?_hexDigit : ∀ value < 16, hexValue? (hexDigit value) = some value := by
  decide

/-- The code point of a control character has four digits, the first two of them zero. -/
theorem unit?_control {char : Char} (h : char < ' ') :
    unit? ['0', '0', hexDigit (char.toNat / 16), hexDigit (char.toNat % 16)] =
      some (char.toNat, []) := by
  have hlt : char.toNat < 32 := h
  have hhigh := hexValue?_hexDigit (char.toNat / 16) (by omega)
  have hlow := hexValue?_hexDigit (char.toNat % 16) (Nat.mod_lt _ (by omega))
  have hzero : hexValue? '0' = some 0 := by decide
  have hvalue : ((0 * 16 + 0) * 16 + char.toNat / 16) * 16 + char.toNat % 16 = char.toNat := by
    omega
  simp only [unit?, hhigh, hlow, hzero, Option.bind_eq_bind, Option.bind_some, hvalue]

/-- A control character is spelled by its code point. -/
theorem spells_control {char : Char} (hcontrol : char < ' ') {text content : List Char}
    (h : Spells text content) :
    Spells ('\\' :: 'u' :: '0' :: '0' :: hexDigit (char.toNat / 16) ::
      hexDigit (char.toNat % 16) :: text) (char :: content) := by
  have hlt : char.toNat < 32 := hcontrol
  -- A code point as small as this is no half of a surrogate pair.
  have hleading : isLeading char.toNat = false := by
    simp only [isLeading, Bool.and_eq_false_iff, decide_eq_false_iff_not]
    omega
  have htrailing : isTrailing char.toNat = false := by
    simp only [isTrailing, Bool.and_eq_false_iff, decide_eq_false_iff_not]
    omega
  have hspells := Spells.codePoint (unit?_control hcontrol) hleading htrailing h
  rwa [Char.ofNat_toNat] at hspells

/-- What is written for a character spells it. -/
theorem spells_escape (char : Char) {text content : List Char} (h : Spells text content) :
    Spells (escape char ++ text) (char :: content) := by
  rw [escape.eq_def]
  split
  case h_8 hquote hslash _ _ _ _ _ =>
    -- No letter stands for the character, so it is written by its code point or as it is.
    split
    · next hcontrol => exact spells_control hcontrol h
    · next hcontrol => exact .plain hquote hslash hcontrol h
  -- The other characters are written by a letter after a backslash.
  all_goals exact .letter rfl h

/-- What is written for characters spells them. -/
theorem spells_flatMap_escape (content : List Char) : Spells (content.flatMap escape) content := by
  induction content with
  | nil => exact .nil
  | cons char content ih => exact spells_escape char ih

/-- A string is written by one of its spellings, between quotes. -/
theorem write_eq (content : String) (rest : List Char) :
    write content rest = '"' :: (content.toList.flatMap escape ++ '"' :: rest) := by
  rw [write]
  congr 1
  induction content.toList with
  | nil => rfl
  | cons char content ih =>
    rw [List.foldr_cons, ih, List.flatMap_cons, List.append_assoc]

/-- The string behind an opening quote is read as it is spelled. -/
theorem readTail_of_spells {text : List Char} {content : String} (h : Spells text content.toList)
    (rest : List Char) : readTail.run (text ++ '"' :: rest) = .ok (content, rest) := by
  have hread := readOn_of_spells h [] rest
  rwa [List.reverse_nil, List.nil_append, String.ofList_toList] at hread

/-- The string behind an opening quote is read back. -/
theorem write_eq_cons (content : String) (rest : List Char) :
    ∃ tail, write content rest = '"' :: tail ∧ readTail.run tail = .ok (content, rest) :=
  ⟨_, write_eq content rest, readTail_of_spells (spells_flatMap_escape _) rest⟩

end MarkupQuery.StringText
