import MarkupQuery.Proofs.Json.Skip
import MarkupQuery.Proofs.Json.TextGrammar

/-!
# Well-formed texts are skipped

Any text that is a value can be passed over, also where it cannot be read. Skipping takes up exactly the
value and goes on with the brackets that are open around it, so that an array or an object is skipped
item by item. Only a number has no end of its own: what follows it must not go on with it.

## Main definitions

- `Skip.EndsNumber`: what follows cannot be part of a number.

## Main results

- `Skip.string_of_isStringBody`, `Skip.number_of_isNumber`: strings and numbers are skipped.
- `Skip.value_of_isValue`: after a text that is a value, skipping goes on with the open brackets.
- `Json.skipper_of_isValue`: a text that is a value is skipped.
-/

namespace MarkupQuery

namespace Skip

open Json

/-! ### Strings and numbers -/

/-- What stands between quotes is skipped with the closing quote. -/
theorem string_of_isStringBody {body : List Char} (h : IsStringBody body) (rest : List Char) :
    string (body ++ '"' :: rest) = .ok rest := by
  induction h with
  | nil => rw [List.nil_append, string_cons, if_neg (by decide), if_pos rfl]
  | plain hquote hslash hcontrol _ ih =>
    rw [List.cons_append, string_cons, if_neg hcontrol, if_neg hquote, if_neg hslash, ih]
  | letter hletter _ ih =>
    exact (string_escape (escape_of_escaped? hletter _)).trans ih
  | unit hdigits _ ih =>
    rw [List.cons_append, List.cons_append, List.append_assoc]
    exact (string_escape (escape_of_readUnit (StringText.readUnit_append hdigits _))).trans ih

/-- Digits are skipped up to their end. -/
theorem digits_of_isDigits {text : List Char} (h : IsDigits text) {after : List Char}
    (hafter : Avoids Char.isDigit after) (fault : List Char → Fault) :
    digits fault (text ++ after) = .ok after := by
  have hdrop : after.dropWhile Char.isDigit = after := by
    cases after with
    | nil => rfl
    | cons char rest => rw [List.dropWhile_cons, avoids_cons.1 hafter, if_neg Bool.false_ne_true]
  have htext : (text ++ after).dropWhile Char.isDigit = after.dropWhile Char.isDigit :=
    List.dropWhile_append_of_pos h.isDigit
  obtain ⟨char, rest, rfl, hchar⟩ := h.exists_cons
  rw [List.cons_append] at htext ⊢
  rw [digits_of_isDigit hchar, htext, hdrop]

/-- The whole part of a number is skipped. -/
theorem whole_of_isWhole {text : List Char} (h : IsWhole text) {after : List Char}
    (hafter : Avoids Char.isDigit after) : whole (text ++ after) = .ok after := by
  cases h with
  | zero =>
    cases after with
    | nil => rfl
    | cons char rest =>
      show whole ('0' :: char :: rest) = _
      rw [whole, avoids_cons.1 hafter, if_neg Bool.false_ne_true]
  | digits hdigits hzero =>
    have hskip := digits_of_isDigits hdigits hafter (.on .invalidNumber)
    obtain ⟨char, rest, rfl, -⟩ := hdigits.exists_cons
    have hchar : char ≠ '0' := of_decide_eq_false (avoids_cons.1 hzero)
    rw [List.cons_append] at hskip ⊢
    rw [whole_eq_digits hchar, hskip]

/-- What follows a number is not of the kind of what numbers are made of. -/
def EndsNumber (rest : List Char) : Prop :=
  Avoids (fun char => char.isDigit || char = '.' || char = 'e' || char = 'E') rest

/-- A fraction is skipped, if there is one. -/
theorem fraction_of_isFraction {text : List Char} (h : IsFraction text) {after : List Char}
    (hafter : Avoids (fun char => char.isDigit || char = '.') after) :
    fraction (text ++ after) = .ok after := by
  cases h with
  | none => exact fraction_eq_self (hafter.ne_cons rfl)
  | digits hdigits =>
    exact digits_of_isDigits hdigits (hafter.mono fun char hchar => by simp [hchar]) _

/-- An exponent is skipped, if there is one. -/
theorem exponent_of_isExponent {text : List Char} (h : IsExponent text) {rest : List Char}
    (hrest : EndsNumber rest) : Skip.exponent (text ++ rest) = .ok rest := by
  have hdigits : ∀ {text}, IsDigits text → digits (.on .invalidNumber) (text ++ rest) = .ok rest :=
    fun h => digits_of_isDigits h (hrest.mono fun char hchar => by simp [hchar]) _
  cases h with
  | none => exact exponent_eq_self (hrest.ne_cons rfl) (hrest.ne_cons rfl)
  | unsigned hletter h =>
    -- A digit stands behind the letter, so there is no sign.
    have hskip := hdigits h
    obtain ⟨char, tail, rfl, hchar⟩ := h.exists_cons
    have hsign : ∀ sign : Char, sign.isDigit = false →
        ∀ rest', char :: (tail ++ rest) ≠ sign :: rest' := by
      intro sign hsign rest' heq
      exact ne_of_isDigit hchar hsign (List.cons.inj heq).1
    exact (exponent_unsigned hletter (hsign '+' rfl) (hsign '-' rfl)).trans hskip
  | signed hletter hsign h =>
    rcases hletter with rfl | rfl <;> rcases hsign with rfl | rfl <;> exact hdigits h

/-- A number is skipped. -/
theorem number_of_isNumber {text : List Char} (h : IsNumber text) {rest : List Char}
    (hrest : EndsNumber rest) : Skip.number (text ++ rest) = .ok rest := by
  obtain @⟨whole, fraction, exponent, hwhole, hfraction, hexponent⟩ := h
  -- From the back: an exponent begins with its letter, a fraction with its point. So no part of the number
  -- is taken for more of the part before it.
  have hpoint : Avoids (fun char => char.isDigit || char = '.') (exponent ++ rest) := by
    cases hexponent with
    | none => exact hrest.mono fun char hchar => by simp_all
    | unsigned hletter | signed hletter =>
      rw [List.cons_append, avoids_cons]
      rcases hletter with rfl | rfl <;> rfl
  have hdigit : Avoids Char.isDigit (fraction ++ (exponent ++ rest)) := by
    cases hfraction with
    | none => exact hpoint.mono fun char hchar => by simp [hchar]
    | digits => exact avoids_cons.2 rfl
  rw [List.append_assoc, List.append_assoc, Skip.number, whole_of_isWhole hwhole hdigit]
  show (Skip.fraction (fraction ++ (exponent ++ rest)) >>= Skip.exponent) = .ok rest
  rw [fraction_of_isFraction hfraction hpoint]
  exact exponent_of_isExponent hexponent hrest

/-! ### Items -/

/-- Blanks before a value do not matter. -/
theorem value_append {blanks : List Char} (h : IsBlanks blanks) (opened : List Bracket)
    (text : List Char) : value opened (blanks ++ text) = value opened text := by
  rw [← value_skipBlanks, skipBlanks_append h, value_skipBlanks]

/-- Blanks before an item do not matter. -/
theorem item_append {blanks : List Char} (h : IsBlanks blanks) (bracket : Bracket)
    (outer : List Bracket) (text : List Char) :
    item bracket outer (blanks ++ text) = item bracket outer text := by
  rw [← item_skipBlanks, skipBlanks_append h, item_skipBlanks]

/-- What stands before the content of an item is skipped, up to blanks. -/
theorem label_of_isLabel {bracket : Bracket} {label : List Char} (h : IsLabel bracket label)
    (rest : List Char) :
    ∃ blanks, IsBlanks blanks ∧ Skip.label bracket (label ++ rest) = .ok (blanks ++ rest) := by
  cases h with
  | array hblanks => exact ⟨label, hblanks, rfl⟩
  | @object before body between after hbefore hbody hbetween hafter =>
    refine ⟨after, hafter, ?_⟩
    simp only [List.append_assoc, List.cons_append]
    rw [Skip.label, skipBlanks_append hbefore, skipBlanks_cons rfl]
    show (string (body ++ '"' :: (between ++ ':' :: (after ++ rest))) >>= readColon) = _
    rw [string_of_isStringBody hbody]
    exact readColon_append hbetween _

/-- Blanks after an item do not matter. -/
theorem goOn_append {blanks : List Char} (h : IsBlanks blanks) (afterItem : Bool) (bracket : Bracket)
    (outer : List Bracket) (text : List Char) :
    goOn afterItem (bracket :: outer) (blanks ++ text) = goOn afterItem (bracket :: outer) text := by
  rw [goOn, goOn, leave, leave, skipBlanks_append h]

/-- Behind blanks there is as little of a number as there is behind the blanks. -/
theorem EndsNumber.append {blanks rest : List Char} (hrest : EndsNumber rest)
    (h : IsBlanks blanks) : EndsNumber (blanks ++ rest) := by
  cases blanks with
  | nil => exact hrest
  | cons char blanks =>
    -- The first blank itself is no part of a number, so it does not matter what follows it.
    have hblank := h char List.mem_cons_self
    simp only [isBlank, Bool.or_eq_true, decide_eq_true_eq] at hblank
    rw [List.cons_append, EndsNumber, avoids_cons]
    rcases hblank with ((rfl | rfl) | rfl) | rfl <;> rfl

/-- An item is skipped if its content is. -/
theorem item_of_itemText {bracket : Bracket} {outer : List Bracket} (item : ItemText bracket)
    (hskip : ∀ {rest}, EndsNumber rest →
      value (bracket :: outer) (item.content ++ rest) = goOn true (bracket :: outer) rest)
    {rest : List Char} (hrest : EndsNumber rest) :
    Skip.item bracket outer (item.text ++ rest) = goOn true (bracket :: outer) rest := by
  obtain ⟨blanks, hblanks, hlabel⟩ :=
    label_of_isLabel item.isLabel (item.content ++ (item.after ++ rest))
  rw [ItemText.text, List.append_assoc, List.append_assoc, Skip.item, hlabel]
  show value (bracket :: outer) (blanks ++ (item.content ++ (item.after ++ rest))) = _
  rw [value_append hblanks, hskip (hrest.append item.isBlanks), goOn_append item.isBlanks]

/-- Behind an item stands a comma or the closing, and neither can be part of a number. -/
theorem endsNumber_joinTexts (bracket : Bracket) (texts : List (List Char)) (rest : List Char) :
    EndsNumber (joinTexts false texts (bracket.closing :: rest)) := by
  cases texts with
  | nil => cases bracket <;> exact avoids_cons.2 rfl
  | cons => exact avoids_cons.2 rfl

/-- Items with commas between them are skipped up to the end of the bracket if their contents are. -/
theorem goOn_joinTexts {bracket : Bracket} {outer : List Bracket} {items : List (ItemText bracket)}
    (hvalue : ∀ item ∈ items, IsValue item.content)
    (hskip : ∀ item ∈ items, ∀ {rest}, EndsNumber rest →
      value (bracket :: outer) (item.content ++ rest) = goOn true (bracket :: outer) rest)
    (isFirst : Bool) (rest : List Char) :
    goOn (!isFirst) (bracket :: outer)
        (joinTexts isFirst (items.map ItemText.text) (bracket.closing :: rest)) =
      goOn true outer rest := by
  -- The induction is on the items that are left. The brackets that are open stay the same, for the content
  -- of an item closes whatever it opens.
  induction items generalizing isFirst with
  | nil => exact goOn_of_turn_close (bracket.turn_closing isFirst rest) outer
  | cons item items ih =>
    obtain ⟨hfirst, hothers⟩ := List.forall_mem_cons.1 hvalue
    obtain ⟨hskipFirst, hskipOthers⟩ := List.forall_mem_cons.1 hskip
    have hrest := endsNumber_joinTexts bracket (items.map ItemText.text) rest
    obtain ⟨blanks, begin, htext, hblanks, hbegins⟩ := item.exists_beginsItem hfirst
      (joinTexts false (items.map ItemText.text) (bracket.closing :: rest))
    rw [List.map_cons, joinTexts, htext,
      goOn_of_turn_item (bracket.turn_writeComma_append isFirst hblanks hbegins) outer,
      ← item_append hblanks, ← htext, item_of_itemText item hskipFirst hrest]
    exact ih hothers hskipOthers false

/-! ### Values -/

/-- A bracket that is opened at once is skipped from within. -/
theorem value_opening (bracket : Bracket) (opened : List Bracket) (text : List Char) :
    value opened (bracket.opening :: text) = goOn false (bracket :: opened) text := by
  have hblank : isBlank bracket.opening = false := by cases bracket <;> rfl
  exact value_of_opening (skipBlanks_cons hblank text) opened

/-- After a text that is a value, skipping goes on with the open brackets. -/
theorem value_of_isValue {text : List Char} (h : IsValue text) {rest : List Char}
    (hrest : EndsNumber rest) (opened : List Bracket) :
    value opened (text ++ rest) = goOn true opened rest := by
  -- The induction is on how the value is made, not on how deeply it is nested: within brackets the same is
  -- used for one more open bracket.
  induction h generalizing rest opened with
  | null | true | false => exact value_of_scalar (skipBlanks_cons rfl _) rfl rfl opened
  | @string body hbody =>
    have hscalar : scalar ('"' :: (body ++ '"' :: rest)) = .ok rest :=
      string_of_isStringBody hbody rest
    rw [List.cons_append, List.append_assoc]
    exact value_of_scalar (skipBlanks_cons rfl _) rfl hscalar opened
  | number hnumber =>
    have hskip := number_of_isNumber hnumber hrest
    obtain ⟨char, tail, rfl, hchar⟩ := hnumber.exists_cons
    obtain ⟨hblank, hopened, -⟩ := isBlank_of_isDigit hchar
    rw [List.cons_append] at hskip ⊢
    exact value_of_scalar (skipBlanks_cons hblank _) hopened ((scalar_of_isDigit hchar _).trans hskip)
      opened
  | @negative text hnumber =>
    have hscalar : scalar ('-' :: (text ++ rest)) = .ok rest := number_of_isNumber hnumber hrest
    exact value_of_scalar (skipBlanks_cons rfl _) rfl hscalar opened
  -- Only within brackets does it matter which ones are open; the list of them grows by one.
  | @empty bracket blanks hblanks =>
    have hclose : goOn false (bracket :: opened) (bracket.closing :: rest) = goOn true opened rest :=
      goOn_of_turn_close (bracket.turn_closing true rest) opened
    rw [List.cons_append, List.append_assoc, value_opening, goOn_append hblanks]
    exact hclose
  | @enclosed bracket items hvalue ih =>
    rw [enclose_append, value_opening]
    exact goOn_joinTexts hvalue (fun item hmem _ hrest => ih item hmem hrest _) true rest

end Skip

/-- A text that is a value is skipped, together with blanks in front of it. -/
theorem Json.skipper_of_isValue {blanks text : List Char} (hblanks : IsBlanks blanks)
    (h : Json.IsValue text) {rest : List Char} (hrest : Skip.EndsNumber rest) :
    Json.skipper.run (blanks ++ (text ++ rest)) = .ok ((), rest) := by
  have hvalue : Skip.value [] (blanks ++ (text ++ rest)) = .ok rest := by
    rw [Skip.value_append hblanks]
    exact Skip.value_of_isValue h hrest []
  show (Skip.value [] (blanks ++ (text ++ rest)) >>= fun rest => .ok ((), rest)) = .ok ((), rest)
  rw [hvalue]
  rfl

end MarkupQuery
