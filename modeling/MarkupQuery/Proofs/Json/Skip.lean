import MarkupQuery.Json.Skip
import MarkupQuery.Proofs.Json.ReadBack

/-!
# Skipping follows reading

Skipping passes over exactly what reading takes, wherever reading succeeds. For strings and numbers
this holds piece by piece. Reading goes down into brackets, while skipping holds the open brackets in
a list and goes on with them; what it does after a value is therefore stated for any open brackets.

## Main definitions

- `Skip.goOn`: what is left to be skipped after a value, or after a bracket was opened.

## Main results

- `Skip.string_of_readOn`, `Skip.number_of_read`, `Skip.scalar_of_readScalar`: values without
  brackets that are read are skipped.
- `Skip.value_of_reader`: after a value that is read, skipping goes on with the open brackets.
- `Json.skipper_of_reader`: a value that is read is skipped with the same rest.
-/

namespace MarkupQuery

namespace Skip

/-! ### Strings -/

/-- Skipping a string goes on after an escape. -/
theorem string_escape {text rest : List Char} (h : escape text = .ok rest) :
    string ('\\' :: text) = string rest := by
  rw [string_cons, if_neg (by decide), if_neg (by decide), if_pos rfl, h]

/-- An escape of one letter is skipped. -/
theorem escape_of_escaped? {letter char : Char} (h : StringText.escaped? letter = some char)
    (rest : List Char) : escape (letter :: rest) = .ok rest := by
  have hletter : letter ≠ 'u' := by
    rintro rfl
    cases h
  rw [escape, if_neg hletter, h]
  rfl

/-- An escape of four digits is skipped. -/
theorem escape_of_readUnit {text rest : List Char} {unit : Nat}
    (h : StringText.readUnit text = .ok (unit, rest)) : escape ('u' :: text) = .ok rest := by
  rw [escape, if_pos rfl, h]
  rfl

/-- A character that has to stand in front stands there if it is read. -/
theorem eq_cons_of_readExactly {wanted : Char} {text rest : List Char}
    (h : StringText.readExactly wanted text = .ok rest) : text = wanted :: rest := by
  cases text with
  | nil => cases h
  | cons char text =>
    rw [StringText.readExactly] at h
    split at h
    · next heq =>
      cases h
      rw [heq]
    · simp at h

/-- Skipping a string goes on after a code point, which is given by one escape or by two. -/
theorem string_of_readCodePoint {text rest : List Char} {char : Char}
    (h : StringText.readCodePoint text = .ok (char, rest)) :
    string ('\\' :: 'u' :: text) = string rest := by
  obtain ⟨⟨unit, rest₁⟩, hunit, h⟩ := bind_eq_ok.1 h
  rw [string_escape (escape_of_readUnit hunit)]
  dsimp only at h
  split at h
  · simp at h
  split at h
  · -- One escape gives the whole code point.
    rw [(Prod.mk.inj (Except.ok.inj h)).2]
  -- The second half of the pair is an escape of its own when it is skipped.
  obtain ⟨rest₂, hslash, h⟩ := bind_eq_ok.1 h
  obtain ⟨rest₃, hu, h⟩ := bind_eq_ok.1 h
  obtain ⟨⟨second, rest₄⟩, hsecond, h⟩ := bind_eq_ok.1 h
  dsimp only at h
  split at h
  · rw [eq_cons_of_readExactly hslash, eq_cons_of_readExactly hu,
      ← (Prod.mk.inj (Except.ok.inj h)).2]
    exact string_escape (escape_of_readUnit hsecond)
  · simp at h

/-- Skipping a string goes on after an escape that is read. -/
theorem string_of_readEscape {text rest : List Char} {char : Char}
    (h : StringText.readEscape text = .ok (char, rest)) :
    string ('\\' :: text) = string rest := by
  unfold StringText.readEscape at h
  split at h
  · simp at h
  · split at h
    · next hescaped =>
      cases h
      exact string_escape (escape_of_escaped? hescaped _)
    · split at h
      · next hletter =>
        subst hletter
        exact string_of_readCodePoint h
      · simp at h

/-- A string that is read is skipped. -/
theorem string_of_readOn {soFar text rest : List Char} {content : String}
    (h : StringText.readOn soFar text = .ok (content, rest)) : string text = .ok rest := by
  fun_induction StringText.readOn soFar text with
  | case1 => cases h
  | case2 =>
    cases h
    rw [string_cons, if_neg (by decide), if_pos rfl]
  | case3 => cases h
  | case4 _ _ _ _ hescape _ _ ih =>
    rw [string_of_readEscape hescape]
    exact ih h
  | case5 => cases h
  | case6 _ _ _ hquote hslash hcontrol ih =>
    -- Skipping looks for control characters first, reading does so last.
    rw [string_cons, if_neg hcontrol, if_neg hquote, if_neg hslash]
    exact ih h

/-! ### Numbers -/

/-- At least one digit is skipped with those that follow it. -/
theorem digits_of_isDigit {char : Char} (h : char.isDigit) (fault : List Char → Fault)
    (text : List Char) :
    digits fault (char :: text) = .ok ((char :: text).dropWhile Char.isDigit) := by
  rw [digits, if_pos h, List.dropWhile_cons_of_pos h]

/-- The digits of an exponent that is read are skipped. -/
theorem digits_of_readExponentDigits {negative exponentNegative : Bool} {significand : Nat}
    {exponent : Int} {text rest : List Char} {number : Number} (fault : List Char → Fault)
    (h : NumberText.readExponentDigits negative significand exponent exponentNegative text =
      .ok (number, rest)) : digits fault text = .ok rest := by
  unfold NumberText.readExponentDigits at h
  split at h
  · simp at h
  split at h
  · simp at h
  next hdigit =>
  rw [digits_of_isDigit (by simpa using hdigit)]
  dsimp only at h
  -- Whether or not the exponent fits, the rest begins behind its digits.
  split at h
  · rw [NumberText.rest_eq_of_scaled h]
  · split at h
    · simp at h
    · cases h
      rfl

/-- The digits of an exponent without a sign are skipped after its letter, of either case. -/
theorem exponent_unsigned {letter : Char} (hletter : letter = 'e' ∨ letter = 'E') {text : List Char}
    (hplus : ∀ rest, text ≠ '+' :: rest) (hminus : ∀ rest, text ≠ '-' :: rest) :
    Skip.exponent (letter :: text) = digits (.on .invalidNumber) text := by
  unfold Skip.exponent
  rcases hletter with rfl | rfl
  · split <;> simp_all
  · split <;> simp_all

/-- An exponent that is read is skipped with its letter, of either case. -/
theorem exponent_of_readExponent {negative : Bool} {significand : Nat} {exponent : Int}
    {text rest : List Char} {number : Number}
    (h : NumberText.readExponent negative significand exponent text = .ok (number, rest)) :
    Skip.exponent ('e' :: text) = .ok rest ∧ Skip.exponent ('E' :: text) = .ok rest := by
  unfold NumberText.readExponent at h
  split at h
  · have hdigits := digits_of_readExponentDigits (.on .invalidNumber) h
    exact ⟨hdigits, hdigits⟩
  · have hdigits := digits_of_readExponentDigits (.on .invalidNumber) h
    exact ⟨hdigits, hdigits⟩
  · next hplus hminus =>
    have hdigits := digits_of_readExponentDigits (.on .invalidNumber) h
    rw [exponent_unsigned (.inl rfl) hplus hminus, exponent_unsigned (.inr rfl) hplus hminus]
    exact ⟨hdigits, hdigits⟩

/-- No exponent is skipped where none begins. -/
theorem exponent_eq_self {text : List Char} (hlower : ∀ rest, text ≠ 'e' :: rest)
    (hupper : ∀ rest, text ≠ 'E' :: rest) : Skip.exponent text = .ok text := by
  unfold Skip.exponent
  split
  case h_7 => rfl
  -- In all other cases the text begins with the letter.
  all_goals
    first
    | exact absurd rfl (hlower _)
    | exact absurd rfl (hupper _)

/-- What may follow the digits of a scaled number is skipped. -/
theorem exponent_of_readScaled {negative : Bool} {significand : Nat} {exponent : Int}
    {text rest : List Char} {number : Number}
    (h : NumberText.readScaled negative significand exponent text = .ok (number, rest)) :
    Skip.exponent text = .ok rest := by
  unfold NumberText.readScaled at h
  split at h
  · exact (exponent_of_readExponent h).1
  · exact (exponent_of_readExponent h).2
  · next hlower hupper =>
    rw [NumberText.rest_eq_of_scaled h]
    exact exponent_eq_self hlower hupper

/-- A fraction that is read is skipped, and what may follow it. -/
theorem fraction_of_readFraction {negative : Bool} {significand : Nat} {exponent : Int}
    {text rest : List Char} {number : Number}
    (h : NumberText.readFraction negative significand exponent text = .ok (number, rest)) :
    (fraction ('.' :: text) >>= Skip.exponent) = .ok rest := by
  unfold NumberText.readFraction at h
  dsimp only at h
  split at h
  · simp at h
  next hdigits =>
  -- There is a first digit, so skipping finds one as well.
  cases text with
  | nil => exact absurd rfl hdigits
  | cons char text =>
    by_cases hdigit : char.isDigit
    · rw [fraction, digits_of_isDigit hdigit]
      exact exponent_of_readScaled h
    · rw [List.takeWhile_cons_of_neg hdigit] at hdigits
      exact absurd rfl hdigits

/-- No fraction is skipped where none begins. -/
theorem fraction_eq_self {text : List Char} (hpoint : ∀ rest, text ≠ '.' :: rest) :
    fraction text = .ok text := by
  unfold fraction
  split
  · exact absurd rfl (hpoint _)
  · rfl

/-- What follows the whole part of a number that is read is skipped. -/
theorem fraction_of_readAfterWhole {negative : Bool} {significand beyond : Nat}
    {text rest : List Char} {number : Number}
    (h : NumberText.readAfterWhole negative significand beyond text = .ok (number, rest)) :
    (fraction text >>= Skip.exponent) = .ok rest := by
  unfold NumberText.readAfterWhole at h
  split at h
  · exact fraction_of_readFraction h
  · exact (exponent_of_readExponent h).1
  · exact (exponent_of_readExponent h).2
  · next hpoint hlower hupper =>
    -- Neither a fraction nor an exponent follows, so nothing is left to be skipped.
    rw [fraction_eq_self hpoint]
    have hrest : rest = text := by
      split at h
      · cases h
        rfl
      · exact NumberText.rest_eq_of_scaled h
    rw [hrest]
    exact exponent_eq_self hlower hupper

/-- The whole part of a number does not begin with a zero unless it is zero. -/
theorem whole_eq_digits {char : Char} (h : char ≠ '0') (text : List Char) :
    whole (char :: text) = digits (.on .invalidNumber) (char :: text) := by
  unfold whole
  split
  · next heq =>
    cases heq
    exact absurd rfl h
  · rfl

/-- A number that is read is skipped. -/
theorem number_of_read {negative : Bool} {text rest : List Char} {number : Number}
    (h : NumberText.read negative text = .ok (number, rest)) : Skip.number text = .ok rest := by
  unfold NumberText.read at h
  split at h
  · simp at h
  next char text =>
  split at h
  · next hchar =>
    -- A zero is the whole part by itself, and no digit may follow it.
    subst hchar
    have hzero : whole ('0' :: text) = .ok text ∧
        NumberText.readAfterWhole negative 0 0 text = .ok (number, rest) := by
      cases text with
      | nil => exact ⟨rfl, h⟩
      | cons next text =>
        dsimp only at h
        split at h
        · simp at h
        · next hdigit => exact ⟨by rw [whole, if_neg hdigit], h⟩
    rw [Skip.number, hzero.1]
    exact fraction_of_readAfterWhole hzero.2
  split at h
  · next hzero hdigit =>
    rw [Skip.number, whole_eq_digits hzero, digits_of_isDigit hdigit]
    exact fraction_of_readAfterWhole h
  · simp at h

/-! ### Scalars -/

/-- A value that begins with a digit is skipped as a number. -/
theorem scalar_of_isDigit {char : Char} (h : char.isDigit) (text : List Char) :
    scalar (char :: text) = Skip.number (char :: text) := by
  unfold scalar
  split
  case h_7 heq =>
    cases heq
    rw [if_pos h]
  case h_1 heq => cases heq
  all_goals
    next heq =>
    cases heq
    exact absurd h (by decide)

/-- A value without brackets that is read is skipped. -/
theorem scalar_of_readScalar {text rest : List Char} {json : Json}
    (h : Json.readScalar text = .ok (json, rest)) : scalar text = .ok rest := by
  unfold Json.readScalar at h
  split at h
  · simp at h
  · obtain ⟨_, hliteral, h⟩ := bind_eq_ok.1 h
    cases h
    exact hliteral
  · obtain ⟨_, hliteral, h⟩ := bind_eq_ok.1 h
    cases h
    exact hliteral
  · obtain ⟨_, hliteral, h⟩ := bind_eq_ok.1 h
    cases h
    exact hliteral
  · obtain ⟨_, hstring, h⟩ := bind_eq_ok.1 h
    cases h
    exact string_of_readOn hstring
  · obtain ⟨_, hnumber, h⟩ := bind_eq_ok.1 h
    cases h
    exact number_of_read hnumber
  · split at h
    · next hdigit =>
      obtain ⟨_, hnumber, h⟩ := bind_eq_ok.1 h
      cases h
      rw [scalar_of_isDigit hdigit]
      exact number_of_read hnumber
    · simp at h

/-! ### Brackets -/

/-- Pass over an item of the innermost bracket, and over all that is left of the open brackets. -/
def item (bracket : Bracket) (outer : List Bracket) (text : List Char) :
    Except Fault (List Char) := do
  let rest ← label bracket text
  value (bracket :: outer) rest

/-- Pass over all that is left of the open brackets, after an item or after a bracket was opened. -/
def goOn (afterItem : Bool) (opened : List Bracket) (text : List Char) :
    Except Fault (List Char) := do
  let (left, rest) ← leave afterItem opened text
  match left with
  | [] => .ok rest
  | bracket :: outer => item bracket outer rest

/-- After what a value begins with, skipping goes on with the open brackets, of which it may have
opened one more. -/
theorem value_of_head {bracket? : Option Bracket} {text rest : List Char}
    (h : head text = .ok (bracket?, rest)) (opened : List Bracket) :
    value opened text = goOn bracket?.isNone (bracket?.toList ++ opened) rest := by
  rw [value_eq, advance, h, goOn]
  simp only [bind, Except.bind]
  cases leave bracket?.isNone (bracket?.toList ++ opened) rest with
  | error fault => rfl
  | ok read =>
    obtain ⟨left, after⟩ := read
    cases left with
    | nil => rfl
    | cons bracket outer =>
      simp only [item, bind, Except.bind]
      cases label bracket after <;> rfl

/-- No blanks are left in front once they have been skipped. -/
theorem skipBlanks_skipBlanks (text : List Char) :
    skipBlanks (skipBlanks text) = skipBlanks text := by
  cases htext : skipBlanks text with
  | nil => rfl
  | cons char rest =>
    have hblank : isBlank char = false := by
      have hhead := List.head?_dropWhile_not isBlank text
      rw [show text.dropWhile isBlank = char :: rest from htext] at hhead
      exact hhead
    exact skipBlanks_cons hblank rest

/-- Blanks in front of a value do not matter. -/
theorem value_skipBlanks (opened : List Bracket) (text : List Char) :
    value opened (skipBlanks text) = value opened text := by
  rw [value_eq, value_eq, advance, advance, head, head, skipBlanks_skipBlanks]

/-- Blanks in front of an item do not matter. -/
theorem item_skipBlanks (bracket : Bracket) (outer : List Bracket) (text : List Char) :
    item bracket outer (skipBlanks text) = item bracket outer text := by
  cases bracket with
  | array => exact value_skipBlanks _ text
  | object => rw [item, item, label, label, skipBlanks_skipBlanks]

/-- At the end of the innermost bracket, skipping goes on with the others. -/
theorem goOn_of_turn_close {bracket : Bracket} {isFirst : Bool} {text rest : List Char}
    (h : bracket.turn isFirst text = .ok (.close, rest)) (outer : List Bracket) :
    goOn (!isFirst) (bracket :: outer) text = goOn true outer rest := by
  have hcomma : bracket.closing ≠ ',' := by cases bracket <;> decide
  have hleave : leave (!isFirst) (bracket :: outer) text = leave true outer rest := by
    rw [leave, Bracket.skipBlanks_of_turn_close h]
    simp [hcomma]
  rw [goOn, goOn, hleave]

/-- Where an item follows in the innermost bracket, it is skipped. -/
theorem goOn_of_turn_item {bracket : Bracket} {isFirst : Bool} {text begin : List Char}
    (h : bracket.turn isFirst text = .ok (.item, begin)) (outer : List Bracket) :
    goOn (!isFirst) (bracket :: outer) text = item bracket outer begin := by
  obtain ⟨char, after, htext, hclosing, hbegin⟩ := Bracket.exists_of_turn_item h
  rw [goOn, leave, htext]
  rcases hbegin with ⟨rfl, rfl⟩ | ⟨rfl, rfl, rfl⟩
  · simp [hclosing, bind, Except.bind]
  · -- Reading leaves out the blanks after the comma at once, skipping does so with the item.
    rw [item_skipBlanks]
    simp [bind, Except.bind]

/-- Within a bracket that is read item by item, each of which is skipped, all is skipped up to its
end. -/
theorem goOn_of_collects {α : Type} {bracket : Bracket} {outer : List Bracket} {reader : Reader α}
    {isFirst : Bool} {text rest : List Char} {values : List α}
    (hitem : ∀ {text value rest}, reader.run text = .ok (value, rest) →
      item bracket outer text = goOn true (bracket :: outer) rest)
    (h : Reader.Collects bracket reader isFirst text values rest) :
    goOn (!isFirst) (bracket :: outer) text = goOn true outer rest := by
  induction h with
  | close hturn => exact goOn_of_turn_close hturn outer
  | item hturn hread _ ih =>
    rw [goOn_of_turn_item hturn, hitem hread]
    exact ih

/-- After a member that is read, skipping goes on within the object. -/
theorem item_of_member {α : Type} {content : Reader α} {outer : List Bracket}
    {text rest : List Char} {member : String × α}
    (hcontent : ∀ {text read rest}, content.run text = .ok (read, rest) →
      value (.object :: outer) text = goOn true (.object :: outer) rest)
    (h : (Reader.member content).run text = .ok (member, rest)) :
    item .object outer text = goOn true (.object :: outer) rest := by
  obtain ⟨afterKey, afterColon, hkey, hcolon, hread⟩ := Reader.exists_of_member h
  obtain ⟨tail, rfl, hstring⟩ : ∃ tail, text = '"' :: tail ∧ Skip.string tail = .ok afterKey := by
    dsimp only [Reader.key] at hkey
    split at hkey
    · exact ⟨_, rfl, string_of_readOn hkey⟩
    · simp at hkey
  have hlabel : label .object ('"' :: tail) = .ok afterColon := by
    rw [label, skipBlanks_cons rfl]
    show (Skip.string tail >>= readColon) = .ok afterColon
    rw [hstring]
    exact hcolon
  rw [item, hlabel]
  exact hcontent hread

/-- After a value without brackets that is skipped, skipping goes on with the open brackets. -/
theorem value_of_scalar {char : Char} {text tail rest : List Char}
    (htext : skipBlanks text = char :: tail) (hopened : Bracket.opened? char = none)
    (h : scalar (char :: tail) = .ok rest) (opened : List Bracket) :
    value opened text = goOn true opened rest := by
  have hhead : head text = .ok (none, rest) := by
    rw [head, htext]
    simp only [hopened, h, bind, Except.bind]
  exact value_of_head hhead opened

/-- After the opening of a bracket, skipping goes on within it. -/
theorem value_of_opening {bracket : Bracket} {text tail : List Char}
    (htext : skipBlanks text = bracket.opening :: tail) (opened : List Bracket) :
    value opened text = goOn false (bracket :: opened) tail := by
  have hhead : head text = .ok (some bracket, tail) := by
    rw [head, htext]
    cases bracket <;> rfl
  exact value_of_head hhead opened

/-- After a value that is read, skipping goes on with the open brackets. -/
theorem value_of_reader {depth : Nat} {text rest : List Char} {json : Json}
    (h : (Json.reader depth).run text = .ok (json, rest)) (opened : List Bracket) :
    value opened text = goOn true opened rest := by
  induction depth using Nat.strongRecOn generalizing text rest json opened with
  | ind depth ih =>
    have hreads := Json.reads_of_reader h
    generalize htext : skipBlanks text = begin at hreads
    -- Within a bracket the values are nested less deeply, whatever is open around them.
    cases hreads with
    | string hread => exact value_of_scalar htext rfl (string_of_readOn hread) opened
    | plain hquote hopened hread hplain =>
      exact value_of_scalar htext hopened (scalar_of_readScalar hread) opened
    | array hread =>
      rw [value_of_opening htext]
      refine goOn_of_collects (fun hitem => ?_) hread
      exact ih _ (Nat.lt_succ_self _) hitem _
    | object hread =>
      rw [value_of_opening htext]
      refine goOn_of_collects (fun hmember => item_of_member (fun hcontent => ?_) hmember) hread
      exact ih _ (Nat.lt_succ_self _) hcontent _

end Skip

/-- A value that is read is skipped with the same rest. -/
theorem Json.skipper_of_reader {depth : Nat} {text rest : List Char} {json : Json}
    (h : (Json.reader depth).run text = .ok (json, rest)) :
    Json.skipper.run text = .ok ((), rest) := by
  have hvalue : Skip.value [] text = .ok rest := Skip.value_of_reader h []
  show (Skip.value [] text >>= fun rest => .ok ((), rest)) = .ok ((), rest)
  rw [hvalue]
  rfl

end MarkupQuery
