import MarkupQuery.Proofs.Json.ReadBack

/-!
# The grammar of JSON texts

A text that is well-formed JSON need not be one that can be read: its numbers may be of any size, halves of
surrogate pairs may stand alone in its strings, and its brackets may be nested to any depth. All that is
written is well-formed.

## Main definitions

- `Json.IsStringBody`, `Json.IsNumber`: what stands between quotes, and a number without its minus.
- `Json.IsLabel`, `Json.ItemText`: what stands before the content of an item, and the text of an item.
- `Json.IsValue`: the texts that are values.
- `Json.Numberless`: JSON in which there is no number.

## Main results

- `Json.IsValue.beginsItem`, `Json.ItemText.exists_beginsItem`: how values and items begin.
- `Json.Numberless.isValue_write`: what is written for JSON without numbers is a value.
-/

namespace MarkupQuery

/-- The text does not begin with a character of a kind. -/
def Avoids (kind : Char → Bool) (text : List Char) : Prop :=
  ∀ char ∈ text.head?, kind char = false

/-- A text with a first character does not begin with any other one. -/
theorem avoids_cons {kind : Char → Bool} {char : Char} {text : List Char} :
    Avoids kind (char :: text) ↔ kind char = false := by
  simp [Avoids]

/-- A text that does not begin with one character does not consist of it and a rest. -/
theorem Avoids.ne_cons {kind : Char → Bool} {text : List Char} (h : Avoids kind text) {char : Char}
    (hchar : kind char = true) (rest : List Char) : text ≠ char :: rest := by
  rintro rfl
  rw [avoids_cons.1 h] at hchar
  cases hchar

/-- A text that avoids more characters avoids fewer, too. -/
theorem Avoids.mono {kind kind' : Char → Bool} {text : List Char} (h : Avoids kind text)
    (himp : ∀ char, kind' char = true → kind char = true) : Avoids kind' text := by
  intro char hmem
  cases hkind : kind' char with
  | false => rfl
  | true => rw [← h char hmem, himp char hkind]

namespace Json

/-! ### The grammar -/

/-- What may stand between the quotes of a string. An escape may be half of a surrogate pair. -/
inductive IsStringBody : List Char → Prop where
  /-- Nothing. -/
  | nil : IsStringBody []
  /-- A character that stands for itself. -/
  | plain {char : Char} {text : List Char} (hquote : char ≠ '"') (hslash : char ≠ '\\')
      (hcontrol : ¬char < ' ') (h : IsStringBody text) : IsStringBody (char :: text)
  /-- A character that is meant by a letter. -/
  | letter {letter char : Char} {text : List Char}
      (hletter : StringText.escaped? letter = some char) (h : IsStringBody text) :
      IsStringBody ('\\' :: letter :: text)
  /-- Four hexadecimal digits. -/
  | unit {digits text : List Char} {unit : Nat}
      (hdigits : StringText.unit? digits = some (unit, [])) (h : IsStringBody text) :
      IsStringBody ('\\' :: 'u' :: (digits ++ text))

/-- At least one digit and nothing else. -/
structure IsDigits (text : List Char) : Prop where
  /-- There is a digit. -/
  ne_nil : text ≠ []
  /-- There is nothing else. -/
  isDigit : ∀ char ∈ text, char.isDigit = true

/-- The whole part of a number: a zero, or digits that do not begin with one. -/
inductive IsWhole : List Char → Prop where
  /-- A zero. -/
  | zero : IsWhole ['0']
  /-- Digits without a needless zero in front. -/
  | digits {text : List Char} (h : IsDigits text) (hzero : Avoids (· = '0') text) : IsWhole text

/-- The fraction of a number, which may be missing. -/
inductive IsFraction : List Char → Prop where
  /-- No fraction. -/
  | none : IsFraction []
  /-- A point and digits. -/
  | digits {text : List Char} (h : IsDigits text) : IsFraction ('.' :: text)

/-- The exponent of a number, which may be missing. -/
inductive IsExponent : List Char → Prop where
  /-- No exponent. -/
  | none : IsExponent []
  /-- A letter of either case and digits. -/
  | unsigned {letter : Char} {text : List Char} (hletter : letter = 'e' ∨ letter = 'E')
      (h : IsDigits text) : IsExponent (letter :: text)
  /-- A letter of either case, a sign and digits. -/
  | signed {letter sign : Char} {text : List Char} (hletter : letter = 'e' ∨ letter = 'E')
      (hsign : sign = '+' ∨ sign = '-') (h : IsDigits text) : IsExponent (letter :: sign :: text)

/-- A number without its minus, if it has one. -/
inductive IsNumber : List Char → Prop where
  /-- A whole part, perhaps a fraction, and perhaps an exponent. -/
  | intro {whole fraction exponent : List Char} (hwhole : IsWhole whole)
      (hfraction : IsFraction fraction) (hexponent : IsExponent exponent) :
      IsNumber (whole ++ (fraction ++ exponent))

/-- What may stand before the content of an item: blanks, and in an object a key and a colon. -/
inductive IsLabel : Bracket → List Char → Prop where
  /-- Before an item of an array stands nothing but blanks. -/
  | array {blanks : List Char} (h : IsBlanks blanks) : IsLabel .array blanks
  /-- Before the content of a member stand its key and a colon. -/
  | object {before body between after : List Char} (hbefore : IsBlanks before)
      (hbody : IsStringBody body) (hbetween : IsBlanks between) (hafter : IsBlanks after) :
      IsLabel .object (before ++ '"' :: (body ++ '"' :: (between ++ ':' :: after)))

/-- The text of an item, in its pieces. -/
structure ItemText (bracket : Bracket) where
  /-- What stands before the content. -/
  label : List Char
  /-- The content. -/
  content : List Char
  /-- What stands behind the content. -/
  after : List Char
  /-- What stands before the content is as the bracket asks for it. -/
  isLabel : IsLabel bracket label
  /-- Behind the content stand blanks. -/
  isBlanks : IsBlanks after

/-- The whole text of an item. -/
def ItemText.text {bracket : Bracket} (item : ItemText bracket) : List Char :=
  item.label ++ (item.content ++ item.after)

/-- The texts that are values, without blanks around them. -/
inductive IsValue : List Char → Prop where
  /-- The literal `null`. -/
  | null : IsValue ['n', 'u', 'l', 'l']
  /-- The literal `true`. -/
  | true : IsValue ['t', 'r', 'u', 'e']
  /-- The literal `false`. -/
  | false : IsValue ['f', 'a', 'l', 's', 'e']
  /-- A string. -/
  | string {body : List Char} (h : IsStringBody body) : IsValue ('"' :: (body ++ ['"']))
  /-- A number without a minus. -/
  | number {text : List Char} (h : IsNumber text) : IsValue text
  /-- A number with a minus. -/
  | negative {text : List Char} (h : IsNumber text) : IsValue ('-' :: text)
  /-- Brackets around nothing but blanks. -/
  | empty {bracket : Bracket} {blanks : List Char} (h : IsBlanks blanks) :
      IsValue (bracket.opening :: (blanks ++ [bracket.closing]))
  /-- Brackets around items with commas between them. -/
  | enclosed {bracket : Bracket} {items : List (ItemText bracket)}
      (h : ∀ item ∈ items, IsValue item.content) : IsValue (enclose bracket (items.map ItemText.text))

/-! ### How values begin -/

/-- A digit is no other character. -/
theorem ne_of_isDigit {char other : Char} (h : char.isDigit = true) (hother : other.isDigit = false) :
    char ≠ other := by
  rintro rfl
  rw [h] at hother
  cases hother

/-- A digit is neither a blank nor does it open or close a bracket. -/
theorem isBlank_of_isDigit {char : Char} (h : char.isDigit = true) :
    isBlank char = false ∧ Bracket.opened? char = none ∧
      ∀ bracket : Bracket, char ≠ bracket.closing := by
  refine ⟨?_, ?_, fun bracket => ne_of_isDigit h (by cases bracket <;> decide)⟩
  · simp only [isBlank, ne_of_isDigit h (rfl : ' '.isDigit = false),
      ne_of_isDigit h (rfl : '\n'.isDigit = false), ne_of_isDigit h (rfl : '\t'.isDigit = false),
      ne_of_isDigit h (rfl : '\r'.isDigit = false), decide_false, Bool.or_self]
  · rw [Bracket.opened?, if_neg (ne_of_isDigit h (by decide)), if_neg (ne_of_isDigit h (by decide))]

/-- Digits begin with one. -/
theorem IsDigits.exists_cons {text : List Char} (h : IsDigits text) :
    ∃ char rest, text = char :: rest ∧ char.isDigit = true := by
  obtain ⟨char, rest, rfl⟩ := List.exists_cons_of_ne_nil h.ne_nil
  exact ⟨char, rest, rfl, h.isDigit char List.mem_cons_self⟩

/-- A number begins with a digit. -/
theorem IsNumber.exists_cons {text : List Char} (h : IsNumber text) :
    ∃ char rest, text = char :: rest ∧ char.isDigit = true := by
  obtain ⟨hwhole, _, _⟩ := h
  cases hwhole with
  | zero => exact ⟨'0', _, rfl, rfl⟩
  | digits hdigits =>
    obtain ⟨char, rest, rfl, hchar⟩ := hdigits.exists_cons
    exact ⟨char, _, rfl, hchar⟩

/-- A value may stand where an item is awaited. -/
theorem IsValue.beginsItem {text : List Char} (h : IsValue text) (rest : List Char) :
    BeginsItem (text ++ rest) := by
  -- Every form has a first character of its own, but for numbers, which begin with any digit.
  cases h with
  | null | true | false | string | negative => exact beginsItem_cons rfl (by decide) (by decide) _
  | empty | enclosed => exact beginsItem_opening _ _
  | number hnumber =>
    obtain ⟨char, tail, rfl, hchar⟩ := hnumber.exists_cons
    obtain ⟨hblank, -, hclosing⟩ := isBlank_of_isDigit hchar
    exact ⟨char, _, rfl, hblank, hclosing⟩

/-- An item may stand where it is awaited, after blanks. -/
theorem ItemText.exists_beginsItem {bracket : Bracket} (item : ItemText bracket)
    (h : IsValue item.content) (rest : List Char) :
    ∃ blanks begin, item.text ++ rest = blanks ++ begin ∧ IsBlanks blanks ∧ BeginsItem begin := by
  obtain ⟨label, content, after, hlabel, _⟩ := item
  -- In an array the content is what begins, in an object the key.
  cases hlabel with
  | array hblanks =>
    refine ⟨label, content ++ (after ++ rest), ?_, hblanks, h.beginsItem _⟩
    rw [text, List.append_assoc, List.append_assoc]
  | @object before body between gap hbefore =>
    refine ⟨before, '"' :: (body ++ '"' :: (between ++ ':' :: gap) ++ (content ++ after) ++ rest), ?_,
      hbefore, beginsItem_cons rfl (by decide) (by decide) _⟩
    simp only [text, List.append_assoc, List.cons_append]

/-! ### What is written -/

/-- Whatever spells characters may stand between quotes. -/
theorem isStringBody_of_spells {text content : List Char} (h : StringText.Spells text content) :
    IsStringBody text := by
  induction h with
  | nil => exact .nil
  | plain hquote hslash hcontrol _ ih => exact .plain hquote hslash hcontrol ih
  | letter hletter _ ih => exact .letter hletter ih
  | codePoint hdigits _ _ _ ih => exact .unit hdigits ih
  | pair hdigits _ hdigits' _ _ ih => exact .unit hdigits (.unit hdigits' ih)

/-- An item of an array as it is written. -/
def ItemText.written (content : List Char) : ItemText .array :=
  ⟨[], content, [], .array isBlanks_nil, isBlanks_nil⟩

/-- A member as it is written. -/
def ItemText.writtenMember (key : String) (content : List Char) : ItemText .object where
  label := '"' :: (key.toList.flatMap StringText.escape ++ '"' :: [':'])
  content := content
  after := []
  isLabel := .object isBlanks_nil
    (isStringBody_of_spells (StringText.spells_flatMap_escape key.toList)) isBlanks_nil isBlanks_nil
  isBlanks := isBlanks_nil

/-- The text of a member as it is written. -/
theorem ItemText.text_writtenMember (key : String) (content : List Char) :
    (writtenMember key content).text = memberText key content := by
  rw [memberText, StringText.write_eq, text, writtenMember, List.append_nil, List.cons_append,
    List.append_assoc]
  rfl

/-- There is no number in the JSON. -/
inductive Numberless : Json → Prop where
  /-- The literal `null`. -/
  | null : Numberless .null
  /-- A truth value. -/
  | bool (value : Bool) : Numberless (.bool value)
  /-- A string. -/
  | string (value : String) : Numberless (.string value)
  /-- An array of such items. -/
  | array {items : List Json} (h : ∀ item ∈ items, Numberless item) : Numberless (.array items)
  /-- An object with such contents. -/
  | object {members : List (String × Json)} (h : ∀ member ∈ members, Numberless member.2) :
      Numberless (.object members)

/-- What is written for JSON without numbers is a value. -/
theorem Numberless.isValue_write {json : Json} (h : json.Numberless) : IsValue (json.write []) := by
  induction h with
  | null => exact .null
  | bool value =>
    cases value with
    | true => exact .true
    | false => exact .false
  | string value =>
    rw [write, StringText.write_eq]
    exact .string (isStringBody_of_spells (StringText.spells_flatMap_escape _))
  | @array items _ ih =>
    have htexts : items.map (·.write []) =
        (items.map fun item => ItemText.written (item.write [])).map ItemText.text := by
      rw [List.map_map]
      exact List.map_congr_left fun item _ => (List.append_nil _).symm
    rw [write_array, htexts]
    refine .enclosed fun item hmem => ?_
    obtain ⟨json, hjson, rfl⟩ := List.mem_map.1 hmem
    exact ih json hjson
  | @object members _ ih =>
    have htexts : (members.map fun member => memberText member.1 (member.2.write [])) =
        (members.map fun member => ItemText.writtenMember member.1 (member.2.write [])).map
          ItemText.text := by
      rw [List.map_map]
      exact List.map_congr_left fun member _ => (ItemText.text_writtenMember _ _).symm
    rw [write_object, htexts]
    refine .enclosed fun item hmem => ?_
    obtain ⟨member, hmember, rfl⟩ := List.mem_map.1 hmem
    exact ih member hmember

end Json

end MarkupQuery
