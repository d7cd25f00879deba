import Mathlib
import MarkupQuery.Interchange.Load
import MarkupQuery.Proofs.Decimal.Layout
import MarkupQuery.Proofs.Decimal.Shortest
import MarkupQuery.Proofs.Text.Quoted

/-!
# What messages tell

The message of an error names what was found and what was wanted, each kind in words of its own, and shows
the content of what was found unless it is an array or an object. So the error can be told from its message,
up to one thing: a number that is written with a point is only told by its digits. Errors with the same
message are the same otherwise.

Most messages differ in how they begin. Where the text of an offence is followed by more, by what was wanted
or by a place, it is the end that is read first.

## Main definitions

- `Json.MetAs`: what JSON is met as, and in which words this is told.
- `Wanted.words`: in which words it is told what is wanted.
- `Found.Alike`, `Offence.Alike`, `Cause.Alike` and `LoadError.Alike`: two of a kind are the same up to
  numbers whose digits are the same.

## Main results

- `Json.metAs_iff`: JSON is met as one thing, in the words that are told.
- `Found.text_eq_text_iff`, `Offence.message_eq_message_iff`, `Cause.message_eq_message_iff` and
  `LoadError.message_eq_message_iff`: two of a kind are told in the same words exactly if they are alike.
-/

namespace MarkupQuery

/-! ### Words -/

namespace Json

/-- What JSON is met as where something else is wanted, and the words in which this is told. -/
inductive MetAs : Json → Found → String → Prop where
  /-- The literal `null`. -/
  | null : MetAs .null .null "null"
  /-- A truth value, which is shown. -/
  | bool (value : Bool) : MetAs (.bool value) (.bool value) ("boolean `" ++ toString value ++ "`")
  /-- A whole number, which is shown. -/
  | integer (value : Int) :
      MetAs (.number (.integer value)) (.number (.integer value)) ("integer `" ++ toString value ++ "`")
  /-- Another number, whose shortest decimal is shown, without its power of ten if that is from -5 to 15. -/
  | float {value : Float} {decimal : Decimal} {text : String}
      (hdecimal : Decimal.OfBits value.toBits.toNat decimal)
      (htext : (⟨-5, 15⟩ : DecimalLayout).Writes decimal text.toList) :
      MetAs (.number (.float value)) (.number (.float value)) ("floating point `" ++ text ++ "`")
  /-- A string, which is spelled between quotes. -/
  | string {value text : String} (htext : Quoted.Spells text.toList value.toList) :
      MetAs (.string value) (.string value) ("string \"" ++ text ++ "\"")
  /-- An array, whatever its items are. -/
  | array (items : List Json) : MetAs (.array items) .array "sequence"
  /-- An object, whatever its members are. -/
  | object (members : List (String × Json)) : MetAs (.object members) .object "map"

/-- The words for a string are what is shown for it, after the word for its kind. -/
theorem string_append_quoted {value text : String} (htext : Quoted.Spells text.toList value.toList) :
    "string \"" ++ text ++ "\"" = "string " ++ Quoted.ofString value := by
  rw [Quoted.ofString_eq_iff.2 htext, ← String.append_assoc, ← String.append_assoc]
  rfl

/-- JSON is met as one thing, and this is told in one text. -/
theorem metAs_iff {json : Json} {found : Found} {text : String} :
    json.MetAs found text ↔ found = json.found ∧ text = found.text := by
  constructor
  · intro h
    cases h with
    | null | integer | array | object => exact ⟨rfl, rfl⟩
    | float hdecimal htext =>
      rw [Decimal.ofBits_iff.1 hdecimal] at htext
      rw [String.toList_injective (DecimalLayout.writes_iff.1 htext)]
      exact ⟨rfl, rfl⟩
    | bool value => cases value <;> exact ⟨rfl, rfl⟩
    | string htext => exact ⟨rfl, string_append_quoted htext⟩
  · rintro ⟨rfl, rfl⟩
    rcases json with _ | (_ | _) | (value | value) | value | items | members
    · exact .null
    · exact .bool false
    · exact .bool true
    · exact .integer value
    · exact .float (Decimal.ofBits_iff.2 rfl) (DecimalLayout.writes_iff.2 rfl)
    · obtain ⟨text, htext⟩ := Quoted.exists_spells value
      have h := MetAs.string htext
      rw [string_append_quoted htext] at h
      exact h
    · exact .array items
    · exact .object members

end Json

namespace Wanted

/-- In which words it is told what is wanted. -/
def words : List (Wanted × String) :=
  [(.string, "a string"), (.map, "a map"), (.sequence, "a sequence"), (.node, "struct RawNode")]

/-- What is wanted is told in these words. -/
theorem mem_words_iff {wanted : Wanted} {text : String} :
    (wanted, text) ∈ words ↔ text = wanted.text := by
  cases wanted <;> simp [words, Wanted.text]

end Wanted

/-! ### Beginnings and ends -/

/-- None of the texts begins with another one. -/
def Apart (texts : List (List Char)) : Prop :=
  ∀ text ∈ texts, ∀ text' ∈ texts, text <+: text' → text = text'

instance (texts : List (List Char)) : Decidable (Apart texts) :=
  inferInstanceAs (Decidable (∀ text ∈ texts, ∀ text' ∈ texts, _))

/-- It can be told with which of the texts another text begins. -/
theorem Apart.eq_of_append_eq {texts : List (List Char)} (h : Apart texts)
    {text text' rest rest' : List Char} (hmem : text ∈ texts) (hmem' : text' ∈ texts)
    (heq : text ++ rest = text' ++ rest') : text = text' := by
  rcases List.prefix_or_prefix_of_prefix (List.prefix_append text rest)
      (heq ▸ List.prefix_append text' rest') with hle | hle
  · exact h text hmem text' hmem' hle
  · exact (h text' hmem' text hmem hle).symm

/-- If each text has one of these beginnings, it tells with which of them it begins. -/
theorem Apart.opening_eq {openings : List String} (h : Apart (openings.map String.toList)) {α : Type}
    {text opening : α → String}
    (hopening : ∀ thing, opening thing ∈ openings ∧ ∃ rest, text thing = opening thing ++ rest)
    {thing thing' : α} (heq : text thing = text thing') : opening thing = opening thing' := by
  obtain ⟨hmem, rest, hrest⟩ := hopening thing
  obtain ⟨hmem', rest', hrest'⟩ := hopening thing'
  rw [hrest, hrest', ← String.toList_inj, String.toList_append, String.toList_append] at heq
  exact String.toList_injective
    (h.eq_of_append_eq (List.mem_map_of_mem hmem) (List.mem_map_of_mem hmem') heq)

/-- A number at the end of a text can be told if it stands behind a blank. -/
theorem append_toString_inj {text text' word : String} {number number' : Nat}
    (hword : ∃ front, word.toList = front ++ [' '])
    (h : text ++ word ++ toString number = text' ++ word ++ toString number') :
    text = text' ∧ number = number' := by
  have hblank (number : Nat) : ' ' ∉ (toString number).toList.reverse := by
    rw [Nat.toString_eq_ofList_toDigits, String.toList_ofList, List.mem_reverse]
    intro hmem
    exact forall_mem_toDigits (p := (· ≠ ' ')) (by decide) (by decide) (by decide) number _ hmem rfl
  obtain ⟨front, hfront⟩ := hword
  have hlist := congrArg (fun text => text.toList.reverse) h
  simp only [String.toList_append, hfront, List.reverse_append, List.reverse_singleton] at hlist
  rw [List.append_assoc, List.append_assoc] at hlist
  -- Read from its end, the text is the number up to the first blank.
  obtain ⟨hnumber, htext⟩ := Quoted.append_cons_inj (hblank number) (hblank number') hlist
  exact ⟨String.toList_injective (List.reverse_injective (List.append_cancel_left htext)),
    Nat.repr_inj.1 (String.toList_injective (List.reverse_injective hnumber))⟩

/-- With a number at its end, a text ends with a digit. -/
theorem isDigit_getLast?_append_toString (text : String) (number : Nat) :
    (text ++ toString number).toList.getLast?.any Char.isDigit = true := by
  have hne : Nat.toDigits 10 number ≠ [] := Nat.toDigits_ne_nil
  rw [String.toList_append, Nat.toString_eq_ofList_toDigits, String.toList_ofList,
    List.getLast?_append_of_ne_nil _ hne, List.getLast?_eq_some_getLast hne, Option.any_some]
  exact Nat.isDigit_of_mem_toDigits (by decide) (by decide) (List.getLast_mem hne)

/-! ### What was found and what was wanted -/

namespace Found

/-- Two things that were found are the same, up to numbers whose digits are the same. -/
inductive Alike : Found → Found → Prop where
  /-- They are the same. -/
  | refl (found : Found) : Alike found found
  /-- They are numbers that are written in the same way. -/
  | float {value value' : Float} (htext : (Number.float value).text = (Number.float value').text) :
      Alike (.number (.float value)) (.number (.float value'))

/-- How it begins to be told what was found. -/
def opening : Found → String
  | .null => "null"
  | .bool _ => "boolean `"
  | .number (.integer _) => "integer `"
  | .number (.float _) => "floating point `"
  | .string _ => "string "
  | .array => "sequence"
  | .object => "map"

/-- All that is found is told in a text with one of these beginnings. -/
def openings : List String :=
  ["null", "boolean `", "integer `", "floating point `", "string ", "sequence", "map"]

/-- What was found is told in a text with its beginning. -/
theorem exists_text_eq_append (found : Found) :
    found.opening ∈ openings ∧ ∃ rest, found.text = found.opening ++ rest := by
  rcases found with _ | _ | (_ | _) | _ | _ | _ <;> refine ⟨by simp [opening, openings], ?_⟩
  case bool | number.integer | number.float => exact ⟨_, String.append_assoc⟩
  case string => exact ⟨_, rfl⟩
  all_goals exact ⟨"", rfl⟩

/-- What was found is told in the same words exactly if it is alike. -/
theorem text_eq_text_iff {found found' : Found} : found.text = found'.text ↔ found.Alike found' := by
  constructor
  · intro h
    -- The beginning of the text tells the kind, and the rest of it the content.
    have hapart : Apart (openings.map String.toList) := by decide
    have hopening := hapart.opening_eq exists_text_eq_append h
    rcases found with _ | value | (value | value) | value | _ | _ <;>
      rcases found' with _ | value' | (value' | value') | value' | _ | _ <;>
      simp [opening] at hopening
    case bool.bool =>
      have hvalue := (String.append_right_inj _).1 ((String.append_left_inj _).1 h)
      cases value <;> cases value' <;> first | exact .refl _ | exact absurd hvalue (by decide)
    case number.integer.number.integer =>
      have hvalue := (String.append_right_inj _).1 ((String.append_left_inj _).1 h)
      rw [Int.repr_inj.1 hvalue]
      exact .refl _
    case number.float.number.float =>
      exact .float ((String.append_right_inj _).1 ((String.append_left_inj _).1 h))
    case string.string =>
      rw [Quoted.ofString_injective ((String.append_right_inj _).1 h)]
      exact .refl _
    all_goals exact .refl _
  · rintro (_ | htext)
    · rfl
    · show "floating point `" ++ _ ++ "`" = "floating point `" ++ _ ++ "`"
      rw [htext]

end Found

/-- What is wanted can be told from the end of a text. -/
theorem Wanted.append_text_inj {text text' : String} {wanted wanted' : Wanted}
    (h : text ++ wanted.text = text' ++ wanted'.text) : text = text' ∧ wanted = wanted' := by
  have hapart : Apart (words.map fun entry => entry.2.toList.reverse) := by decide
  have hmem (wanted : Wanted) :
      wanted.text.toList.reverse ∈ words.map fun entry => entry.2.toList.reverse :=
    List.mem_map.2 ⟨(wanted, wanted.text), mem_words_iff.2 rfl, rfl⟩
  have hlist := congrArg (fun text => text.toList.reverse) h
  simp only [String.toList_append, List.reverse_append] at hlist
  have htext := String.toList_injective
    (List.reverse_injective (hapart.eq_of_append_eq (hmem wanted) (hmem wanted') hlist))
  rw [htext, String.append_left_inj] at h
  refine ⟨h, ?_⟩
  cases wanted <;> cases wanted' <;> first | rfl | exact absurd htext (by decide)

/-! ### Offences -/

namespace Offence

/-- Two offences are the same, up to numbers whose digits are the same. -/
inductive Alike : Offence → Offence → Prop where
  /-- They are the same. -/
  | refl (offence : Offence) : Alike offence offence
  /-- The same is wanted where alike things are found. -/
  | invalidType {found found' : Found} (hfound : found.Alike found') (wanted : Wanted) :
      Alike (.invalidType found wanted) (.invalidType found' wanted)

/-- How the message of an offence begins. -/
def opening : Offence → String
  | .invalidType _ _ => "invalid type: "
  | .invalidLength _ => "invalid length "
  | .duplicateField _ => "duplicate field `"

/-- All messages of offences have one of these beginnings. -/
def openings : List String :=
  ["invalid type: ", "invalid length ", "duplicate field `"]

/-- The message of an offence has its beginning. -/
theorem exists_message_eq_append (offence : Offence) :
    offence.opening ∈ openings ∧ ∃ rest, offence.message = offence.opening ++ rest := by
  cases offence with
  | invalidType found wanted =>
    exact ⟨by simp [opening, openings], _,
      (congrArg (· ++ wanted.text) String.append_assoc).trans String.append_assoc⟩
  | invalidLength length => exact ⟨by simp [opening, openings], _, String.append_assoc⟩
  | duplicateField field => exact ⟨by simp [opening, openings], _, String.append_assoc⟩

/-- All messages of offences have one of these ends. -/
def endings : List String :=
  Wanted.words.map Prod.snd ++ [", expected fewer elements in array", "`"]

/-- The message of an offence has one of the ends. -/
theorem exists_message_eq_append_ending (offence : Offence) :
    ∃ text, ∃ ending ∈ endings, offence.message = text ++ ending := by
  cases offence with
  | invalidType found wanted =>
    have hmem := List.mem_map_of_mem (f := Prod.snd) (Wanted.mem_words_iff.2 (rfl : wanted.text = _))
    exact ⟨_, wanted.text, List.mem_append_left _ hmem, rfl⟩
  | invalidLength length => exact ⟨_, ", expected fewer elements in array", by simp [endings], rfl⟩
  | duplicateField field => exact ⟨_, "`", by simp [endings], rfl⟩

/-- Offences have the same message exactly if they are alike. -/
theorem message_eq_message_iff {offence offence' : Offence} :
    offence.message = offence'.message ↔ offence.Alike offence' := by
  constructor
  · intro h
    have hapart : Apart (openings.map String.toList) := by decide
    have hopening := hapart.opening_eq exists_message_eq_append h
    cases offence <;> cases offence' <;> simp [opening] at hopening
    case invalidType.invalidType =>
      obtain ⟨hfound, rfl⟩ := Wanted.append_text_inj h
      have htext := (String.append_right_inj _).1 ((String.append_left_inj _).1 hfound)
      exact .invalidType (Found.text_eq_text_iff.1 htext) _
    case invalidLength.invalidLength =>
      have hlength := (String.append_right_inj _).1 ((String.append_left_inj _).1 h)
      rw [Nat.repr_inj.1 hlength]
      exact .refl _
    case duplicateField.duplicateField =>
      rw [(String.append_right_inj _).1 ((String.append_left_inj _).1 h)]
      exact .refl _
  · rintro (_ | ⟨hfound, wanted⟩)
    · rfl
    · show "invalid type: " ++ _ ++ ", expected " ++ _ = "invalid type: " ++ _ ++ ", expected " ++ _
      rw [Found.text_eq_text_iff.2 hfound]

end Offence

/-! ### Errors -/

namespace Cause

/-- Two causes are the same, up to numbers whose digits are the same. -/
inductive Alike : Cause → Cause → Prop where
  /-- They are the same. -/
  | refl (cause : Cause) : Alike cause cause
  /-- They are alike offences. -/
  | offence {form form' : Offence} (hform : form.Alike form') : Alike (.offence form) (.offence form')

/-- The causes that are no offences. -/
def plain : List Cause :=
  [.endOfValue, .endOfString, .endOfArray, .endOfObject, .expectedLiteral, .expectedValue,
    .expectedColon, .expectedCommaInArray, .expectedCommaInObject, .invalidNumber, .numberOutOfRange,
    .invalidEscape, .loneSurrogate, .endOfEscape, .controlCharacter, .keyNotString, .trailingComma,
    .trailingCharacters, .recursionLimit]

/-- There are no other causes. -/
theorem mem_plain_or (cause : Cause) : cause ∈ plain ∨ ∃ form, cause = .offence form := by
  cases cause with
  | offence form => exact .inr ⟨form, rfl⟩
  | _ => exact .inl (by simp [plain])

/-- The message of no other cause is that of an offence. -/
theorem message_ne_of_mem_plain {cause : Cause} (h : cause ∈ plain) (form : Offence) :
    cause.message ≠ form.message := by
  have hapart : ∀ cause ∈ plain, ∀ opening ∈ Offence.openings,
      ¬opening.toList <+: cause.message.toList := by decide +kernel
  obtain ⟨hmem, rest, hrest⟩ := form.exists_message_eq_append
  intro heq
  rw [hrest] at heq
  refine hapart cause h _ hmem ⟨rest.toList, ?_⟩
  rw [heq, String.toList_append]

/-- Causes have the same message exactly if they are alike. -/
theorem message_eq_message_iff {cause cause' : Cause} :
    cause.message = cause'.message ↔ cause.Alike cause' := by
  constructor
  · intro h
    rcases mem_plain_or cause with hmem | ⟨form, rfl⟩ <;>
      rcases mem_plain_or cause' with hmem' | ⟨form', rfl⟩
    · have hnodup : (plain.map message).Nodup := by decide +kernel
      rw [List.inj_on_of_nodup_map hnodup hmem hmem' h]
      exact .refl _
    · exact absurd h (message_ne_of_mem_plain hmem form')
    · exact absurd h.symm (message_ne_of_mem_plain hmem' form)
    · exact .offence (Offence.message_eq_message_iff.1 h)
  · rintro (_ | hform)
    · rfl
    · exact Offence.message_eq_message_iff.2 hform

/-- No message of a cause ends with a digit. -/
theorem isDigit_getLast?_message (cause : Cause) :
    cause.message.toList.getLast?.any Char.isDigit = false := by
  rcases mem_plain_or cause with hmem | ⟨form, rfl⟩
  · have hall : ∀ cause ∈ plain, cause.message.toList.getLast?.any Char.isDigit = false := by
      decide +kernel
    exact hall cause hmem
  · obtain ⟨text, ending, hmem, hmessage⟩ := form.exists_message_eq_append_ending
    have hall : ∀ ending ∈ Offence.endings,
        ending.toList ≠ [] ∧ ending.toList.getLast?.any Char.isDigit = false := by decide +kernel
    rw [message, hmessage, String.toList_append, List.getLast?_append_of_ne_nil _ (hall ending hmem).1]
    exact (hall ending hmem).2

end Cause

namespace LoadError

/-- Two errors are the same, up to numbers whose digits are the same. -/
inductive Alike : LoadError → LoadError → Prop where
  /-- The same is found in place of an array. -/
  | notAnArray (typeName : String) : Alike (.notAnArray typeName) (.notAnArray typeName)
  /-- The text is refused for alike causes at the same position, if any. -/
  | json {cause cause' : Cause} (hcause : cause.Alike cause') (position? : Option Position) :
      Alike (.json cause position?) (.json cause' position?)

/-- How the message of an error begins. -/
def opening : LoadError → String
  | .json _ _ => "Invalid AST JSON: "
  | .notAnArray _ => "Expected a JSON array of nodes, found "

/-- All messages of errors have one of these beginnings. -/
def openings : List String :=
  ["Invalid AST JSON: ", "Expected a JSON array of nodes, found "]

/-- The message of an error has its beginning. -/
theorem exists_message_eq_append (error : LoadError) :
    error.opening ∈ openings ∧ ∃ rest, error.message = error.opening ++ rest := by
  rcases error with ⟨cause, _ | position⟩ | typeName <;> refine ⟨by simp [opening, openings], ?_⟩
  · exact ⟨cause.message, rfl⟩
  · refine ⟨cause.message ++ (" at line " ++ (toString position.line ++
      (" column " ++ toString position.column))), ?_⟩
    simp only [← String.append_assoc]
    rfl
  · exact ⟨typeName, rfl⟩

/-- A message with a position ends with a digit, one without does not. -/
theorem message_json_ne (cause cause' : Cause) (position : Position) :
    message (.json cause none) ≠ message (.json cause' (some position)) := by
  intro h
  have hmessage : cause.message = cause'.message ++ " at line " ++ toString position.line ++
      " column " ++ toString position.column := by
    rw [← String.append_right_inj "Invalid AST JSON: "]
    simp only [← String.append_assoc]
    exact h
  have hdigit := cause.isDigit_getLast?_message
  rw [hmessage, isDigit_getLast?_append_toString] at hdigit
  cases hdigit

/-- Errors have the same message exactly if they are alike. -/
theorem message_eq_message_iff {error error' : LoadError} :
    error.message = error'.message ↔ error.Alike error' := by
  constructor
  · intro h
    have hapart : Apart (openings.map String.toList) := by decide
    have hopening := hapart.opening_eq exists_message_eq_append h
    rcases error with ⟨cause, _ | ⟨line, column⟩⟩ | typeName <;>
      rcases error' with ⟨cause', _ | ⟨line', column'⟩⟩ | typeName' <;>
      simp [opening] at hopening
    · exact .json (Cause.message_eq_message_iff.1 ((String.append_right_inj _).1 h)) none
    · exact absurd h (message_json_ne cause cause' _)
    · exact absurd h.symm (message_json_ne cause' cause _)
    · obtain ⟨hbefore, rfl⟩ := append_toString_inj ⟨" column".toList, by decide⟩ h
      obtain ⟨hmessage, rfl⟩ := append_toString_inj ⟨" at line".toList, by decide⟩ hbefore
      exact .json (Cause.message_eq_message_iff.1 ((String.append_right_inj _).1 hmessage)) _
    · rw [(String.append_right_inj _).1 h]
      exact .notAnArray _
  · rintro (typeName | ⟨hcause, _ | position⟩)
    · rfl
    · exact congrArg ("Invalid AST JSON: " ++ ·) (Cause.message_eq_message_iff.2 hcause)
    · show "Invalid AST JSON: " ++ _ ++ _ ++ _ ++ _ ++ _ = "Invalid AST JSON: " ++ _ ++ _ ++ _ ++ _ ++ _
      rw [Cause.message_eq_message_iff.2 hcause]

end LoadError

end MarkupQuery
