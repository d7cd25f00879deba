import MarkupQuery.Json.Read

/-!
# What has been read

Whatever else reads a text that has been read as JSON is compared to that reading. For this the
reading is taken apart: within a bracket into its items one by one, and a value into the forms that
its first character tells apart.

## Main definitions

- `Reader.Collects`: the items that are read within a bracket, with the texts between them.
- `Json.IsPlain`: a literal or a number.
- `Json.Reads`: the forms of a value with what is read for them.

## Main results

- `Reader.items_induct`: induction along the items of a bracket.
- `Reader.collects_of_list`, `Reader.collects_of_members`: lists and members are collected.
- `Json.reads_of_reader`: how a value was read.
-/

namespace MarkupQuery

/-! ### Whole texts and brackets -/

namespace Bracket

/-- Where the bracket is closed, its closing comes next. -/
theorem skipBlanks_of_turn_close {bracket : Bracket} {isFirst : Bool} {text rest : List Char}
    (h : bracket.turn isFirst text = .ok (.close, rest)) :
    skipBlanks text = bracket.closing :: rest := by
  rw [turn] at h
  split at h
  · simp at h
  · next htext =>
    rw [htext]
    split at h
    · next hclosing =>
      cases h
      rw [hclosing]
    split at h
    · simp at h
    split at h
    · simp at h
    split at h
    · simp at h
    · split at h <;> cases h

/-- Where an item begins, it comes next itself or after a comma. -/
theorem exists_of_turn_item {bracket : Bracket} {isFirst : Bool} {text begin : List Char}
    (h : bracket.turn isFirst text = .ok (.item, begin)) :
    ∃ char after, skipBlanks text = char :: after ∧ char ≠ bracket.closing ∧
      (isFirst = true ∧ begin = char :: after ∨
        isFirst = false ∧ char = ',' ∧ begin = skipBlanks after) := by
  rw [turn] at h
  split at h
  · simp at h
  next char after htext =>
  split at h
  · simp at h
  next hclosing =>
  refine ⟨char, after, htext, hclosing, ?_⟩
  split at h
  · next hfirst =>
    cases h
    exact .inl ⟨hfirst, rfl⟩
  split at h
  · simp at h
  next hfirst hcomma =>
  right
  refine ⟨Bool.not_eq_true _ ▸ hfirst, Decidable.not_not.1 hcomma, ?_⟩
  split at h
  · simp at h
  · next hafter =>
    split at h
    · simp at h
    · cases h
      exact hafter.symm

end Bracket

namespace Reader

variable {α σ : Type}

/-- A text that is read as a whole is read up to blanks at its end. -/
theorem exists_of_readWhole {reader : Reader α} {text : List Char} {value : α}
    (h : reader.readWhole text = .ok value) :
    ∃ rest, reader.run text = .ok (value, rest) ∧ skipBlanks rest = [] := by
  obtain ⟨⟨read, rest⟩, hread, h⟩ := bind_eq_ok.1 h
  dsimp only at h
  split at h
  · next hrest =>
    cases h
    exact ⟨rest, hread, hrest⟩
  · simp at h

/-- Nothing more is read where the bracket is closed. -/
theorem items_of_turn_close {bracket : Bracket} {item : σ → Reader σ} {isFirst : Bool}
    {text rest : List Char} (h : bracket.turn isFirst text = .ok (.close, rest)) (soFar : σ) :
    items bracket item isFirst soFar text = .ok (soFar, rest) := by
  rw [items_eq, h]

/-- Where an item begins it is read, and then what is left. -/
theorem items_of_turn_item {bracket : Bracket} {item : σ → Reader σ} {isFirst : Bool}
    {text begin : List Char} (h : bracket.turn isFirst text = .ok (.item, begin)) (soFar : σ) :
    items bracket item isFirst soFar text =
      ((item soFar).run begin >>= fun read => items bracket item false read.1 read.2) := by
  rw [items_eq, h]
  cases hread : (item soFar).run begin <;> simp only [hread] <;> rfl

/-- What holds at the end of a bracket, and holds before an item if it holds after it, holds from the
beginning. -/
theorem items_induct {bracket : Bracket} {item : σ → Reader σ} {result : σ} {rest : List Char}
    {motive : Bool → σ → List Char → Prop}
    (close : ∀ isFirst text, bracket.turn isFirst text = .ok (.close, rest) →
      motive isFirst result text)
    (next : ∀ isFirst soFar text begin read after,
      bracket.turn isFirst text = .ok (.item, begin) → (item soFar).run begin = .ok (read, after) →
        motive false read after → motive isFirst soFar text)
    {isFirst : Bool} {soFar : σ} {text : List Char}
    (h : items bracket item isFirst soFar text = .ok (result, rest)) :
    motive isFirst soFar text := by
  -- Every item takes something off the text, so the induction is on its length.
  induction hn : text.length using Nat.strongRecOn generalizing isFirst soFar text with
  | ind n ih =>
    subst hn
    rw [items_eq] at h
    split at h
    · simp at h
    · next hturn =>
      cases h
      exact close _ _ hturn
    · next hturn =>
      split at h
      · simp at h
      · next hread =>
        have hlt := (item soFar).length_lt hread
        have hle := (Bracket.length_le_of_turn hturn).1
        exact next _ _ _ _ _ _ hturn hread (ih _ (Nat.lt_of_lt_of_le hlt hle) h rfl)

/-- Within a bracket the values are read one by one, up to its end. -/
inductive Collects (bracket : Bracket) (item : Reader α) :
    (isFirst : Bool) → List Char → List α → List Char → Prop where
  /-- The bracket is closed. -/
  | close {isFirst : Bool} {text rest : List Char}
      (hturn : bracket.turn isFirst text = .ok (.close, rest)) :
      Collects bracket item isFirst text [] rest
  /-- A value is read, and then others. -/
  | item {isFirst : Bool} {text begin after rest : List Char} {value : α} {values : List α}
      (hturn : bracket.turn isFirst text = .ok (.item, begin))
      (hread : item.run begin = .ok (value, after))
      (hrest : Collects bracket item false after values rest) :
      Collects bracket item isFirst text (value :: values) rest

/-- The values that are put in front of each other are read one by one. -/
theorem collects_of_within {bracket : Bracket} {item : Reader α} {text rest : List Char}
    {values : List α}
    (h : ((within bracket (fun soFar => item.map (· :: soFar)) []).map List.reverse).run text =
      .ok (values, rest)) : Collects bracket item true text values rest := by
  obtain ⟨⟨result, _⟩, hitems, h⟩ := bind_eq_ok.1 h
  cases h
  -- The values read so far are held in reverse; those that follow go in front of them.
  have hcollects : ∃ values, result = values.reverse ++ [] ∧
      Collects bracket item true text values rest := by
    apply items_induct (motive := fun isFirst soFar text =>
      ∃ values, result = values.reverse ++ soFar ∧
        Collects bracket item isFirst text values rest) _ _ hitems
    · intro isFirst text hturn
      exact ⟨[], rfl, .close hturn⟩
    · rintro isFirst soFar text begin read after hturn hread ⟨values, hresult, hrest⟩
      obtain ⟨⟨value, _⟩, hvalue, hread⟩ := bind_eq_ok.1 hread
      cases hread
      refine ⟨value :: values, ?_, .item hturn hvalue hrest⟩
      rw [hresult, List.reverse_cons, List.append_assoc]
      rfl
  obtain ⟨values, hresult, hvalues⟩ := hcollects
  rw [hresult, List.append_nil, List.reverse_reverse]
  exact hvalues

/-- The items of a list are read one by one. -/
theorem collects_of_list {item : Reader α} {text rest : List Char} {values : List α}
    (h : item.list.run text = .ok (values, rest)) : Collects .array item true text values rest :=
  collects_of_within h

/-- The members of an object are read one by one. -/
theorem collects_of_members {content : Reader α} {text rest : List Char}
    {values : List (String × α)} (h : content.members.run text = .ok (values, rest)) :
    Collects .object (member content) true text values rest :=
  collects_of_within h

/-- After its key and the colon, a member is read as its content. -/
theorem member_run {content : Reader α} {name : String} {text afterKey afterColon : List Char}
    (hkey : key.run text = .ok (name, afterKey)) (hcolon : readColon afterKey = .ok afterColon) :
    (member content).run text =
      (content.run afterColon >>= fun read => .ok ((name, read.1), read.2)) := by
  simp only [member, hkey, hcolon, bind, Except.bind]

/-- A member was read as its key, the colon, and its content. -/
theorem exists_of_member {content : Reader α} {name : String} {value : α} {text rest : List Char}
    (h : (member content).run text = .ok ((name, value), rest)) :
    ∃ afterKey afterColon, key.run text = .ok (name, afterKey) ∧
      readColon afterKey = .ok afterColon ∧ content.run afterColon = .ok (value, rest) := by
  obtain ⟨⟨name, afterKey⟩, hkey, h⟩ := bind_eq_ok.1 h
  obtain ⟨afterColon, hcolon, h⟩ := bind_eq_ok.1 h
  obtain ⟨⟨value, rest⟩, hvalue, h⟩ := bind_eq_ok.1 h
  cases h
  exact ⟨afterKey, afterColon, hkey, hcolon, hvalue⟩

end Reader

/-! ### Values -/

/-- A bracket is opened by its own character. -/
theorem Bracket.opened?_eq_some {char : Char} {bracket : Bracket}
    (h : Bracket.opened? char = some bracket) : char = bracket.opening := by
  unfold Bracket.opened? at h
  split at h
  · cases h
    assumption
  · split at h
    · cases h
      assumption
    · simp at h

namespace Json

/-- The JSON is a literal or a number. -/
def IsPlain : Json → Prop
  | .null | .bool _ | .number _ => True
  | .string _ | .array _ | .object _ => False

/-- How a value is read from a text without blanks in front, if so many brackets may be open. -/
inductive Reads (rest : List Char) : (depth : Nat) → List Char → Json → Prop where
  /-- A string begins with a quote. -/
  | string {depth : Nat} {tail : List Char} {content : String}
      (hread : StringText.readTail.run tail = .ok (content, rest)) :
      Reads rest depth ('"' :: tail) (.string content)
  /-- An array begins with a square bracket, within which one bracket less may be open. -/
  | array {depth : Nat} {tail : List Char} {items : List Json}
      (hread : Reader.Collects .array (reader depth) true tail items rest) :
      Reads rest (depth + 1) (Bracket.array.opening :: tail) (.array items)
  /-- An object begins with a brace, within which one bracket less may be open. -/
  | object {depth : Nat} {tail : List Char} {members : List (String × Json)}
      (hread : Reader.Collects .object (Reader.member (reader depth)) true tail members rest) :
      Reads rest (depth + 1) (Bracket.object.opening :: tail) (.object members)
  /-- Any other value begins with another character. -/
  | plain {depth : Nat} {char : Char} {tail : List Char} {json : Json} (hquote : char ≠ '"')
      (hopened : Bracket.opened? char = none)
      (hread : readScalar (char :: tail) = .ok (json, rest)) (hplain : json.IsPlain) :
      Reads rest depth (char :: tail) json

/-- A value that begins neither with a quote nor with a bracket is plain. -/
theorem isPlain_of_readScalar {char : Char} {text rest : List Char} {json : Json}
    (hquote : char ≠ '"') (h : readScalar (char :: text) = .ok (json, rest)) : json.IsPlain := by
  unfold readScalar at h
  split at h
  · simp at h
  · obtain ⟨_, -, h⟩ := bind_eq_ok.1 h
    cases h
    trivial
  · obtain ⟨_, -, h⟩ := bind_eq_ok.1 h
    cases h
    trivial
  · obtain ⟨_, -, h⟩ := bind_eq_ok.1 h
    cases h
    trivial
  · next heq =>
    cases heq
    exact absurd rfl hquote
  · obtain ⟨_, -, h⟩ := bind_eq_ok.1 h
    cases h
    trivial
  · split at h
    · obtain ⟨_, -, h⟩ := bind_eq_ok.1 h
      cases h
      trivial
    · simp at h

/-- A value was read in one of the forms of values. -/
theorem reads_of_reader {depth : Nat} {text rest : List Char} {json : Json}
    (h : (reader depth).run text = .ok (json, rest)) :
    Reads rest depth (skipBlanks text) json := by
  -- The values within brackets are read by the reader one level down, if there is one.
  have hwithin : ∃ nested?, reader depth = readerWithin nested? ∧
      ∀ nested, nested? = some nested → ∃ depth', depth = depth' + 1 ∧ nested = reader depth' := by
    cases depth with
    | zero => exact ⟨none, rfl, nofun⟩
    | succ depth =>
      refine ⟨some (reader depth), rfl, fun nested heq => ⟨depth, rfl, ?_⟩⟩
      exact (Option.some.inj heq).symm
  obtain ⟨nested?, hreader, hnested⟩ := hwithin
  rw [hreader] at h
  dsimp only [readerWithin] at h
  split at h
  · simp at h
  · next char tail htext =>
    rw [htext]
    split at h
    · next hopened =>
      -- No bracket is opened, so the value is a string or plain.
      by_cases hquote : char = '"'
      · subst hquote
        obtain ⟨⟨content, _⟩, hread, h⟩ := bind_eq_ok.1 h
        cases h
        exact .string hread
      · exact .plain hquote hopened h (isPlain_of_readScalar hquote h)
    · simp at h
    · next hopened =>
      obtain rfl := Bracket.opened?_eq_some hopened
      obtain ⟨depth, rfl, rfl⟩ := hnested _ rfl
      obtain ⟨⟨items, _⟩, hread, h⟩ := bind_eq_ok.1 h
      cases h
      exact .array (Reader.collects_of_list hread)
    · next hopened =>
      obtain rfl := Bracket.opened?_eq_some hopened
      obtain ⟨depth, rfl, rfl⟩ := hnested _ rfl
      obtain ⟨⟨members, _⟩, hread, h⟩ := bind_eq_ok.1 h
      cases h
      exact .object (Reader.collects_of_members hread)

end Json

end MarkupQuery
