import MarkupQuery.Proofs.Json.Joined
import MarkupQuery.Proofs.Json.Read

/-!
# Reading what is written

What is written is read back piece by piece, in front of any text. How deeply it is nested matters:
reading it needs a number of brackets that may be open at once, succeeds if there are as many, and
fails by the limit if there are not. Both halves pass together from the pieces to the whole.

## Main definitions

- `ReadsWithin`: the outcome of a reading that needs so many open brackets.
- `IsBlanks`: a text of blanks only.
- `Json.BeginsItem`: a text that may stand where an item is awaited.

## Main results

- `ReadsWithin.bind`: one reading after the other needs the greater of the two numbers.
- `Reader.items_item`, `Reader.items_close`: what is read within a bracket when an item, or the
  closing, follows.
- `Reader.readsWithin_list`: items are read as a list from their texts.
-/

namespace MarkupQuery

variable {α β ξ σ : Type}

/-- What is read is handed to a function. -/
theorem Reader.map_run (reader : Reader α) (f : α → β) (text : List Char) :
    (reader.map f).run text = (reader.run text >>= fun read => .ok (f read.1, read.2)) :=
  rfl

/-! ### The limit -/

/-- The outcome of a reading that needs so many open brackets at once: the expected one if there may
be as many, and the fault of opening too many otherwise. -/
structure ReadsWithin (needed depth : Nat) (expected : α) (outcome : Except Fault α) : Prop where
  /-- With enough brackets the reading succeeds. -/
  ok : needed ≤ depth → outcome = .ok expected
  /-- With too few brackets the limit is exceeded. -/
  limit : depth < needed → ∃ fault, outcome = .error fault ∧ fault.cause = .recursionLimit

namespace ReadsWithin

/-- A reading that succeeds anyway needs no brackets. -/
theorem of_eq {expected : α} {outcome : Except Fault α} (h : outcome = .ok expected)
    (depth : Nat) : ReadsWithin 0 depth expected outcome :=
  ⟨fun _ => h, nofun⟩

/-- One reading after the other needs as many brackets as the needier of them. -/
theorem bind {needed needed' depth : Nat} {a : α} {b : β} {first : Except Fault α}
    {next : α → Except Fault β} (hfirst : ReadsWithin needed depth a first)
    (hnext : ReadsWithin needed' depth b (next a)) :
    ReadsWithin (max needed needed') depth b (first >>= next) where
  ok hle := by
    rw [hfirst.ok (by omega)]
    exact hnext.ok (by omega)
  limit hlt := by
    rcases Nat.lt_or_ge depth needed with hmany | hfew
    · -- The first reading fails, and the next one is not reached.
      obtain ⟨fault, rfl, hcause⟩ := hfirst.limit hmany
      exact ⟨fault, rfl, hcause⟩
    · rw [hfirst.ok hfew]
      exact hnext.limit (by omega)

/-- Making something of what is read needs no further brackets. -/
theorem map {needed depth : Nat} {reader : Reader α} {a : α} {text rest : List Char}
    (h : ReadsWithin needed depth (a, rest) (reader.run text)) (f : α → β) :
    ReadsWithin needed depth (f a, rest) ((reader.map f).run text) := by
  rw [Reader.map_run, ← Nat.max_zero needed]
  exact h.bind (of_eq rfl depth)

/-- One more bracket is open, and one more may be. -/
theorem succ {needed depth : Nat} {expected : α} {outcome : Except Fault α}
    (h : ReadsWithin needed depth expected outcome) :
    ReadsWithin (needed + 1) (depth + 1) expected outcome :=
  ⟨fun hle => h.ok (Nat.le_of_succ_le_succ hle), fun hlt => h.limit (Nat.lt_of_succ_lt_succ hlt)⟩

end ReadsWithin

/-! ### Fixed pieces -/

/-- A character that is not blank is not skipped. -/
theorem skipBlanks_cons {char : Char} (h : isBlank char = false) (rest : List Char) :
    skipBlanks (char :: rest) = char :: rest := by
  rw [skipBlanks, List.dropWhile_cons, h]
  rfl

/-- Nothing but blanks. -/
def IsBlanks (text : List Char) : Prop :=
  ∀ char ∈ text, isBlank char = true

/-- No characters are blanks only. -/
theorem isBlanks_nil : IsBlanks [] :=
  List.forall_mem_nil _

/-- Blanks in front of a text are skipped. -/
theorem skipBlanks_append {blanks : List Char} (h : IsBlanks blanks) (text : List Char) :
    skipBlanks (blanks ++ text) = skipBlanks text :=
  List.dropWhile_append_of_pos h

/-- A colon is read after blanks. -/
theorem readColon_append {blanks : List Char} (h : IsBlanks blanks) (rest : List Char) :
    readColon (blanks ++ ':' :: rest) = .ok rest := by
  rw [readColon, skipBlanks_append h, skipBlanks_cons rfl]
  rfl

/-- A colon is read at once. -/
theorem readColon_cons (rest : List Char) : readColon (':' :: rest) = .ok rest :=
  readColon_append isBlanks_nil rest

/-- A written key is read back. -/
theorem Reader.key_write (key : String) (rest : List Char) :
    Reader.key.run (StringText.write key rest) = .ok (key, rest) := by
  obtain ⟨tail, hwrite, hread⟩ := StringText.write_eq_cons key rest
  rw [hwrite]
  exact hread

/-- A written string is read back. -/
theorem Json.readString_write (content : String) (rest : List Char) :
    Json.readString.run (StringText.write content rest) = .ok (content, rest) := by
  obtain ⟨tail, hwrite, hread⟩ := StringText.write_eq_cons content rest
  rw [hwrite, Json.readString]
  dsimp only
  rw [skipBlanks_cons rfl]
  exact hread

/-! ### Items -/

/-- A text may stand where an item is awaited: it begins neither with a blank nor with what closes
a bracket. -/
def Json.BeginsItem (text : List Char) : Prop :=
  ∃ char rest, text = char :: rest ∧ isBlank char = false ∧
    ∀ bracket : Bracket, char ≠ bracket.closing

/-- What begins with any other character may stand where an item is awaited. -/
theorem Json.beginsItem_cons {char : Char} (hblank : isBlank char = false) (harray : char ≠ ']')
    (hobject : char ≠ '\x7d') (rest : List Char) : Json.BeginsItem (char :: rest) := by
  refine ⟨char, rest, rfl, hblank, fun bracket => ?_⟩
  cases bracket with
  | array => exact harray
  | object => exact hobject

/-- What begins with a bracket may stand where an item is awaited. -/
theorem Json.beginsItem_opening (bracket : Bracket) (rest : List Char) :
    Json.BeginsItem (bracket.opening :: rest) := by
  cases bracket <;> exact beginsItem_cons rfl (by decide) (by decide) rest

/-- A string may stand where an item is awaited. -/
theorem Json.beginsItem_write_string (content : String) (rest : List Char) :
    Json.BeginsItem (StringText.write content rest) :=
  beginsItem_cons rfl (by decide) (by decide) _

/-- An object may stand where an item is awaited. -/
theorem Json.beginsItem_write_object (members : List (String × Json)) (rest : List Char) :
    Json.BeginsItem ((Json.object members).write rest) :=
  beginsItem_opening .object _

/-- A closing bracket is met at once. -/
theorem Bracket.turn_closing (bracket : Bracket) (isFirst : Bool) (rest : List Char) :
    bracket.turn isFirst (bracket.closing :: rest) = .ok (.close, rest) := by
  have hblank : isBlank bracket.closing = false := by cases bracket <;> rfl
  rw [Bracket.turn, skipBlanks_cons hblank]
  simp

/-- Blanks before what comes next within a bracket do not matter. -/
theorem Bracket.turn_append (bracket : Bracket) (isFirst : Bool) {blanks : List Char}
    (h : IsBlanks blanks) (text : List Char) :
    bracket.turn isFirst (blanks ++ text) = bracket.turn isFirst text := by
  rw [Bracket.turn, Bracket.turn, skipBlanks_append h]

/-- An item is met after the comma that is written before it, if one is, and after blanks. -/
theorem Bracket.turn_writeComma_append (bracket : Bracket) (isFirst : Bool) {blanks text : List Char}
    (hblanks : IsBlanks blanks) (h : Json.BeginsItem text) :
    bracket.turn isFirst (Json.writeComma isFirst (blanks ++ text)) = .ok (.item, text) := by
  obtain ⟨char, rest, rfl, hblank, hclosing⟩ := h
  have hbegin : skipBlanks (blanks ++ char :: rest) = char :: rest := by
    rw [skipBlanks_append hblanks, skipBlanks_cons hblank]
  -- Before the first item no comma is written, before any other one is.
  cases isFirst with
  | true =>
    rw [Json.writeComma, if_pos rfl, Bracket.turn, hbegin]
    simp [hclosing bracket]
  | false =>
    have hcomma : ',' ≠ bracket.closing := by cases bracket <;> decide
    rw [Json.writeComma, if_neg Bool.false_ne_true, Bracket.turn, skipBlanks_cons rfl]
    simp only [if_neg hcomma, Bool.false_eq_true, if_false, ne_eq, not_true_eq_false, hbegin,
      if_neg (hclosing bracket)]

/-- An item is met after the comma that is written before it, if one is. -/
theorem Bracket.turn_writeComma (bracket : Bracket) (isFirst : Bool) {text : List Char}
    (h : Json.BeginsItem text) :
    bracket.turn isFirst (Json.writeComma isFirst text) = .ok (.item, text) :=
  bracket.turn_writeComma_append isFirst isBlanks_nil h

namespace Reader

/-- Nothing more is read within a bracket that is closed. -/
theorem items_close (bracket : Bracket) (item : σ → Reader σ) (isFirst : Bool) (soFar : σ)
    (rest : List Char) :
    items bracket item isFirst soFar (bracket.closing :: rest) = .ok (soFar, rest) :=
  items_of_turn_close (bracket.turn_closing isFirst rest) soFar

/-- Blanks before what is left of a bracket do not matter. -/
theorem items_append (bracket : Bracket) (item : σ → Reader σ) (isFirst : Bool) (soFar : σ)
    {blanks : List Char} (h : IsBlanks blanks) (text : List Char) :
    items bracket item isFirst soFar (blanks ++ text) = items bracket item isFirst soFar text := by
  rw [items_eq, bracket.turn_append isFirst h, ← items_eq]

/-- An item that follows is read, and then what is left. -/
theorem items_item (bracket : Bracket) (item : σ → Reader σ) (isFirst : Bool) (soFar : σ)
    {text : List Char} (h : Json.BeginsItem text) :
    items bracket item isFirst soFar (Json.writeComma isFirst text) =
      ((item soFar).run text >>= fun read => items bracket item false read.1 read.2) :=
  items_of_turn_item (bracket.turn_writeComma isFirst h) soFar

/-- An item that follows is read, and then what is left. Both together need as many brackets as the
needier of them. -/
theorem readsWithin_items {needed needed' depth : Nat} {bracket : Bracket} {item : σ → Reader σ}
    {isFirst : Bool} {soFar read : σ} {expected : σ × List Char} {text rest : List Char}
    (hbegins : Json.BeginsItem text)
    (hitem : ReadsWithin needed depth (read, rest) ((item soFar).run text))
    (hrest : ReadsWithin needed' depth expected (items bracket item false read rest)) :
    ReadsWithin (max needed needed') depth expected
      (items bracket item isFirst soFar (Json.writeComma isFirst text)) := by
  rw [items_item bracket item isFirst soFar hbegins]
  exact hitem.bind hrest

/-- A written member is read as its key and its content. -/
theorem member_write (content : Reader α) (key : String) (text : List Char) :
    (member content).run (StringText.write key (':' :: text)) =
      (content.run text >>= fun read => .ok ((key, read.1), read.2)) :=
  member_run (key_write key _) (readColon_cons text)

/-- Items are read one by one from their texts, and are put in front of those read so far. -/
theorem readsWithin_items_list {item : Reader α} {depth : Nat} {text : ξ → List Char}
    {decode : ξ → α} {needed : ξ → Nat} {xs : List ξ}
    (hbegins : ∀ x ∈ xs, ∀ rest, Json.BeginsItem (text x ++ rest))
    (hitem : ∀ x ∈ xs, ∀ rest,
      ReadsWithin (needed x) depth (decode x, rest) (item.run (text x ++ rest)))
    (isFirst : Bool) (soFar : List α) (rest : List Char) :
    ReadsWithin ((xs.map needed).foldr max 0) depth ((xs.map decode).reverse ++ soFar, rest)
      (items .array (fun soFar => item.map (· :: soFar)) isFirst soFar
        (Json.joinTexts isFirst (xs.map text) (']' :: rest))) := by
  induction xs generalizing isFirst soFar with
  | nil => exact .of_eq (items_close .array _ isFirst soFar rest) depth
  | cons x xs ih =>
    have hx := List.mem_cons_self (a := x) (l := xs)
    have hxs := ih (fun y hy => hbegins y (List.mem_cons_of_mem _ hy))
      (fun y hy => hitem y (List.mem_cons_of_mem _ hy)) false (decode x :: soFar)
    rw [List.map_cons, List.map_cons, List.map_cons, List.reverse_cons, List.append_assoc]
    exact readsWithin_items (hbegins x hx _) ((hitem x hx _).map _) hxs

/-- Items are read as a list from their texts. -/
theorem readsWithin_list {item : Reader α} {depth : Nat} {text : ξ → List Char}
    {decode : ξ → α} {needed : ξ → Nat} {xs : List ξ}
    (hbegins : ∀ x ∈ xs, ∀ rest, Json.BeginsItem (text x ++ rest))
    (hitem : ∀ x ∈ xs, ∀ rest,
      ReadsWithin (needed x) depth (decode x, rest) (item.run (text x ++ rest)))
    (rest : List Char) :
    ReadsWithin ((xs.map needed).foldr max 0) depth (xs.map decode, rest)
      (item.list.run (Json.joinTexts true (xs.map text) (']' :: rest))) := by
  have hitems : ReadsWithin ((xs.map needed).foldr max 0) depth ((xs.map decode).reverse, rest)
      ((within .array (fun soFar => item.map (· :: soFar)) []).run
        (Json.joinTexts true (xs.map text) (']' :: rest))) := by
    rw [← List.append_nil (xs.map decode).reverse]
    exact readsWithin_items_list hbegins hitem true [] rest
  rw [← List.reverse_reverse (xs.map decode)]
  exact hitems.map List.reverse

end Reader

end MarkupQuery
