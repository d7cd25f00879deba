import MarkupQuery.Proofs.Json.TextGrammar

/-!
# JSON by way of texts

JSON without numbers is read back from its text if as many brackets may be open at once as stand in one
another in it, and it exceeds the limit otherwise.

## Main definitions

- `Json.nesting`: how many brackets stand in one another.

## Main results

- `Json.readsWithin_write`: JSON without numbers is read back within its nesting.
- `Json.compact_injective`: JSON without numbers is told apart by its text.
-/

namespace MarkupQuery.Json

/-! ### Nesting -/

mutual

/-- How many brackets are open at once at most. -/
def nesting : Json → Nat
  | .null | .bool _ | .number _ | .string _ => 0
  | .array items => nestingItems items + 1
  | .object members => nestingMembers members + 1

/-- The nesting of the most nested item. -/
def nestingItems : List Json → Nat
  | [] => 0
  | item :: rest => max item.nesting (nestingItems rest)

/-- The nesting of the most nested content of a member. -/
def nestingMembers : List (String × Json) → Nat
  | [] => 0
  | (_, content) :: rest => max content.nesting (nestingMembers rest)

end

/-- Items are nested as the most nested of them. -/
theorem foldr_max_nesting (items : List Json) :
    (items.map nesting).foldr max 0 = nestingItems items := by
  induction items with
  | nil => rfl
  | cons item rest ih => rw [List.map_cons, List.foldr_cons, ih, nestingItems]

/-- Members are nested as the most nested of their contents. -/
theorem foldr_max_nestingMembers (members : List (String × Json)) :
    (members.map fun member => member.2.nesting).foldr max 0 = nestingMembers members := by
  induction members with
  | nil => rfl
  | cons member rest ih => rw [List.map_cons, List.foldr_cons, ih, nestingMembers]

/-! ### Reading back -/

/-- Written members are read one by one, and are put in front of those read so far. -/
theorem readsWithin_items_members {content : Reader Json} {depth : Nat}
    {members : List (String × Json)}
    (hcontent : ∀ member ∈ members, ∀ rest,
      ReadsWithin member.2.nesting depth (member.2, rest) (content.run (member.2.write rest)))
    (isFirst : Bool) (soFar : List (String × Json)) (rest : List Char) :
    ReadsWithin (nestingMembers members) depth (members.reverse ++ soFar, rest)
      (Reader.items .object (fun soFar => (Reader.member content).map (· :: soFar)) isFirst soFar
        (writeMembers isFirst members ('\x7d' :: rest))) := by
  induction members generalizing isFirst soFar with
  | nil => exact .of_eq (Reader.items_close .object _ isFirst soFar rest) depth
  | cons member members ih =>
    obtain ⟨key, json⟩ := member
    obtain ⟨hfirst, hrest⟩ := List.forall_mem_cons.1 hcontent
    have hmember : ReadsWithin json.nesting depth
        ((key, json), writeMembers false members ('\x7d' :: rest))
        ((Reader.member content).run (StringText.write key
          (':' :: json.write (writeMembers false members ('\x7d' :: rest))))) := by
      rw [Reader.member_write, ← Nat.max_zero json.nesting]
      exact (hfirst _).bind (.of_eq rfl depth)
    rw [List.reverse_cons, List.append_assoc]
    exact Reader.readsWithin_items (beginsItem_write_string key _) (hmember.map _)
      (ih hrest false ((key, json) :: soFar))

/-- Written members are read as members. -/
theorem readsWithin_members {content : Reader Json} {depth : Nat}
    {members : List (String × Json)}
    (hcontent : ∀ member ∈ members, ∀ rest,
      ReadsWithin member.2.nesting depth (member.2, rest) (content.run (member.2.write rest)))
    (rest : List Char) :
    ReadsWithin (nestingMembers members) depth (members, rest)
      (content.members.run (writeMembers true members ('\x7d' :: rest))) := by
  have hitems : ReadsWithin (nestingMembers members) depth (members.reverse, rest)
      ((Reader.within .object (fun soFar => (Reader.member content).map (· :: soFar)) []).run
        (writeMembers true members ('\x7d' :: rest))) := by
    rw [← List.append_nil members.reverse]
    exact readsWithin_items_members hcontent true [] rest
  have hreversed := hitems.map List.reverse
  rwa [List.reverse_reverse] at hreversed

/-- JSON without numbers is read back from its text if as many brackets may be open as stand in one
another in it. Otherwise the limit is exceeded. -/
theorem readsWithin_write {json : Json} (h : json.Numberless) (depth : Nat) (rest : List Char) :
    ReadsWithin json.nesting depth (json, rest) ((reader depth).run (json.write rest)) := by
  induction h generalizing depth rest with
  | null => exact .of_eq (by cases depth <;> rfl) depth
  | bool value => exact .of_eq (by cases depth <;> cases value <;> rfl) depth
  | string value =>
    obtain ⟨tail, hwrite, hread⟩ := StringText.write_eq_cons value rest
    have hstring : (reader depth).run ('"' :: tail) = .ok (.string value, rest) := by
      have hscalar : readScalar ('"' :: tail) = .ok (.string value, rest) := by
        simp only [readScalar, hread, bind, Except.bind]
      cases depth <;> exact hscalar
    rw [write, hwrite]
    exact .of_eq hstring depth
  | @array items hitems ih =>
    cases depth with
    | zero => exact ⟨nofun, fun _ => ⟨_, rfl, rfl⟩⟩
    | succ depth =>
      have hlist := Reader.readsWithin_list
        (fun item hmem => (hitems item hmem).isValue_write.beginsItem)
        (fun item hmem rest => write_eq_append item rest ▸ ih item hmem depth rest) rest
      rw [List.map_id', foldr_max_nesting, ← writeItems_eq_joinTexts] at hlist
      exact (hlist.map Json.array).succ
  | @object members hmembers ih =>
    cases depth with
    | zero => exact ⟨nofun, fun _ => ⟨_, rfl, rfl⟩⟩
    | succ depth =>
      have hlist := readsWithin_members (fun member hmem => ih member hmem depth) rest
      exact (hlist.map Json.object).succ

/-- The text of JSON without numbers is read as the JSON if as many brackets as stand in one another in
it are within the limit. -/
theorem readsWithin_compact {json : Json} (h : json.Numberless) :
    ReadsWithin json.nesting nestingLimit json (read json.compact.toList) := by
  have htext : json.compact.toList = json.write [] := String.toList_ofList
  rw [htext, ← Nat.max_zero json.nesting]
  exact (readsWithin_write h nestingLimit []).bind (.of_eq rfl _)

/-- JSON without numbers is told apart by its text. How deeply it is nested does not matter, for there
is a limit within which both of two texts are read. -/
theorem compact_injective {a b : Json} (ha : a.Numberless) (hb : b.Numberless)
    (h : a.compact = b.compact) : a = b := by
  have hwrite : a.write [] = b.write [] := String.ofList_injective h
  have hread := (readsWithin_write ha (max a.nesting b.nesting) []).ok (Nat.le_max_left _ _)
  rw [hwrite, (readsWithin_write hb _ []).ok (Nat.le_max_right _ _)] at hread
  exact (Prod.mk.inj (Except.ok.inj hread)).1.symm

end MarkupQuery.Json
