import MarkupQuery.Proofs.Interchange.Yields
import MarkupQuery.Proofs.Json.TextRoundTrip

/-!
# How deeply values are nested

As many brackets as may be open at once while a text is read, as many may stand in one another in what is
read, and no more. The value that is meant is not nested more deeply than the JSON as it is written, for
all that it lacks are members that were written over.

## Main results

- `Json.nesting_lt_of_mem_parts`: what stands in JSON is nested less deeply.
- `Json.nesting_normalize_le`: the value is nested no more deeply than the JSON as it is written.
- `Json.yields_reader_nesting`: what is read is nested no more deeply than there are brackets that may be
  open.
-/

namespace MarkupQuery

namespace Reader

variable {α : Type}

/-- What holds of everything that is read as an item holds of all items of a bracket. -/
theorem Collects.forall_mem {bracket : Bracket} {item : Reader α} {P : α → Prop} {isFirst : Bool}
    {text rest : List Char} {values : List α} (h : Collects bracket item isFirst text values rest)
    (hitem : item.Yields P) : ∀ value ∈ values, P value := by
  induction h with
  | close => exact List.forall_mem_nil _
  | item hturn hread hrest ih => exact List.forall_mem_cons.2 ⟨hitem.holds hread, ih⟩

/-- What holds of every content that is read holds of the contents of members. -/
theorem Yields.member {content : Reader α} {P : α → Prop} (h : content.Yields P) :
    (Reader.member content).Yields fun member => P member.2 := by
  constructor
  intro text member rest hrun
  obtain ⟨_, _, -, -, hcontent⟩ := exists_of_member hrun
  exact h.holds hcontent

end Reader

namespace Json

/-- Items are nested no more deeply than the bound exactly if none of them is. -/
theorem nestingItems_le_iff {items : List Json} {bound : Nat} :
    nestingItems items ≤ bound ↔ ∀ item ∈ items, item.nesting ≤ bound := by
  induction items with
  | nil => exact iff_of_true (Nat.zero_le bound) (List.forall_mem_nil _)
  | cons item rest ih => rw [nestingItems, Nat.max_le, ih, List.forall_mem_cons]

/-- Members are nested no more deeply than the bound exactly if none of their contents is. -/
theorem nestingMembers_le_iff {members : List (String × Json)} {bound : Nat} :
    nestingMembers members ≤ bound ↔ ∀ member ∈ members, member.2.nesting ≤ bound := by
  induction members with
  | nil => exact iff_of_true (Nat.zero_le bound) (List.forall_mem_nil _)
  | cons member rest ih => rw [nestingMembers, Nat.max_le, ih, List.forall_mem_cons]

/-- What stands in JSON is nested less deeply. -/
theorem nesting_lt_of_mem_parts {json part : Json} (h : part ∈ json.parts) :
    part.nesting < json.nesting := by
  cases json with
  | null | bool | number | string => cases h
  | array items => exact Nat.lt_succ_of_le (nestingItems_le_iff.1 (Nat.le_refl _) part h)
  | object members =>
    obtain ⟨member, hmem, rfl⟩ := List.mem_map.1 h
    exact Nat.lt_succ_of_le (nestingMembers_le_iff.1 (Nat.le_refl _) member hmem)

/-- The value that is meant is nested no more deeply than the JSON as it is written. -/
theorem nesting_normalize_le (json : Json) : json.normalize.nesting ≤ json.nesting := by
  induction json using induct with
  | json json ih =>
    -- What stands in the value is the value of something that stands in the JSON.
    have hpart : ∀ part ∈ json.parts, part.normalize.nesting < json.nesting :=
      fun part hmem => Nat.lt_of_le_of_lt (ih part hmem) (nesting_lt_of_mem_parts hmem)
    cases json with
    | null | bool | number | string => exact Nat.le_refl _
    | array items =>
      rw [normalize_array, nesting, nesting, Nat.add_le_add_iff_right, nestingItems_le_iff]
      intro item hmem
      obtain ⟨written, hwritten, rfl⟩ := List.mem_map.1 hmem
      exact Nat.le_of_lt_succ (hpart written hwritten)
    | object members =>
      rw [normalize_object, nesting, nesting, Nat.add_le_add_iff_right, nestingMembers_le_iff]
      intro member hmem
      have hnormal := Entries.mem_of_mem_ofList hmem
      rw [normalizeMembers_eq_map] at hnormal
      obtain ⟨written, hwritten, rfl⟩ := List.mem_map.1 hnormal
      exact Nat.le_of_lt_succ (hpart written.2 (List.mem_map_of_mem hwritten))

/-- What is read is nested no more deeply than there are brackets that may be open, if this is so with fewer
brackets. -/
theorem Reads.nesting_le {rest text : List Char} {depth : Nat} {json : Json}
    (h : Reads rest depth text json)
    (hbelow : ∀ below < depth, (reader below).Yields (·.nesting ≤ below)) : json.nesting ≤ depth := by
  cases h with
  | string hread => exact Nat.zero_le depth
  | @array below tail items hread =>
    have hitem := hbelow below (Nat.lt_succ_self below)
    exact Nat.succ_le_succ (nestingItems_le_iff.2 (hread.forall_mem hitem))
  | @object below tail members hread =>
    have hcontent := hbelow below (Nat.lt_succ_self below)
    exact Nat.succ_le_succ (nestingMembers_le_iff.2 (hread.forall_mem hcontent.member))
  | plain hquote hopened hread hplain =>
    cases json with
    | null | bool | number => exact Nat.zero_le depth
    | string | array | object => cases hplain

/-- What is read is nested no more deeply than there are brackets that may be open at once. -/
theorem yields_reader_nesting (depth : Nat) : (reader depth).Yields (·.nesting ≤ depth) := by
  induction depth using Nat.strongRecOn with
  | ind depth ih => exact ⟨fun hrun => (reads_of_reader hrun).nesting_le ih⟩

end Json

end MarkupQuery
