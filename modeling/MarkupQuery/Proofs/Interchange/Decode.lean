import MarkupQuery.Interchange.Decode
import MarkupQuery.Json.Reader
import MarkupQuery.Proofs.Entries

/-!
# When JSON describes a node

Members are read one by one into a draft, and what results depends on their order in how it came
about. Whether it succeeds and with what result does not: every field has to be given at most once
and in its form, and the draft holds what the look-ups of the keys find.

## Main definitions

- `Draft.Gains`: what members add to a draft for one field.

## Main results

- `Node.draftOfMembers_eq_ok_iff`: members are read into a draft field by field.
- `Attributes.ofMembers_eq_ok_iff`: members that are all strings are set in turn.
- `Node.draftOfItems_map`, `Node.ofJsonAll_map`: items may be exchanged for others that describe the
  same.
-/

namespace MarkupQuery

/-- Fields with the same key are the same. -/
theorem Field.key_injective {a b : Field} (h : a.key = b.key) : a = b :=
  Option.some.inj ((ofKey?_eq_some_iff.2 rfl).symm.trans (ofKey?_eq_some_iff.2 h))

/-! ### Drafts -/

namespace Draft

/-- Drafts that hold the same for every field are equal. -/
theorem ext_get? {a b : Draft} (h : ∀ field, a.get? field = b.get? field) : a = b := by
  obtain ⟨name, kind, value, attributes, children⟩ := a
  obtain ⟨name', kind', value', attributes', children'⟩ := b
  obtain rfl : name = name' := h .name
  obtain rfl : kind = kind' := h .kind
  obtain rfl : value = value' := h .value
  obtain rfl : attributes = attributes' := h .attributes
  obtain rfl : children = children' := h .children
  rfl

/-- Reading members makes `result` of `draft` as far as one field is concerned: it is given at most
once, and if it is given it was not there before and is in its form. -/
def Gains (draft : Draft) (members : List (String × Json)) (result : Draft) (field : Field) :
    Prop :=
  Entries.Once members field.key ∧
    match members.lookup field.key with
    | none => result.get? field = draft.get? field
    | some json =>
      draft.get? field = none ∧
        ∃ content, Node.contentOfJson field json = .ok content ∧ result.get? field = some content

/-- No members add nothing. -/
theorem gains_nil {draft result : Draft} {field : Field} :
    draft.Gains [] result field ↔ result.get? field = draft.get? field :=
  and_iff_right (Entries.once_of_lookup_eq_none rfl)

/-- A member with another key adds nothing. -/
theorem gains_cons_of_ne {draft result : Draft} {field : Field} {member : String × Json}
    {members : List (String × Json)} (hne : member.1 ≠ field.key) :
    draft.Gains (member :: members) result field ↔ draft.Gains members result field := by
  rw [Gains, Gains, Entries.once_cons_of_ne hne, List.lookup_cons, beq_false_of_ne hne.symm]

/-- A member with the key of a field adds what it gives for the field, and no other one may do
so. -/
theorem gains_cons_self {draft result : Draft} {field : Field} {json : Json}
    {members : List (String × Json)} :
    draft.Gains ((field.key, json) :: members) result field ↔
      draft.get? field = none ∧ ∃ content, Node.contentOfJson field json = .ok content ∧
        (draft.set field content).Gains members result field := by
  rw [Gains, Entries.once_cons_self, List.lookup_cons_self]
  constructor
  · rintro ⟨hrest, hnone, content, hcontent, hresult⟩
    -- No later member gives the field, so it stays as it is set here.
    refine ⟨hnone, content, hcontent, Entries.once_of_lookup_eq_none hrest, ?_⟩
    rw [hrest]
    simpa using hresult
  · rintro ⟨hnone, content, hcontent, -, hgains⟩
    -- The field is in the draft by now, so it cannot be given again.
    cases hrest : members.lookup field.key with
    | none =>
      rw [hrest] at hgains
      exact ⟨rfl, hnone, content, hcontent, by simpa using hgains⟩
    | some again =>
      rw [hrest] at hgains
      simp at hgains

/-- A field that is not set gains the same. -/
theorem gains_set_of_ne {draft result : Draft} {field other : Field} {content : field.Content}
    {members : List (String × Json)} (hne : other ≠ field) :
    (draft.set field content).Gains members result other ↔ draft.Gains members result other := by
  rw [Gains, Gains, get?_set_of_ne _ _ hne]

/-- Members add the same to a draft in whichever order they stand. -/
theorem Gains.perm {draft result : Draft} {field : Field} {members members' : List (String × Json)}
    (h : draft.Gains members result field) (hperm : members.Perm members') :
    draft.Gains members' result field := by
  obtain ⟨honce, hlookup⟩ := h
  have honce' : Entries.Once members' field.key := by
    rw [Entries.Once, ← (hperm.map Prod.fst).count_eq]
    exact honce
  refine ⟨honce', ?_⟩
  rwa [← Entries.lookup_perm hperm honce']

end Draft

namespace Node

/-- Members are read into a draft field by field: their order does not matter. -/
theorem draftOfMembers_eq_ok_iff {members : List (String × Json)} {draft result : Draft} :
    draftOfMembers draft members = .ok result ↔ ∀ field, draft.Gains members result field := by
  induction members generalizing draft with
  | nil =>
    simp only [draftOfMembers, Except.ok.injEq, Draft.gains_nil]
    exact ⟨fun h field => h ▸ rfl, fun h => (Draft.ext_get? h).symm⟩
  | cons member rest ih =>
    obtain ⟨key, json⟩ := member
    rw [draftOfMembers]
    split
    · next hkey =>
      -- The key is not that of a field, so the member is passed over.
      rw [ih]
      refine forall_congr' fun field => (Draft.gains_cons_of_ne fun heq => ?_).symm
      rw [Field.ofKey?_eq_some_iff.2 heq] at hkey
      cases hkey
    · next field hkey =>
      obtain rfl := Field.ofKey?_eq_some_iff.1 hkey
      split
      · next hhas =>
        -- The field was in the draft before, so neither side holds.
        refine ⟨nofun, fun h => ?_⟩
        have hnone := (Draft.gains_cons_self.1 (h field)).1
        rw [Draft.has, hnone] at hhas
        cases hhas
      · next hhas =>
        have hnone : draft.get? field = none := by
          simpa only [Draft.has, Bool.not_eq_true, Option.isSome_eq_false_iff,
            Option.isNone_iff_eq_none] using hhas
        have hne : ∀ other : Field, other ≠ field → field.key ≠ other.key :=
          fun other hother heq => hother (Field.key_injective heq).symm
        rw [bind_eq_ok]
        -- The member gives this field only; the others are left to the rest of the members.
        constructor
        · rintro ⟨content, hcontent, h⟩ other
          rw [ih] at h
          by_cases hother : other = field
          · subst hother
            exact Draft.gains_cons_self.2 ⟨hnone, content, hcontent, h other⟩
          · rw [Draft.gains_cons_of_ne (hne other hother)]
            exact (Draft.gains_set_of_ne hother).1 (h other)
        · intro h
          obtain ⟨-, content, hcontent, hself⟩ := Draft.gains_cons_self.1 (h field)
          refine ⟨content, hcontent, ih.2 fun other => ?_⟩
          by_cases hother : other = field
          · subst hother
            exact hself
          · rw [Draft.gains_set_of_ne hother]
            exact (Draft.gains_cons_of_ne (hne other hother)).1 (h other)

/-- Attributes are given by an object. -/
theorem contentOfJson_attributes_object (members : List (String × Json)) :
    contentOfJson .attributes (.object members) = Attributes.empty.ofMembers members :=
  rfl

/-- An array gives nothing but children. -/
theorem contentOfJson_array_of_ne {field : Field} (hne : field ≠ .children) (items : List Json) :
    contentOfJson field (.array items) = .error (.invalidType .array field.wanted) := by
  cases field with
  | children => exact absurd rfl hne
  | name | kind | value | attributes => rfl

/-- An object gives nothing but attributes. -/
theorem contentOfJson_object_of_ne {field : Field} (hne : field ≠ .attributes)
    (members : List (String × Json)) :
    contentOfJson field (.object members) = .error (.invalidType .object field.wanted) := by
  cases field with
  | attributes => exact absurd rfl hne
  | name | kind | value | children => rfl

/-- Items may be exchanged for others that give the same for the fields whose turn it is. -/
theorem draftOfItems_map {f g : Json → Json} {length length' : Nat} {fields : List Field}
    {draft result : Draft} {items : List Json}
    (hcontent : ∀ field item, (field, item) ∈ fields.zip items →
      ∀ content, contentOfJson field (f item) = .ok content →
        contentOfJson field (g item) = .ok content)
    (h : draftOfItems length fields draft (items.map f) = .ok result) :
    draftOfItems length' fields draft (items.map g) = .ok result := by
  induction items generalizing fields draft with
  | nil => exact h
  | cons item rest ih =>
    cases fields with
    | nil => cases h
    | cons field fields =>
      rw [List.map_cons, draftOfItems, bind_eq_ok] at h ⊢
      obtain ⟨content, hfirst, h⟩ := h
      refine ⟨content, hcontent field item List.mem_cons_self content hfirst, ?_⟩
      exact ih (fun other item hmem => hcontent other item (List.mem_cons_of_mem _ hmem)) h

/-- Items may be exchanged for others that describe the same nodes. -/
theorem ofJsonAll_map {f g : Json → Json} {items : List Json} {nodes : List Node}
    (hnode : ∀ item ∈ items, ∀ node, ofJson (f item) = .ok node → ofJson (g item) = .ok node)
    (h : ofJsonAll (items.map f) = .ok nodes) : ofJsonAll (items.map g) = .ok nodes := by
  induction items generalizing nodes with
  | nil => exact h
  | cons item rest ih =>
    rw [List.map_cons, ofJsonAll, bind_eq_ok] at h ⊢
    obtain ⟨node, hfirst, h⟩ := h
    obtain ⟨others, hrest, h⟩ := bind_eq_ok.1 h
    refine ⟨node, hnode item List.mem_cons_self node hfirst, bind_eq_ok.2 ⟨others, ?_, h⟩⟩
    exact ih (fun item hmem => hnode item (List.mem_cons_of_mem _ hmem)) hrest

/-- An array describes the same node if its items are exchanged for others that give the same for the
fields whose turn it is. -/
theorem ofJson_array_map {f g : Json → Json} {items : List Json} {node : Node}
    (hcontent : ∀ field item, (field, item) ∈ Field.all.zip items →
      ∀ content, contentOfJson field (f item) = .ok content →
        contentOfJson field (g item) = .ok content)
    (h : ofJson (.array (items.map f)) = .ok node) : ofJson (.array (items.map g)) = .ok node := by
  rw [ofJson, bind_eq_ok] at h ⊢
  obtain ⟨draft, hdraft, hnode⟩ := h
  exact ⟨draft, draftOfItems_map hcontent hdraft, hnode⟩

/-- An array gives the same for a field if its items are exchanged for others that describe the same
nodes. -/
theorem contentOfJson_array_map {f g : Json → Json} {items : List Json} {field : Field}
    {content : field.Content}
    (hnode : field = .children → ∀ item ∈ items, ∀ node,
      ofJson (f item) = .ok node → ofJson (g item) = .ok node)
    (h : contentOfJson field (.array (items.map f)) = .ok content) :
    contentOfJson field (.array (items.map g)) = .ok content := by
  by_cases hfield : field = .children
  · subst hfield
    exact ofJsonAll_map (hnode rfl) h
  · rw [contentOfJson_array_of_ne hfield] at h
    cases h

/-- An object describes the same node if its members are exchanged for others that add the same to a
draft, field by field. -/
theorem ofJson_object_imp {members members' : List (String × Json)} {node : Node}
    (hgains : ∀ field result, Draft.empty.Gains members result field →
      Draft.empty.Gains members' result field)
    (h : ofJson (.object members) = .ok node) : ofJson (.object members') = .ok node := by
  rw [ofJson, bind_eq_ok] at h ⊢
  obtain ⟨draft, hdraft, hnode⟩ := h
  rw [draftOfMembers_eq_ok_iff] at hdraft
  exact ⟨draft, draftOfMembers_eq_ok_iff.2 fun field => hgains field draft (hdraft field), hnode⟩

/-- An object describes the same node in whichever order its members stand. -/
theorem ofJson_object_perm {members members' : List (String × Json)} {node : Node}
    (hperm : members.Perm members') (h : ofJson (.object members) = .ok node) :
    ofJson (.object members') = .ok node :=
  ofJson_object_imp (fun _ _ hgains => hgains.perm hperm) h

/-- An object gives the same for a field if its members are exchanged for others that are the same
attributes. -/
theorem contentOfJson_object_imp {members members' : List (String × Json)} {field : Field}
    {content : field.Content}
    (hattributes : field = .attributes → ∀ attributes,
      Attributes.empty.ofMembers members = .ok attributes →
        Attributes.empty.ofMembers members' = .ok attributes)
    (h : contentOfJson field (.object members) = .ok content) :
    contentOfJson field (.object members') = .ok content := by
  by_cases hfield : field = .attributes
  · subst hfield
    exact hattributes rfl content h
  · rw [contentOfJson_object_of_ne hfield] at h
    cases h

end Node

/-! ### Attributes -/

/-- Members whose contents are strings. -/
def Json.stringMembers (entries : Entries String) : List (String × Json) :=
  entries.map (fun entry => (entry.1, .string entry.2))

/-- Members each of which is a string are of this form. -/
theorem Json.exists_eq_stringMembers {members : List (String × Json)}
    (h : ∀ member ∈ members, ∃ value, member.2 = .string value) :
    ∃ entries, members = stringMembers entries := by
  induction members with
  | nil => exact ⟨[], rfl⟩
  | cons member rest ih =>
    obtain ⟨key, content⟩ := member
    obtain ⟨value, rfl⟩ : ∃ value, content = .string value := h _ List.mem_cons_self
    obtain ⟨entries, rfl⟩ := ih fun member hmem => h member (List.mem_cons_of_mem _ hmem)
    exact ⟨(key, value) :: entries, rfl⟩

namespace Attributes

/-- Setting attributes in turn writes them into the entries in turn. -/
theorem entries_foldl_set (soFar : Attributes) (entries : Entries String) :
    (entries.foldl (fun soFar entry => soFar.set entry.1 entry.2) soFar).entries =
      entries.foldl (fun written entry => written.insert entry.1 entry.2) soFar.entries := by
  induction entries generalizing soFar with
  | nil => rfl
  | cons entry rest ih => exact ih _

/-- Members that are all strings are set in turn. -/
theorem ofMembers_stringMembers (soFar : Attributes) (entries : Entries String) :
    soFar.ofMembers (Json.stringMembers entries) =
      .ok (entries.foldl (fun soFar entry => soFar.set entry.1 entry.2) soFar) := by
  induction entries generalizing soFar with
  | nil => rfl
  | cons entry rest ih => exact ih _

/-- No other members are attributes. -/
theorem eq_stringMembers_of_ofMembers {soFar attributes : Attributes}
    {members : List (String × Json)} (h : soFar.ofMembers members = .ok attributes) :
    ∃ entries, members = Json.stringMembers entries := by
  induction members generalizing soFar with
  | nil => exact ⟨[], rfl⟩
  | cons member rest ih =>
    rw [ofMembers.eq_def] at h
    split at h
    · next heq => cases heq
    · next name value _ heq =>
      cases heq
      obtain ⟨entries, rfl⟩ := ih h
      exact ⟨(name, value) :: entries, rfl⟩
    · -- Any other content is refused at once.
      cases h

/-- Members are attributes exactly when each of them is a string, and then they are set in turn. -/
theorem ofMembers_eq_ok_iff {members : List (String × Json)} {attributes : Attributes} :
    Attributes.empty.ofMembers members = .ok attributes ↔
      ∃ entries, members = Json.stringMembers entries ∧ ofList entries = attributes := by
  have hfold : ∀ entries : Entries String,
      entries.foldl (fun soFar entry => soFar.set entry.1 entry.2) Attributes.empty =
        ofList entries := fun entries => ext (entries_foldl_set .empty entries)
  constructor
  · intro h
    obtain ⟨entries, rfl⟩ := eq_stringMembers_of_ofMembers h
    rw [ofMembers_stringMembers, hfold] at h
    exact ⟨entries, rfl, Except.ok.inj h⟩
  · rintro ⟨entries, rfl, rfl⟩
    rw [ofMembers_stringMembers, hfold]

end Attributes

end MarkupQuery
