import MarkupQuery.Proofs.Interchange.Built

/-!
# The grammar of node values

A value describes a node if it is an object or a short array whose fields are in their forms: strings,
an object of strings, an array of values that describe nodes. Nothing else is asked. Neither the order
of the fields matters, nor which of them the described node has in the end.

## Main definitions

- `Json.given?`: what a value gives for a field.
- `Json.IsNode`, `Json.Fits`: the grammar of values that describe nodes, and of what is given for their
  fields.
- `Json.described`: the node that such a value describes.

## Main results

- `Node.ofJson_eq_ok_iff_takes`: values are decoded field by field, whichever form they have.
- `Node.ofJson_eq_ok_iff_isNode`: exactly the values of the grammar are decoded, to the nodes described.
- `Node.loadValue_eq_ok_iff_isNode`: the same for loading.
-/

namespace MarkupQuery

/-! ### The grammar -/

namespace Json

/-- What JSON in the place of a node gives for a field: an object by the member with the key of the
field, an array by the item whose turn it is. -/
def given? (json : Json) (field : Field) : Option Json :=
  match json with
  | .object members => members.lookup field.key
  | .array items => (Field.all.zip items).lookup field
  | _ => none

/-- The form of a description: an object, or an array of at most five items. -/
def HasNodeForm : Json → Prop
  | .object _ => True
  | .array items => items.length ≤ 5
  | _ => False

mutual

/-- The JSON describes a node: all that it gives for fields fits them. -/
inductive IsNode : Json → Prop where
  /-- Every field is absent or fits. -/
  | intro {json : Json} (form : json.HasNodeForm)
      (fits : ∀ field content, json.given? field = some content → Fits field content) : IsNode json

/-- The JSON may be given for the field. -/
inductive Fits : Field → Json → Prop where
  /-- A name is a string. -/
  | name (text : String) : Fits .name (.string text)
  /-- A kind is a string. -/
  | kind (text : String) : Fits .kind (.string text)
  /-- A value is a string. -/
  | value (text : String) : Fits .value (.string text)
  /-- Attributes are an object all of whose contents are strings. -/
  | attributes {members : List (String × Json)}
      (strings : ∀ member ∈ members, ∃ text, member.2 = .string text) :
      Fits .attributes (.object members)
  /-- Children are an array of descriptions of nodes. -/
  | children {items : List Json} (nodes : ∀ item ∈ items, IsNode item) :
      Fits .children (.array items)

end

/-! ### The described node -/

/-- The content of a string. -/
def text : Json → String
  | .string content => content
  | _ => ""

/-- The members of an object as attributes. -/
def attributes : Json → Attributes
  | .object members => .ofList (members.map fun member => (member.1, member.2.text))
  | _ => .empty

/-- The items of an array. -/
def items : Json → List Json
  | .array items => items
  | _ => []

/-- What stands in JSON is smaller. -/
theorem sizeOf_lt_of_mem_parts {json part : Json} (h : part ∈ json.parts) :
    sizeOf part < sizeOf json := by
  cases json with
  | null | bool | number | string => cases h
  | array items =>
    have hmem : part ∈ items := h
    have hlt := List.sizeOf_lt_of_mem hmem
    rw [array.sizeOf_spec]
    omega
  | object members =>
    obtain ⟨⟨key, content⟩, hmem, rfl⟩ := List.mem_map.1 h
    have hlt := List.sizeOf_lt_of_mem hmem
    rw [Prod.mk.sizeOf_spec] at hlt
    rw [object.sizeOf_spec]
    dsimp only
    omega

/-- What is given for a field stands in the JSON. -/
theorem mem_parts_of_given? {json content : Json} {field : Field}
    (h : json.given? field = some content) : content ∈ json.parts := by
  cases json with
  | null | bool | number | string => cases h
  | array items =>
    obtain ⟨before, after, heq, -⟩ := List.lookup_eq_some_iff.1 h
    have hmem : (field, content) ∈ Field.all.zip items :=
      heq ▸ List.mem_append_right _ List.mem_cons_self
    exact (List.of_mem_zip hmem).2
  | object members => exact List.mem_map_of_mem (f := Prod.snd) (Entries.mem_of_lookup h)

/-- Items that are given as children are smaller. -/
theorem sizeOf_lt_of_mem_children {json item : Json}
    (h : item ∈ ((json.given? .children).map items).getD []) : sizeOf item < sizeOf json := by
  cases hgiven : json.given? .children with
  | none =>
    rw [hgiven] at h
    cases h
  | some content =>
    rw [hgiven] at h
    have hitem : item ∈ content.parts := by
      cases content with
      | array items => exact h
      | null | bool | number | string | object => cases h
    exact Nat.lt_trans (sizeOf_lt_of_mem_parts hitem)
      (sizeOf_lt_of_mem_parts (mem_parts_of_given? hgiven))

/-- The node that JSON describes if it describes one: an element if no kind is given, and with all that
is not given empty. -/
def described (json : Json) : Node :=
  .ofParts (((json.given? .kind).map text).getD "element") (((json.given? .name).map text).getD "")
    (((json.given? .value).map text).getD "")
    (((json.given? .attributes).map attributes).getD .empty)
    ((((json.given? .children).map items).getD []).attach.map fun item => described item.1)
termination_by sizeOf json
decreasing_by exact sizeOf_lt_of_mem_children item.2

/-- The children of the described node are described by the items that are given. -/
theorem described_eq (json : Json) :
    json.described =
      .ofParts (((json.given? .kind).map text).getD "element")
        (((json.given? .name).map text).getD "") (((json.given? .value).map text).getD "")
        (((json.given? .attributes).map attributes).getD .empty)
        ((((json.given? .children).map items).getD []).map described) := by
  rw [described, List.attach_map_val]

end Json

/-! ### Fields in drafts -/

/-- What the JSON means that is given for a field. -/
def Field.read : (field : Field) → Json → field.Content
  | .name, json | .kind, json | .value, json => json.text
  | .attributes, json => json.attributes
  | .children, json => json.items.map Json.described

namespace Draft

/-- The draft of what JSON gives for the fields. -/
def given (json : Json) : Draft :=
  ⟨(json.given? .name).map Json.text, (json.given? .kind).map Json.text,
    (json.given? .value).map Json.text, (json.given? .attributes).map Json.attributes,
    (json.given? .children).map (·.items.map Json.described)⟩

/-- The draft holds what is given for each field. -/
theorem get?_given (json : Json) (field : Field) :
    (given json).get? field = (json.given? field).map field.read := by
  cases field <;> rfl

/-- The node of the draft is the one described. -/
theorem node_given (json : Json) : (given json).node = json.described := by
  rw [Json.described_eq, node, given]
  cases json.given? .children <;> rfl

/-- What is given for a field goes from one draft into another. If nothing is given, the field stays as
it is. -/
def Takes (draft : Draft) (given? : Option Json) (result : Draft) (field : Field) : Prop :=
  match given? with
  | none => result.get? field = draft.get? field
  | some content =>
    ∃ value, Node.contentOfJson field content = .ok value ∧ result.get? field = some value

/-- Nothing is in the empty draft. -/
theorem get?_empty (field : Field) : empty.get? field = none := by
  cases field <;> rfl

/-- A field that is not set takes the same. -/
theorem takes_set_of_ne {draft result : Draft} {given? : Option Json} {field other : Field}
    {content : field.Content} (hne : other ≠ field) :
    (draft.set field content).Takes given? result other ↔ draft.Takes given? result other := by
  simp only [Takes, get?_set_of_ne _ _ hne]

/-- Members with ascending keys add to an empty draft what is found by the key. -/
theorem gains_empty_iff {members : List (String × Json)} {result : Draft} {field : Field}
    (h : Entries.Ascending members) :
    empty.Gains members result field ↔ empty.Takes (members.lookup field.key) result field := by
  rw [Gains, and_iff_right (h.once field.key)]
  cases members.lookup field.key with
  | none => exact Iff.rfl
  | some content => exact and_iff_right (get?_empty field)

end Draft

namespace Node

/-! ### Decoding field by field -/

/-- Items are read into a draft that takes them for the fields in turn, if there are not too many. -/
theorem draftOfItems_eq_ok_iff {length : Nat} {fields : List Field} {draft result : Draft}
    {items : List Json} (hfields : fields.Nodup) :
    draftOfItems length fields draft items = .ok result ↔
      items.length ≤ fields.length ∧
        ∀ field, draft.Takes ((fields.zip items).lookup field) result field := by
  induction items generalizing fields draft with
  | nil =>
    rw [draftOfItems, List.zip_nil_right]
    refine ⟨fun h => ⟨Nat.zero_le _, fun field => Except.ok.inj h ▸ rfl⟩, fun h => ?_⟩
    exact congrArg _ (Draft.ext_get? h.2).symm
  | cons item rest ih =>
    cases fields with
    | nil => exact ⟨(by rintro ⟨⟩), fun h => absurd h.1 (Nat.not_succ_le_zero _)⟩
    | cons field fields =>
      obtain ⟨hnotin, hnodup⟩ := List.nodup_cons.1 hfields
      -- The field does not have its turn again.
      have hnone : (fields.zip rest).lookup field = none := by
        refine List.lookup_eq_none_iff.2 fun entry hmem => bne_iff_ne.2 fun heq => ?_
        exact hnotin (heq ▸ (List.of_mem_zip hmem).1)
      have hself : ((field, item) :: fields.zip rest).lookup field = some item :=
        List.lookup_cons_self
      have hother : ∀ other, other ≠ field →
          ((field, item) :: fields.zip rest).lookup other = (fields.zip rest).lookup other :=
        fun other hne => by rw [List.lookup_cons, beq_false_of_ne hne]
      rw [draftOfItems, bind_eq_ok, List.zip_cons_cons, List.length_cons, List.length_cons]
      constructor
      · rintro ⟨content, hcontent, h⟩
        obtain ⟨hle, htakes⟩ := (ih hnodup).1 h
        refine ⟨Nat.succ_le_succ hle, fun other => ?_⟩
        by_cases heq : other = field
        · subst heq
          have hresult := htakes other
          rw [hnone] at hresult
          rw [hself]
          exact ⟨content, hcontent, hresult.trans (Draft.get?_set_self draft other content)⟩
        · rw [hother other heq]
          exact (Draft.takes_set_of_ne heq).1 (htakes other)
      · rintro ⟨hle, htakes⟩
        have hfirst := htakes field
        rw [hself] at hfirst
        obtain ⟨content, hcontent, hresult⟩ := hfirst
        refine ⟨content, hcontent, (ih hnodup).2 ⟨Nat.le_of_succ_le_succ hle, fun other => ?_⟩⟩
        by_cases heq : other = field
        · subst heq
          rw [hnone]
          exact hresult.trans (Draft.get?_set_self draft other content).symm
        · rw [Draft.takes_set_of_ne heq, ← hother other heq]
          exact htakes other

/-- JSON with ascending keys describes the node of a draft that takes what it gives. -/
theorem ofJson_eq_ok_iff_takes {json : Json} {node : Node} (h : json.IsNormal) :
    ofJson json = .ok node ↔
      json.HasNodeForm ∧ ∃ draft : Draft,
        (∀ field, Draft.empty.Takes (json.given? field) draft field) ∧ draft.node = node := by
  cases json with
  | null | bool | number | string => exact ⟨nofun, fun h => h.1.elim⟩
  | object members =>
    rw [ofJson, bind_eq_ok, Json.HasNodeForm, and_iff_right trivial]
    refine exists_congr fun draft => and_congr ?_ (Iff.of_eq (Except.ok.injEq _ _))
    rw [draftOfMembers_eq_ok_iff]
    exact forall_congr' fun field => Draft.gains_empty_iff h.1
  | array items =>
    rw [ofJson, bind_eq_ok, Json.HasNodeForm, ← exists_and_left]
    refine exists_congr fun draft => ?_
    rw [draftOfItems_eq_ok_iff (by decide), and_assoc]
    exact and_congr_right fun _ => and_congr Iff.rfl (Iff.of_eq (Except.ok.injEq _ _))

/-! ### The grammar is what is decoded -/

/-- A draft takes what fits, and nothing else: it is the draft of what is given. -/
theorem takes_iff {json : Json} {draft : Draft}
    (hcontent : ∀ field content, json.given? field = some content → ∀ value,
      contentOfJson field content = .ok value ↔ Json.Fits field content ∧ field.read content = value) :
    (∀ field, Draft.empty.Takes (json.given? field) draft field) ↔
      (∀ field content, json.given? field = some content → Json.Fits field content) ∧
        Draft.given json = draft := by
  constructor
  · intro h
    constructor
    · intro field content hgiven
      have htakes := h field
      rw [hgiven] at htakes
      obtain ⟨value, hvalue, -⟩ := htakes
      exact ((hcontent field content hgiven value).1 hvalue).1
    · refine Draft.ext_get? fun field => ?_
      have htakes := h field
      rw [Draft.get?_given]
      cases hgiven : json.given? field with
      | none =>
        rw [hgiven] at htakes
        exact (Draft.get?_empty field).symm.trans htakes.symm
      | some content =>
        rw [hgiven] at htakes
        obtain ⟨value, hvalue, hresult⟩ := htakes
        rw [hresult, ← ((hcontent field content hgiven value).1 hvalue).2]
        rfl
  · rintro ⟨hfits, rfl⟩ field
    cases hgiven : json.given? field with
    | none => exact (Draft.get?_given json field).trans (by rw [hgiven, Draft.get?_empty]; rfl)
    | some content =>
      refine ⟨field.read content, ?_, (Draft.get?_given json field).trans (by rw [hgiven]; rfl)⟩
      exact (hcontent field content hgiven _).2 ⟨hfits field content hgiven, rfl⟩

/-- JSON describes a node if it has the form of a description and all that it gives fits. -/
theorem isNode_iff {json : Json} :
    json.IsNode ↔ json.HasNodeForm ∧
      ∀ field content, json.given? field = some content → Json.Fits field content :=
  ⟨fun h => by cases h with | intro form fits => exact ⟨form, fits⟩, fun h => .intro h.1 h.2⟩

/-- Items describe nodes exactly if each of them does, and then each describes its own. -/
theorem ofJsonAll_eq_ok_iff {items : List Json} {nodes : List Node}
    (hitem : ∀ item ∈ items, ∀ node,
      ofJson item = .ok node ↔ item.IsNode ∧ item.described = node) :
    ofJsonAll items = .ok nodes ↔
      (∀ item ∈ items, item.IsNode) ∧ items.map Json.described = nodes := by
  induction items generalizing nodes with
  | nil => exact ⟨fun h => ⟨List.forall_mem_nil _, Except.ok.inj h⟩, fun h => congrArg _ h.2⟩
  | cons item rest ih =>
    obtain ⟨hfirst, hrest⟩ := List.forall_mem_cons.1 hitem
    rw [ofJsonAll, bind_eq_ok]
    constructor
    · rintro ⟨node, hnode, h⟩
      obtain ⟨others, hothers, h⟩ := bind_eq_ok.1 h
      cases h
      obtain ⟨hisNode, rfl⟩ := (hfirst node).1 hnode
      obtain ⟨hareNodes, rfl⟩ := (ih hrest).1 hothers
      exact ⟨List.forall_mem_cons.2 ⟨hisNode, hareNodes⟩, rfl⟩
    · rintro ⟨hareNodes, rfl⟩
      obtain ⟨hisNode, hareNodes⟩ := List.forall_mem_cons.1 hareNodes
      refine ⟨_, (hfirst _).2 ⟨hisNode, rfl⟩, bind_eq_ok.2 ⟨_, ?_, rfl⟩⟩
      exact (ih hrest).2 ⟨hareNodes, rfl⟩

/-- Members are attributes exactly if all of them are strings. -/
theorem ofMembers_eq_ok_iff_strings {members : List (String × Json)} {attributes : Attributes} :
    Attributes.empty.ofMembers members = .ok attributes ↔
      (∀ member ∈ members, ∃ text, member.2 = .string text) ∧
        (Json.object members).attributes = attributes := by
  have htexts : ∀ entries : Entries String,
      (Json.stringMembers entries).map (fun member => (member.1, member.2.text)) = entries := by
    intro entries
    rw [Json.stringMembers, List.map_map]
    exact List.map_id entries
  rw [Attributes.ofMembers_eq_ok_iff]
  constructor
  · rintro ⟨entries, rfl, rfl⟩
    refine ⟨fun member hmem => ?_, by rw [Json.attributes, htexts]⟩
    obtain ⟨entry, -, rfl⟩ := List.mem_map.1 hmem
    exact ⟨entry.2, rfl⟩
  · rintro ⟨hstrings, rfl⟩
    obtain ⟨entries, rfl⟩ := Json.exists_eq_stringMembers hstrings
    exact ⟨entries, rfl, by rw [Json.attributes, htexts]⟩

/-- What is given for a field is accepted exactly if it fits. -/
theorem contentOfJson_eq_ok_iff {json : Json} {field : Field} {value : field.Content}
    (hpart : ∀ part ∈ json.parts, ∀ node,
      ofJson part = .ok node ↔ part.IsNode ∧ part.described = node) :
    contentOfJson field json = .ok value ↔ Json.Fits field json ∧ field.read json = value := by
  cases field with
  | name | kind | value =>
    cases json with
    | string content =>
      exact ⟨fun h => ⟨by constructor, Except.ok.inj h⟩, fun h => congrArg Except.ok h.2⟩
    | null | bool | number | array | object => exact ⟨nofun, fun h => nomatch h.1⟩
  | attributes =>
    cases json with
    | object members =>
      refine ofMembers_eq_ok_iff_strings.trans (and_congr ⟨.attributes, fun h => ?_⟩ Iff.rfl)
      cases h with
      | attributes strings => exact strings
    | null | bool | number | string | array => exact ⟨nofun, fun h => nomatch h.1⟩
  | children =>
    cases json with
    | array items =>
      refine (ofJsonAll_eq_ok_iff hpart).trans (and_congr ⟨.children, fun h => ?_⟩ Iff.rfl)
      cases h with
      | children nodes => exact nodes
    | null | bool | number | string | object => exact ⟨nofun, fun h => nomatch h.1⟩

/-- Of JSON whose keys ascend, exactly what the grammar admits describes a node, and it describes the
node of the fields that it gives. -/
theorem ofJson_eq_ok_iff_isNode {json : Json} (hnormal : json.IsNormal) {node : Node} :
    ofJson json = .ok node ↔ json.IsNode ∧ json.described = node := by
  -- What is given for the fields has parts of its own, so the claim is made of these, too.
  suffices h : ∀ json : Json, json.IsNormal →
      (∀ node, ofJson json = .ok node ↔ json.IsNode ∧ json.described = node) ∧
        ∀ part ∈ json.parts, ∀ node,
          ofJson part = .ok node ↔ part.IsNode ∧ part.described = node from
    (h json hnormal).1 node
  intro json
  induction json using Json.induct with
  | json json ih =>
    intro hnormal
    refine ⟨fun node => ?_, fun part hmem => (ih part hmem (hnormal.part hmem)).1⟩
    have hcontent : ∀ field content, json.given? field = some content → ∀ value,
        contentOfJson field content = .ok value ↔
          Json.Fits field content ∧ field.read content = value := by
      intro field content hgiven value
      have hmem := Json.mem_parts_of_given? hgiven
      exact contentOfJson_eq_ok_iff (ih content hmem (hnormal.part hmem)).2
    rw [ofJson_eq_ok_iff_takes hnormal, isNode_iff, and_assoc]
    refine and_congr_right fun _ => ?_
    constructor
    · rintro ⟨draft, htakes, rfl⟩
      obtain ⟨hfits, rfl⟩ := (takes_iff hcontent).1 htakes
      exact ⟨hfits, (Draft.node_given json).symm⟩
    · rintro ⟨hfits, rfl⟩
      exact ⟨_, (takes_iff hcontent).2 ⟨hfits, rfl⟩, Draft.node_given json⟩

/-- A node is loaded from a value exactly if the value is a node value, and then it is the node of the
fields that the value gives. No field may be given as `null`. -/
theorem loadValue_eq_ok_iff_isNode (value : Json.Value) (node : Node) :
    ((loadValue value).value = .ok node ↔ value.json.IsNode ∧ value.json.described = node) ∧
      ∀ field, value.json.given? field = some .null → (loadValue value).value ≠ .ok node := by
  have hiff : (loadValue value).value = .ok node ↔
      value.json.IsNode ∧ value.json.described = node := by
    rw [loadValue_eq_ok_iff, ofJson_eq_ok_iff_isNode value.normal]
  refine ⟨hiff, fun field hnull hload => ?_⟩
  have hfits := (isNode_iff.1 (hiff.1 hload).1).2 field .null hnull
  nomatch hfits

/-- A text that gives children that are no list is refused, although a text has no children. -/
example : ¬(Json.object [("children", .bool true), ("type", .string "text")]).IsNode :=
  fun h => nomatch (isNode_iff.1 h).2 .children _ rfl

end Node

end MarkupQuery
