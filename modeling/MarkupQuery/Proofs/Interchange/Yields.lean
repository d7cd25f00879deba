import MarkupQuery.Interchange.Load
import MarkupQuery.Proofs.Interchange.Decode
import MarkupQuery.Proofs.Json.Normalize
import MarkupQuery.Proofs.Json.Read

/-!
# What is common to all loaded nodes

A loaded node is made of a draft, whichever way it is loaded, and the children in the draft have been
loaded before it. What passes from the children of a draft to its node therefore holds of everything
that can be loaded.

## Main definitions

- `Reader.Yields`: what holds of everything that a reader reads.
- `Draft.Has`: what holds of the children in a draft, if there are any.

## Main results

- `Reader.yields_items`: what every item keeps is kept by a bracket of items.
- `Node.yields_readerWithin`: what holds of nodes read, given what holds of their children.
- `Node.ofJson_induct`: induction along the descriptions of nodes.
- `Node.yields_reader_and`, `Node.of_ofJson_and`: what passes from children to nodes holds of all
  nodes that are read from a text, and of all that JSON describes.
-/

namespace MarkupQuery

variable {α β σ : Type}

/-! ### Readers -/

namespace Reader

/-- Whatever the reader reads has the property. -/
structure Yields (reader : Reader α) (P : α → Prop) : Prop where
  /-- What is read from a text has the property. -/
  holds : ∀ {text value rest}, reader.run text = .ok (value, rest) → P value

/-- What is made of something read has a property if it follows for what was read. -/
theorem Yields.map {reader : Reader α} {P : α → Prop} {Q : β → Prop} {f : α → β}
    (h : reader.Yields P) (hf : ∀ value, P value → Q (f value)) : (reader.map f).Yields Q := by
  constructor
  intro text value rest hrun
  obtain ⟨⟨read, rest'⟩, hread, hvalue⟩ := bind_eq_ok.1 hrun
  cases hvalue
  exact hf read (h.holds hread)

/-- What every item keeps is kept by all items up to the end of the bracket. -/
theorem yields_items {bracket : Bracket} {item : σ → Reader σ} {P : σ → Prop}
    (hitem : ∀ soFar, P soFar → (item soFar).Yields P) {isFirst : Bool} {soFar result : σ}
    {text rest : List Char} (hsoFar : P soFar)
    (h : items bracket item isFirst soFar text = .ok (result, rest)) : P result := by
  revert hsoFar
  apply items_induct (motive := fun _ soFar _ => P soFar → P result) _ _ h
  · intro isFirst text _ hresult
    exact hresult
  · intro isFirst soFar text begin read after _ hread ih hsoFar
    exact ih ((hitem soFar hsoFar).holds hread)

/-- What holds of every item holds of all items of a list. -/
theorem Yields.list {item : Reader α} {P : α → Prop} (h : item.Yields P) :
    item.list.Yields (fun values => ∀ value ∈ values, P value) := by
  -- The items read so far are held in reverse, which makes no difference to what holds of each.
  have hitems : (within .array (fun soFar => item.map (· :: soFar)) []).Yields
      (fun values => ∀ value ∈ values, P value) := by
    constructor
    intro text values rest hrun
    refine yields_items (P := fun values => ∀ value ∈ values, P value)
      (fun soFar hsoFar => h.map fun value hvalue => ?_) ?_ hrun
    · exact List.forall_mem_cons.2 ⟨hvalue, hsoFar⟩
    · exact List.forall_mem_nil _
  exact hitems.map fun values hvalues value hmem => hvalues value (List.mem_reverse.1 hmem)

end Reader

/-! ### Drafts -/

/-- What is given for the children has the property; any other field may hold anything. -/
def Field.Has (C : List Node → Prop) : (field : Field) → field.Content → Prop
  | .children, nodes => C nodes
  | .name, _ | .kind, _ | .value, _ | .attributes, _ => True

/-- If the children have a property, they have every weaker one. -/
theorem Field.Has.imp {C D : List Node → Prop} {field : Field} {content : field.Content}
    (h : field.Has C content) (himp : ∀ nodes, C nodes → D nodes) : field.Has D content := by
  cases field with
  | name | kind | value | attributes => trivial
  | children => exact himp content h

namespace Draft

/-- The children, if they have been given, have the property. -/
def Has (C : List Node → Prop) (draft : Draft) : Prop :=
  ∀ nodes, draft.children? = some nodes → C nodes

/-- No children have been given at first. -/
theorem has_empty (C : List Node → Prop) : empty.Has C :=
  nofun

/-- Giving a field leaves the children with the property. -/
theorem Has.set {C : List Node → Prop} {draft : Draft} {field : Field} {content : field.Content}
    (h : draft.Has C) (hcontent : field.Has C content) : (draft.set field content).Has C := by
  cases field with
  | name | kind | value | attributes => exact h
  | children =>
    intro nodes hnodes
    cases hnodes
    exact hcontent

end Draft

namespace Node

/-! ### Nodes that are read -/

/-- Reading a member leaves the children with the property. -/
theorem yields_readMember {content : (field : Field) → Reader field.Content}
    {C : List Node → Prop} (hcontent : ∀ field, (content field).Yields (field.Has C))
    (draft : Draft) (hdraft : draft.Has C) : (readMember content draft).Yields (·.Has C) := by
  constructor
  intro text result rest hrun
  obtain ⟨⟨key, rest₁⟩, -, hrun⟩ := bind_eq_ok.1 hrun
  dsimp only at hrun
  split at hrun
  · -- The key is not that of a field, so the draft stays as it is.
    obtain ⟨rest₂, -, hrun⟩ := bind_eq_ok.1 hrun
    obtain ⟨_, -, hrun⟩ := bind_eq_ok.1 hrun
    cases hrun
    exact hdraft
  · split at hrun
    · simp at hrun
    · obtain ⟨rest₂, -, hrun⟩ := bind_eq_ok.1 hrun
      obtain ⟨⟨read, rest₃⟩, hread, hrun⟩ := bind_eq_ok.1 hrun
      cases hrun
      exact hdraft.set ((hcontent _).holds hread)

/-- Reading fields without keys leaves the children with the property. -/
theorem has_of_readItems {content : (field : Field) → Reader field.Content}
    {C : List Node → Prop} (hcontent : ∀ field, (content field).Yields (field.Has C))
    {isFirst : Bool} {draft result : Draft} {fields : List Field} {text rest : List Char}
    (hdraft : draft.Has C)
    (h : readItems content isFirst draft fields text = .ok (result, rest)) : result.Has C := by
  induction fields generalizing isFirst draft text with
  | nil =>
    obtain ⟨_, -, h⟩ := bind_eq_ok.1 h
    cases h
    exact hdraft
  | cons field fields ih =>
    obtain ⟨⟨turn, rest₁⟩, -, h⟩ := bind_eq_ok.1 h
    cases turn with
    | close =>
      cases h
      exact hdraft
    | item =>
      obtain ⟨⟨read, rest₂⟩, hread, h⟩ := bind_eq_ok.1 h
      exact ih (hdraft.set ((hcontent field).holds hread)) h

/-- A node that is read has a property if it follows from what holds of its children. -/
theorem yields_readerWithin {content : (field : Field) → Reader field.Content}
    {C : List Node → Prop} {P : Node → Prop}
    (hcontent : ∀ field, (content field).Yields (field.Has C))
    (hnode : ∀ draft : Draft, draft.Has C → P draft.node) :
    (readerWithin (some content)).Yields P := by
  constructor
  intro text node rest hrun
  dsimp only [readerWithin] at hrun
  -- Only an array or an object is read as a node, and either way a draft is filled.
  split at hrun
  · simp at hrun
  · split at hrun
    · simp at hrun
    · next heq => cases heq
    · next heq =>
      cases heq
      obtain ⟨⟨draft, _⟩, hdraft, hrun⟩ := bind_eq_ok.1 hrun
      cases hrun
      exact hnode draft (has_of_readItems hcontent (Draft.has_empty C) hdraft)
    · next heq =>
      cases heq
      obtain ⟨⟨draft, _⟩, hdraft, hrun⟩ := bind_eq_ok.1 hrun
      cases hrun
      exact hnode draft
        (Reader.yields_items (yields_readMember hcontent) (Draft.has_empty C) hdraft)

/-- Without brackets no node is read. -/
theorem yields_readerWithin_none (P : Node → Prop) : (readerWithin none).Yields P := by
  constructor
  intro text node rest hrun
  dsimp only [readerWithin] at hrun
  split at hrun
  · simp at hrun
  · split at hrun
    · simp at hrun
    · simp at hrun
    · next heq => cases heq
    · next heq => cases heq

/-- A list of nodes that is read consists of nodes with the property. -/
theorem yields_listReaderWithin {node? : Option (Reader Node)} {P : Node → Prop}
    (h : ∀ node, node? = some node → node.Yields P) :
    (listReaderWithin node?).Yields (fun nodes => ∀ node ∈ nodes, P node) := by
  constructor
  intro text nodes rest hrun
  dsimp only [listReaderWithin] at hrun
  split at hrun
  · simp at hrun
  split at hrun
  · simp at hrun
  split at hrun
  · simp at hrun
  · exact (h _ rfl).list.holds hrun

/-! ### Nodes that are described -/

/-- Reading items leaves the children with the property. -/
theorem has_of_draftOfItems {C : List Node → Prop} {length : Nat} {fields : List Field}
    {draft result : Draft} {items : List Json}
    (hcontent : ∀ field, ∀ item ∈ items, ∀ content,
      contentOfJson field item = .ok content → field.Has C content)
    (hdraft : draft.Has C) (h : draftOfItems length fields draft items = .ok result) :
    result.Has C := by
  induction items generalizing fields draft with
  | nil =>
    cases h
    exact hdraft
  | cons item rest ih =>
    cases fields with
    | nil => cases h
    | cons field fields =>
      obtain ⟨content, hfirst, h⟩ := bind_eq_ok.1 h
      have hset := hdraft.set (hcontent field item List.mem_cons_self content hfirst)
      exact ih (fun field item hmem => hcontent field item (List.mem_cons_of_mem _ hmem)) hset h

/-- Reading members leaves the children with the property. -/
theorem has_of_draftOfMembers {C : List Node → Prop} {draft result : Draft}
    {members : List (String × Json)}
    (hcontent : ∀ (field : Field) json, (field.key, json) ∈ members → ∀ content,
      contentOfJson field json = .ok content → field.Has C content)
    (hdraft : draft.Has C) (h : draftOfMembers draft members = .ok result) : result.Has C := by
  intro nodes hnodes
  -- The children of the result are those of the draft or those that a member gives.
  obtain ⟨-, hgains⟩ := draftOfMembers_eq_ok_iff.1 h .children
  cases hlookup : members.lookup Field.children.key with
  | none =>
    rw [hlookup] at hgains
    exact hdraft nodes (hgains.symm.trans hnodes)
  | some json =>
    rw [hlookup] at hgains
    obtain ⟨-, content, hjson, hresult⟩ := hgains
    obtain rfl := Option.some.inj (hresult.symm.trans hnodes)
    exact hcontent .children json (Entries.mem_of_lookup hlookup) content hjson

/-- The nodes that items describe have what every described node has. -/
theorem forall_mem_of_ofJsonAll {P : Node → Prop} {items : List Json} {nodes : List Node}
    (hnode : ∀ item ∈ items, ∀ node, ofJson item = .ok node → P node)
    (h : ofJsonAll items = .ok nodes) : ∀ node ∈ nodes, P node := by
  induction items generalizing nodes with
  | nil =>
    cases h
    exact List.forall_mem_nil _
  | cons item rest ih =>
    obtain ⟨node, hfirst, h⟩ := bind_eq_ok.1 h
    obtain ⟨others, hrest, h⟩ := bind_eq_ok.1 h
    cases h
    refine List.forall_mem_cons.2 ⟨hnode item List.mem_cons_self node hfirst, ?_⟩
    exact ih (fun item hmem => hnode item (List.mem_cons_of_mem _ hmem)) hrest

/-- What holds of the nodes that JSON describes, and of the children that it gives, holds of all of them
if it passes from the children that something in the JSON gives to the node, and from the items that
describe nodes to the children. -/
theorem ofJson_induct {P C : Json → Node → Prop}
    (hnode : ∀ (json : Json) (draft : Draft), json.found = .array ∨ json.found = .object →
      (draft.Has fun nodes => ∃ part ∈ json.parts, ∀ node ∈ nodes, C part node) → P json draft.node)
    (hchild : ∀ items : List Json, ∀ item ∈ items, ∀ node, P item node → C (.array items) node)
    (json : Json) :
    (∀ node, ofJson json = .ok node → P json node) ∧
      ∀ field content, contentOfJson field json = .ok content →
        field.Has (fun nodes => ∀ node ∈ nodes, C json node) content := by
  induction json using Json.induct with
  | json json ih =>
    cases json with
    | null | bool | number | string =>
      -- None of these describes a node or gives children.
      refine ⟨nofun, fun field content h => ?_⟩
      cases field <;> trivial
    | array items =>
      constructor
      · intro node h
        obtain ⟨draft, hdraft, h⟩ := bind_eq_ok.1 h
        cases h
        refine hnode _ draft (.inl rfl) (has_of_draftOfItems (fun field item hmem content h => ?_)
          (Draft.has_empty _) hdraft)
        exact ((ih item hmem).2 field content h).imp fun nodes hnodes => ⟨item, hmem, hnodes⟩
      · intro field content h
        by_cases hfield : field = .children
        · subst hfield
          exact forall_mem_of_ofJsonAll
            (fun item hmem node h => hchild items item hmem node ((ih item hmem).1 node h)) h
        · rw [contentOfJson_array_of_ne hfield] at h
          cases h
    | object members =>
      constructor
      · intro node h
        obtain ⟨draft, hdraft, h⟩ := bind_eq_ok.1 h
        cases h
        refine hnode _ draft (.inr rfl) (has_of_draftOfMembers (fun field json hmem content h => ?_)
          (Draft.has_empty _) hdraft)
        have hpart := List.mem_map_of_mem (f := Prod.snd) hmem
        exact ((ih json hpart).2 field content h).imp fun nodes hnodes => ⟨json, hpart, hnodes⟩
      · intro field content h
        by_cases hfield : field = .attributes
        · subst hfield
          trivial
        · rw [contentOfJson_object_of_ne hfield] at h
          cases h

/-! ### What is inherited from the children -/

section Inherited

variable {P : Node → Prop}
  (hnode : ∀ draft : Draft, draft.Has (fun nodes => ∀ node ∈ nodes, P node) → P draft.node)

include hnode

/-- What passes from children to nodes holds of every node that is read from a text. -/
theorem yields_reader_and (depth : Nat) :
    (reader depth).Yields P ∧
      (listReader depth).Yields (fun nodes => ∀ node ∈ nodes, P node) := by
  induction depth with
  | zero =>
    rw [listReader]
    exact ⟨yields_readerWithin_none P, yields_listReaderWithin nofun⟩
  | succ depth ih =>
    rw [reader, listReader]
    -- A node reads its children one level down, and so does a list its nodes.
    constructor
    · refine yields_readerWithin (fun field => ?_) hnode
      cases field with
      | name | kind | value | attributes => exact ⟨fun _ => trivial⟩
      | children => exact ih.2
    · refine yields_listReaderWithin fun node heq => ?_
      cases heq
      exact ih.1

/-- What passes from children to nodes holds of every node that JSON describes. -/
theorem of_ofJson_and (json : Json) :
    (∀ node, ofJson json = .ok node → P node) ∧
      ∀ field content, contentOfJson field json = .ok content →
        field.Has (fun nodes => ∀ node ∈ nodes, P node) content := by
  refine ofJson_induct (P := fun _ => P) (C := fun _ => P) (fun _ draft _ hdraft => ?_)
    (fun _ _ _ _ h => h) json
  refine hnode draft fun nodes hnodes => ?_
  obtain ⟨_, -, h⟩ := hdraft nodes hnodes
  exact h

end Inherited

end Node

end MarkupQuery
