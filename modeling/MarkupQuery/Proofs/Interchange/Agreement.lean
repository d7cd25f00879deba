import MarkupQuery.Proofs.Interchange.ReadBack
import MarkupQuery.Proofs.Json.Skip

/-!
# Texts are read as nodes as their JSON describes them

A text that is JSON is read as a node exactly if that JSON describes the node. The reader of nodes and
the description by JSON go through the same members and items in step: what is passed over is skipped
as far as it was read, and what one of them refuses the other refuses, too.

## Main definitions

- `Agrees`: a reading has the outcome that a value describes.

## Main results

- `Reader.agrees_items`: what agrees item by item agrees on all items of a bracket.
- `Node.agrees_reader`: nodes are read as they are described.
- `Node.read_eq_ok_iff_ofJson`: whole texts are read as they are described.
-/

namespace MarkupQuery

variable {α β σ ξ : Type}

/-! ### Agreement -/

/-- The outcome of a reading agrees with what a value describes: the described thing is read and the
rest is that of the value, or there is neither a reading nor a description. -/
inductive Agrees (rest : List Char) : Except Fault (α × List Char) → Except Offence α → Prop where
  /-- The described thing is read. -/
  | ok (value : α) : Agrees rest (.ok (value, rest)) (.ok value)
  /-- Nothing is read and nothing is described. -/
  | error (fault : Fault) (offence : Offence) : Agrees rest (.error fault) (.error offence)

namespace Agrees

variable {rest rest' : List Char}

/-- What is done next with the same value agrees if it does so for every value. -/
theorem bind {read : Except Fault (α × List Char)} {described : Except Offence α}
    {next : α × List Char → Except Fault (β × List Char)} {next' : α → Except Offence β}
    (h : Agrees rest read described)
    (hnext : ∀ value, Agrees rest' (next (value, rest)) (next' value)) :
    Agrees rest' (read >>= next) (described >>= next') := by
  cases h with
  | ok value => exact hnext value
  | error fault offence => exact .error fault offence

/-- The same is made of what is read and of what is described. -/
theorem map {reader : Reader α} {text : List Char} {described : Except Offence α}
    (h : Agrees rest (reader.run text) described) (f : α → β) :
    Agrees rest ((reader.map f).run text) (described >>= fun value => .ok (f value)) := by
  rw [Reader.map_run]
  exact h.bind fun value => .ok (f value)

/-- If nothing follows a value but blanks, what is described is what is read as a whole. -/
theorem readWhole_eq_ok_iff {reader : Reader α} {text : List Char} {described : Except Offence α}
    {value : α} (h : Agrees rest (reader.run text) described) (hrest : skipBlanks rest = []) :
    reader.readWhole text = .ok value ↔ described = .ok value := by
  rw [Reader.readWhole]
  generalize reader.run text = read at h
  cases h with
  | ok read =>
    simp only [Bind.bind, Except.bind, hrest, Except.ok.injEq]
  | error fault offence => exact ⟨nofun, nofun⟩

end Agrees

/-- If the content of a member agrees, the member does, with the same key. -/
theorem Reader.agrees_member {content : Reader α} {source : Reader ξ}
    {describe : ξ → Except Offence α} {text rest : List Char} {member : String × ξ}
    (hcontent : ∀ {text value rest}, source.run text = .ok (value, rest) →
      Agrees rest (content.run text) (describe value))
    (h : (Reader.member source).run text = .ok (member, rest)) :
    Agrees rest ((Reader.member content).run text)
      (describe member.2 >>= fun value => .ok (member.1, value)) := by
  obtain ⟨afterKey, afterColon, hkey, hcolon, hvalue⟩ := exists_of_member h
  rw [member_run hkey hcolon]
  exact (hcontent hvalue).bind fun value => .ok (member.1, value)

/-- What agrees item by item agrees on all items of a bracket. -/
theorem Reader.agrees_items {bracket : Bracket} {item : Reader ξ} {step : σ → Reader σ}
    {describe : σ → ξ → Except Offence σ} {isFirst : Bool} {text rest : List Char}
    {values : List ξ}
    (hstep : ∀ soFar {text value rest}, item.run text = .ok (value, rest) →
      Agrees rest ((step soFar).run text) (describe soFar value))
    (h : Collects bracket item isFirst text values rest) (soFar : σ) :
    Agrees rest (items bracket step isFirst soFar text) (values.foldlM describe soFar) := by
  induction h generalizing soFar with
  | close hturn =>
    rw [items_of_turn_close hturn soFar]
    exact .ok soFar
  | item hturn hread _ ih =>
    rw [items_of_turn_item hturn soFar, List.foldlM_cons]
    exact (hstep soFar hread).bind ih

/-- What agrees item by item agrees on all that stands within a bracket. -/
theorem Reader.agrees_within {bracket : Bracket} {item : Reader ξ} {step : σ → Reader σ}
    {describe : σ → ξ → Except Offence σ} {text rest : List Char} {values : List ξ}
    (hstep : ∀ soFar {text value rest}, item.run text = .ok (value, rest) →
      Agrees rest ((step soFar).run text) (describe soFar value))
    (h : Collects bracket item true text values rest) (initial : σ) :
    Agrees rest ((within bracket step initial).run text) (values.foldlM describe initial) :=
  agrees_items hstep h initial

namespace Node

/-! ### Strings and attributes -/

/-- Plain JSON gives nothing for any field. -/
theorem contentOfJson_of_isPlain {json : Json} (h : json.IsPlain) (field : Field) :
    ∃ offence, contentOfJson field json = .error offence := by
  cases json with
  | null | bool | number => cases field <;> exact ⟨_, rfl⟩
  | string | array | object => cases h

/-- The kind and the value are described as the name is. -/
theorem contentOfJson_kind_and (json : Json) :
    contentOfJson .kind json = contentOfJson .name json ∧
      contentOfJson .value json = contentOfJson .name json := by
  cases json <;> exact ⟨rfl, rfl⟩

/-- Strings are read as they are described. -/
theorem agrees_readString {depth : Nat} {text rest : List Char} {json : Json}
    (h : (Json.reader depth).run text = .ok (json, rest)) :
    Agrees rest (Json.readString.run text) (contentOfJson .name json) := by
  have hreads := Json.reads_of_reader h
  dsimp only [Json.readString]
  generalize skipBlanks text = begin at hreads ⊢
  cases hreads with
  | string hread =>
    show Agrees rest (StringText.readTail.run _) _
    rw [hread]
    exact .ok _
  | array | object => exact .error _ _
  | plain hquote _ _ hplain =>
    -- Whatever it is, it does not begin with a quote and is refused.
    obtain ⟨offence, hoffence⟩ := contentOfJson_of_isPlain hplain .name
    rw [hoffence]
    split
    · next heq => exact absurd (List.cons.inj heq).1 hquote
    · exact .error _ _

/-- A string that a member describes is set as an attribute. -/
theorem ofMembers_singleton (soFar : Attributes) (member : String × Json) :
    soFar.ofMembers [member] =
      ((contentOfJson .name member.2 >>= fun value => .ok (member.1, value)) >>=
        fun entry => .ok (soFar.set entry.1 entry.2)) := by
  obtain ⟨name, json⟩ := member
  cases json <;> rfl

/-- The attributes that members describe are set one by one. -/
theorem ofMembers_eq_foldlM (soFar : Attributes) (members : List (String × Json)) :
    soFar.ofMembers members =
      members.foldlM (fun soFar member => soFar.ofMembers [member]) soFar := by
  induction members generalizing soFar with
  | nil => rfl
  | cons member rest ih =>
    rw [List.foldlM_cons]
    obtain ⟨name, json⟩ := member
    -- A string is set, and anything else ends both sides with the same offence.
    cases json with
    | string value => exact ih _
    | null | bool | number | array | object => rfl

/-- Attributes are read as they are described. -/
theorem agrees_readAttributes {depth : Nat} {text rest : List Char} {json : Json}
    (h : (Json.reader depth).run text = .ok (json, rest)) :
    Agrees rest ((readAttributes (depth ≠ 0)).run text) (contentOfJson .attributes json) := by
  have hreads := Json.reads_of_reader h
  dsimp only [readAttributes]
  generalize skipBlanks text = begin at hreads ⊢
  cases hreads with
  | string | array => exact .error _ _
  | object hread =>
    rw [contentOfJson_attributes_object, ofMembers_eq_foldlM]
    refine Reader.agrees_within (fun soFar text member rest hmember => ?_) hread Attributes.empty
    rw [ofMembers_singleton]
    exact (Reader.agrees_member agrees_readString hmember).map _
  | @plain _ char _ _ _ hopened _ hplain =>
    obtain ⟨offence, hoffence⟩ := contentOfJson_of_isPlain hplain .attributes
    have hchar : char ≠ Bracket.object.opening := by
      rintro rfl
      cases hopened
    dsimp only
    rw [hoffence, if_pos hchar]
    exact .error _ _

/-! ### Members and items -/

/-- The draft that members describe gets them one by one. -/
theorem draftOfMembers_eq_foldlM (draft : Draft) (members : List (String × Json)) :
    draftOfMembers draft members =
      members.foldlM (fun draft member => draftOfMembers draft [member]) draft := by
  induction members generalizing draft with
  | nil => rfl
  | cons member rest ih =>
    obtain ⟨key, json⟩ := member
    rw [List.foldlM_cons, draftOfMembers, draftOfMembers]
    split
    · exact ih draft
    · split
      · rfl
      · next field _ _ =>
        cases contentOfJson field json with
        | ok content => exact ih _
        | error offence => rfl

/-- An array ends where its bracket is closed. -/
theorem readEnd_of_turn_close {isFirst : Bool} {text rest : List Char}
    (h : Bracket.array.turn isFirst text = .ok (.close, rest)) : readEnd text = .ok rest := by
  rw [readEnd, Bracket.skipBlanks_of_turn_close h]
  exact if_pos rfl

/-- An array does not end where another item begins. -/
theorem readEnd_of_turn_item {isFirst : Bool} {text begin : List Char}
    (h : Bracket.array.turn isFirst text = .ok (.item, begin)) :
    ∃ fault, readEnd text = .error fault := by
  obtain ⟨char, after, htext, hclosing, -⟩ := Bracket.exists_of_turn_item h
  rw [readEnd, htext]
  dsimp only
  rw [if_neg hclosing]
  split
  · exact ⟨_, rfl⟩
  · split <;> exact ⟨_, rfl⟩

section Fields

variable {content : (field : Field) → Reader field.Content} {depth : Nat}
  (hcontent : ∀ (field : Field) {text rest : List Char} {json : Json},
    (Json.reader depth).run text = .ok (json, rest) →
      Agrees rest ((content field).run text) (contentOfJson field json))

include hcontent

/-- A member is read into a draft as it is described: other keys are skipped, and a field that is
given again is refused. -/
theorem agrees_readMember (draft : Draft) {text rest : List Char} {member : String × Json}
    (h : (Reader.member (Json.reader depth)).run text = .ok (member, rest)) :
    Agrees rest ((readMember content draft).run text) (draftOfMembers draft [member]) := by
  obtain ⟨key, json⟩ := member
  obtain ⟨afterKey, afterColon, hkey, hcolon, hjson⟩ := Reader.exists_of_member h
  rw [draftOfMembers]
  simp only [readMember, hkey, hcolon, Bind.bind, Except.bind]
  cases Field.ofKey? key with
  | none =>
    -- What was read as a value is skipped as far.
    simp only [Json.skipper_of_reader hjson]
    exact .ok draft
  | some field =>
    dsimp only
    split
    · exact .error _ _
    · have hset : Agrees rest
          ((content field).run afterColon >>= fun read => .ok (draft.set field read.1, read.2))
          (contentOfJson field json >>= fun value => .ok (draft.set field value)) :=
        (hcontent field hjson).bind fun value => .ok _
      exact hset

/-- Items are read into a draft as they are described: they give the fields in turn, and none may be
left over. -/
theorem agrees_readItems {isFirst : Bool} {text rest : List Char} {items : List Json}
    (h : Reader.Collects .array (Json.reader depth) isFirst text items rest) (length : Nat)
    (fields : List Field) (draft : Draft) :
    Agrees rest (readItems content isFirst draft fields text)
      (draftOfItems length fields draft items) := by
  induction h generalizing fields draft with
  | close hturn =>
    cases fields with
    | nil =>
      rw [readItems, readEnd_of_turn_close hturn]
      exact .ok draft
    | cons field fields =>
      rw [readItems, hturn]
      exact .ok draft
  | item hturn hread _ ih =>
    cases fields with
    | nil =>
      -- There is one item too many.
      obtain ⟨fault, hfault⟩ := readEnd_of_turn_item hturn
      rw [readItems, hfault]
      exact .error _ _
    | cons field fields =>
      rw [readItems, hturn, draftOfItems]
      exact (hcontent field hread).bind fun content => ih fields (draft.set field content)

end Fields

/-! ### Nodes -/

/-- Items are read as nodes one by one, each put in front of those before. -/
theorem foldlM_ofJson (soFar : List Node) (items : List Json) :
    items.foldlM (fun soFar json => ofJson json >>= fun node => .ok (node :: soFar)) soFar =
      (ofJsonAll items >>= fun nodes => .ok (nodes.reverse ++ soFar)) := by
  induction items generalizing soFar with
  | nil => rfl
  | cons json rest ih =>
    rw [List.foldlM_cons, ofJsonAll]
    cases ofJson json with
    | error offence => rfl
    | ok node =>
      refine (ih (node :: soFar)).trans ?_
      cases ofJsonAll rest with
      | error offence => rfl
      | ok nodes => simp [Bind.bind, Except.bind]

/-- A list of nodes is read as it is described if nodes are. -/
theorem agrees_list {node : Reader Node} {depth : Nat} {text rest : List Char} {items : List Json}
    (hnode : ∀ {text rest : List Char} {json : Json},
      (Json.reader depth).run text = .ok (json, rest) → Agrees rest (node.run text) (ofJson json))
    (h : Reader.Collects .array (Json.reader depth) true text items rest) :
    Agrees rest (node.list.run text) (ofJsonAll items) := by
  have hitems := (Reader.agrees_within
    (fun soFar _ _ _ hjson => (hnode hjson).map (· :: soFar)) h []).map List.reverse
  have hreverse : ((ofJsonAll items >>= fun nodes => .ok (nodes.reverse ++ [])) >>=
      fun nodes => .ok nodes.reverse) = ofJsonAll items := by
    cases ofJsonAll items with
    | error offence => rfl
    | ok nodes => simp [Bind.bind, Except.bind]
  rwa [foldlM_ofJson, hreverse] at hitems

/-- A list of nodes is read in terms of its nodes, within a bracket of its own. -/
theorem listReader_eq (depth : Nat) :
    listReader depth =
      listReaderWithin (match depth with | 0 => none | depth + 1 => some (reader depth)) := by
  cases depth <;> rw [listReader]

/-- Children are read as they are described if nodes are. -/
theorem agrees_listReader {depth : Nat} {text rest : List Char} {json : Json}
    (hnode : ∀ inner < depth, ∀ {text rest : List Char} {json : Json},
      (Json.reader inner).run text = .ok (json, rest) →
        Agrees rest ((reader inner).run text) (ofJson json))
    (h : (Json.reader depth).run text = .ok (json, rest)) :
    Agrees rest ((listReader depth).run text) (contentOfJson .children json) := by
  have hreads := Json.reads_of_reader h
  rw [listReader_eq]
  dsimp only [listReaderWithin]
  generalize skipBlanks text = begin at hreads ⊢
  cases hreads with
  | string | object => exact .error _ _
  | array hitems => exact agrees_list (hnode _ (Nat.lt_succ_self _)) hitems
  | @plain _ char _ _ _ hopened _ hplain =>
    obtain ⟨offence, hoffence⟩ := contentOfJson_of_isPlain hplain .children
    have hchar : char ≠ Bracket.array.opening := by
      rintro rfl
      cases hopened
    dsimp only
    rw [hoffence, if_pos hchar]
    exact .error _ _

/-- Plain JSON describes no node. -/
theorem ofJson_of_isPlain {json : Json} (h : json.IsPlain) :
    ∃ offence, ofJson json = .error offence := by
  cases json with
  | null | bool | number => exact ⟨_, rfl⟩
  | string | array | object => cases h

/-- A node is read in terms of its fields, within a bracket of its own. -/
theorem reader_eq (depth : Nat) :
    reader depth =
      readerWithin (match depth with | 0 => none | depth + 1 => some (contentReader depth)) := by
  cases depth with
  | zero => rw [reader]
  | succ depth => rw [reader_succ]

/-- Nodes are read as they are described. -/
theorem agrees_reader {depth : Nat} {text rest : List Char} {json : Json}
    (h : (Json.reader depth).run text = .ok (json, rest)) :
    Agrees rest ((reader depth).run text) (ofJson json) := by
  induction depth using Nat.strongRecOn generalizing text rest json with
  | ind depth ih =>
    -- One level down, all fields are read as they are described: the children by the induction.
    have hcontent : ∀ inner < depth, ∀ (field : Field) {text rest : List Char} {json : Json},
        (Json.reader inner).run text = .ok (json, rest) →
          Agrees rest ((contentReader inner field).run text) (contentOfJson field json) := by
      intro inner hinner field text rest json h
      cases field with
      | name => exact agrees_readString h
      | kind => exact (contentOfJson_kind_and json).1 ▸ agrees_readString h
      | value => exact (contentOfJson_kind_and json).2 ▸ agrees_readString h
      | attributes => exact agrees_readAttributes h
      | children =>
        exact agrees_listReader (fun least hleast => ih least (Nat.lt_trans hleast hinner)) h
    have hreads := Json.reads_of_reader h
    rw [reader_eq]
    dsimp only [readerWithin]
    generalize skipBlanks text = begin at hreads ⊢
    cases hreads with
    | string => exact .error _ _
    | array hitems =>
      exact (agrees_readItems (hcontent _ (Nat.lt_succ_self _)) hitems _ Field.all .empty).bind
        fun draft => .ok draft.node
    | object hmembers =>
      have hdraft := (Reader.agrees_within (fun draft _ _ _ hmember =>
        agrees_readMember (hcontent _ (Nat.lt_succ_self _)) draft hmember) hmembers
        Draft.empty).map Draft.node
      rw [← draftOfMembers_eq_foldlM] at hdraft
      exact hdraft
    | plain _ hopened _ hplain =>
      obtain ⟨offence, hoffence⟩ := ofJson_of_isPlain hplain
      rw [hoffence]
      dsimp only
      rw [hopened]
      exact .error _ _

/-- A text that is JSON is read as a node exactly if that JSON describes it. -/
theorem read_eq_ok_iff_ofJson {text : List Char} {json : Json} {node : Node}
    (h : Json.read text = .ok json) : read text = .ok node ↔ ofJson json = .ok node := by
  obtain ⟨rest, hread, hrest⟩ := Reader.exists_of_readWhole h
  exact (agrees_reader hread).readWhole_eq_ok_iff hrest

end Node

end MarkupQuery
