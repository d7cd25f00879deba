import MarkupQuery.Interchange.Read
import MarkupQuery.Proofs.Interchange.Extras
import MarkupQuery.Proofs.Json.SkipGrammar

/-!
# Reading the text of a node

Every level of a tree takes two brackets, one around the fields of a node and one around its children
or, at the leaves, around its attributes. A node is read back from its text exactly if so many
brackets may be open at once, and the limit is exceeded otherwise. Members that nobody asked for make no
difference, wherever they stand and however deeply they are nested themselves.

## Main definitions

- `Node.contentReader`: the readers of the fields of a node.
- `Node.fieldContent`: what a node gives for a field, as it is read back.

## Main results

- `Node.readAttributes_write`: attributes need one bracket.
- `Node.items_of_isExtra`: a member that nobody asked for is passed over.
- `Node.readsWithin_fields`: fields are read in any order, and whatever has been inserted among them.
- `Node.readsWithin_embellished`: a node needs two brackets for each of its levels.
-/

namespace MarkupQuery.Node

/-- The readers of the fields of a node within which so many brackets may be open at once. -/
def contentReader (depth : Nat) : (field : Field) → Reader field.Content
  | .name | .kind | .value => Json.readString
  | .attributes => readAttributes (depth ≠ 0)
  | .children => listReader depth

/-- A node is read in terms of its fields, within a bracket of its own. -/
theorem reader_succ (depth : Nat) :
    reader (depth + 1) = readerWithin (some (contentReader depth)) := by
  rw [reader]
  congr

/-! ### Fields -/

/-- Written attributes are set in turn. -/
theorem items_stringMembers (isFirst : Bool) (soFar : Attributes) (entries : Entries String)
    (rest : List Char) :
    Reader.items .object
        (fun attributes => (Reader.member Json.readString).map
          (fun (name, value) => attributes.set name value)) isFirst soFar
        (Json.writeMembers isFirst (Json.stringMembers entries) ('\x7d' :: rest)) =
      .ok (entries.foldl (fun soFar entry => soFar.set entry.1 entry.2) soFar, rest) := by
  induction entries generalizing isFirst soFar with
  | nil => exact Reader.items_close .object _ isFirst soFar rest
  | cons entry entries ih =>
    have hbegins := Json.beginsItem_write_string entry.1
      (':' :: StringText.write entry.2
        (Json.writeMembers false (Json.stringMembers entries) ('\x7d' :: rest)))
    refine (Reader.items_item .object _ isFirst soFar hbegins).trans ?_
    rw [Reader.map_run, Reader.member_write, Json.readString_write]
    exact ih false (soFar.set entry.1 entry.2)

/-- Attributes are read back if one bracket may be open. -/
theorem readAttributes_write (depth : Nat) (attributes : Attributes) (rest : List Char) :
    ReadsWithin 1 depth (attributes, rest)
      ((readAttributes (depth ≠ 0)).run (attributes.toJson.write rest)) := by
  have hwrite : attributes.toJson.write rest =
      '\x7b' :: Json.writeMembers true (Json.stringMembers attributes.entries) ('\x7d' :: rest) := rfl
  -- The names ascend, so setting them in turn gives the same attributes.
  have hset : attributes.entries.foldl (fun soFar entry => soFar.set entry.1 entry.2) .empty =
      attributes := by
    have hok := attributes.contentOfJson_toJson
    exact Except.ok.inj ((Attributes.ofMembers_stringMembers _ _).symm.trans hok)
  rw [hwrite]
  constructor
  · intro hle
    have hdepth : depth ≠ 0 := by omega
    simp only [readAttributes, skipBlanks_cons (rfl : isBlank '\x7b' = false), Bracket.opening,
      ne_eq, not_true_eq_false, if_false, hdepth, not_false_eq_true, decide_true, Bool.not_true,
      Bool.false_eq_true]
    exact (items_stringMembers true .empty attributes.entries rest).trans (by rw [hset])
  · intro hlt
    obtain rfl : depth = 0 := by omega
    exact ⟨_, rfl, rfl⟩

/-- A written member that gives a field for the first time goes into the draft. -/
theorem readMember_write {content : (field : Field) → Reader field.Content} {draft : Draft}
    (field : Field) (hhas : draft.has field = false) (text : List Char) :
    (readMember content draft).run (StringText.write field.key (':' :: text)) =
      ((content field).run text >>= fun read => .ok (draft.set field read.1, read.2)) := by
  simp only [readMember, Reader.key_write, Field.ofKey?_eq_some_iff.2 rfl, hhas, readColon_cons,
    bind, Except.bind, Bool.false_eq_true, if_false]

/-- A written field is read, and then what is left of the node. -/
theorem readsWithin_field {needed needed' depth : Nat}
    {content : (field : Field) → Reader field.Content} {isFirst : Bool} {draft : Draft}
    {expected : Draft × List Char} {text rest : List Char} (field : Field) {read : field.Content}
    (hhas : draft.has field = false)
    (hcontent : ReadsWithin needed depth (read, rest) ((content field).run text))
    (hrest : ReadsWithin needed' depth expected
      (Reader.items .object (readMember content) false (draft.set field read) rest)) :
    ReadsWithin (max needed needed') depth expected
      (Reader.items .object (readMember content) isFirst draft
        (Json.writeComma isFirst (StringText.write field.key (':' :: text)))) := by
  refine Reader.readsWithin_items (Json.beginsItem_write_string _ _) ?_ hrest
  rw [readMember_write field hhas, ← Nat.max_zero needed]
  exact hcontent.bind (.of_eq rfl depth)

/-- A member that nobody asked for is passed over, and then what is left of the node is read. -/
theorem items_of_isExtra {content : (field : Field) → Reader field.Content} {extra rest : List Char}
    (h : IsExtra extra) (hrest : Skip.EndsNumber rest) (isFirst : Bool) (draft : Draft) :
    Reader.items .object (readMember content) isFirst draft (Json.writeComma isFirst (extra ++ rest)) =
      Reader.items .object (readMember content) false draft rest := by
  obtain @⟨before, spelled, between, gap, value, after, key, hbefore, hkey, hunknown, hbetween, hgap,
    hvalue, hafter⟩ := h
  -- The key is that of no field, so its content is skipped and the draft stays as it is.
  have hread : (readMember content draft).run
      ('"' :: (spelled ++ '"' :: (between ++ ':' :: (gap ++ (value ++ (after ++ rest)))))) =
        .ok (draft, after ++ rest) := by
    have hspelled : ∀ text, Reader.key.run ('"' :: (spelled ++ '"' :: text)) = .ok (key, text) :=
      StringText.readTail_of_spells hkey
    simp only [readMember, hspelled, hunknown, readColon_append hbetween,
      Json.skipper_of_isValue hgap hvalue (hrest.append hafter), bind, Except.bind]
  have hbegins : Json.BeginsItem
      ('"' :: (spelled ++ '"' :: (between ++ ':' :: (gap ++ (value ++ (after ++ rest)))))) :=
    Json.beginsItem_cons rfl (by decide) (by decide) _
  have hturn := Bracket.turn_writeComma_append .object isFirst hbefore hbegins
  simp only [List.append_assoc, List.cons_append]
  rw [Reader.items_of_turn_item hturn draft, hread]
  exact Reader.items_append .object _ false draft hafter rest

/-- Fields, each of them given once, go into the draft in turn, whatever has been inserted among
them. -/
theorem readsWithin_fields {depth : Nat} {content : (field : Field) → Reader field.Content}
    {text : Field → List Char} {read : (field : Field) → field.Content} {needed : Field → Nat}
    {fields : List Field} {members : List (List Char)}
    (hcontent : ∀ field rest,
      ReadsWithin (needed field) depth (read field, rest) ((content field).run (text field ++ rest)))
    (hmembers : Inserted IsExtra (fields.map fun field => Json.memberText field.key (text field)) members)
    (hnodup : fields.Nodup) (isFirst : Bool) (draft : Draft)
    (hhas : ∀ field ∈ fields, draft.has field = false) (rest : List Char) :
    ReadsWithin ((fields.map needed).foldr max 0) depth
      (fields.foldl (fun draft field => draft.set field (read field)) draft, rest)
      (Reader.items .object (readMember content) isFirst draft
        (Json.joinTexts isFirst members ('\x7d' :: rest))) := by
  -- The induction is on what has been inserted where. The fields that are left are those of the members
  -- that are left.
  generalize hwritten : (fields.map fun field => Json.memberText field.key (text field)) = written
    at hmembers
  induction hmembers generalizing fields isFirst draft with
  | nil =>
    obtain rfl := List.map_eq_nil_iff.1 hwritten
    exact .of_eq (Reader.items_close .object _ isFirst draft rest) depth
  | @insert extra written members hextra _ ih =>
    -- Nothing of the draft has changed behind the further member.
    have hends : Skip.EndsNumber (Json.joinTexts false members ('\x7d' :: rest)) :=
      Skip.endsNumber_joinTexts .object members rest
    rw [Json.joinTexts, items_of_isExtra hextra hends]
    exact ih hnodup false draft hhas hwritten
  | keep member _ ih =>
    obtain ⟨field, fields, rfl, rfl, hothers⟩ := List.map_eq_cons_iff.1 hwritten
    obtain ⟨hnotin, hnodup⟩ := List.nodup_cons.1 hnodup
    obtain ⟨hfield, hfields⟩ := List.forall_mem_cons.1 hhas
    rw [Json.joinTexts, Json.memberText_append]
    refine readsWithin_field field hfield (hcontent field _)
      (ih hnodup false _ (fun other hmem => ?_) hothers)
    -- The field that is given now is not given again, so the others are not in the draft yet.
    have hne : other ≠ field := fun heq => hnotin (heq ▸ hmem)
    rw [Draft.has, Draft.get?_set_of_ne _ _ hne]
    exact hfields other hmem

/-- A draft into which fields are set in turn holds what was set. -/
theorem get?_foldl_set (read : (field : Field) → field.Content) (fields : List Field) (draft : Draft)
    (field : Field) :
    (fields.foldl (fun draft field => draft.set field (read field)) draft).get? field =
      if field ∈ fields then some (read field) else draft.get? field := by
  induction fields generalizing draft with
  | nil => rfl
  | cons first fields ih =>
    rw [List.foldl_cons, ih]
    by_cases heq : field = first
    · subst heq
      simp
    · simp [heq, Draft.get?_set_of_ne _ _ heq]

/-! ### Nodes -/

/-- A list of nodes is read from their texts if each of them is within one more bracket. -/
theorem readsWithin_listReader {ξ : Type} (text : ξ → List Char) (decode : ξ → Node)
    (needed : ξ → Nat) (xs : List ξ) (depth : Nat)
    (hbegins : ∀ x ∈ xs, ∀ rest, Json.BeginsItem (text x ++ rest))
    (hnode : ∀ x ∈ xs, ∀ depth rest,
      ReadsWithin (needed x) depth (decode x, rest) ((reader depth).run (text x ++ rest)))
    (rest : List Char) :
    ReadsWithin ((xs.map needed).foldr max 0 + 1) depth (xs.map decode, rest)
      ((listReader depth).run (Json.enclose .array (xs.map text) ++ rest)) := by
  rw [Json.enclose_append]
  cases depth with
  | zero => exact ⟨nofun, fun _ => ⟨_, rfl, rfl⟩⟩
  | succ depth =>
    have hlist := Reader.readsWithin_list hbegins (fun x hmem => hnode x hmem depth) rest
    exact hlist.succ

/-- An object is read as the node of the draft that its members give, within one more bracket. -/
theorem readsWithin_object {needed depth : Nat} {rest : List Char} (members : List (List Char))
    (draft : Draft)
    (h : ReadsWithin needed depth (draft, rest)
      (Reader.items .object (readMember (contentReader depth)) true .empty
        (Json.joinTexts true members ('\x7d' :: rest)))) :
    ReadsWithin (needed + 1) (depth + 1) (draft.node, rest)
      ((reader (depth + 1)).run (Json.enclose .object members ++ rest)) := by
  have hwithin : ReadsWithin needed depth (draft, rest)
      ((Reader.within .object (readMember (contentReader depth)) .empty).run
        (Json.joinTexts true members ('\x7d' :: rest))) := h
  rw [Json.enclose_append, reader_succ]
  exact (hwithin.map Draft.node).succ

/-- What a node gives for a field is meant by what is written for it. -/
def fieldContent (node : Node) : (field : Field) → field.Content
  | .name => node.name?.getD ""
  | .kind => node.kindName
  | .value => node.value?.getD ""
  | .attributes => node.attributes?.getD .empty
  | .children => node.children.map rebuild

/-- In whichever order all fields are set, the draft describes the rebuilt node. -/
theorem node_foldl_set {order : List Field} (horder : order.Perm Field.all) (node : Node) :
    (order.foldl (fun draft field => draft.set field (node.fieldContent field)) Draft.empty).node =
      node.rebuild := by
  have hdraft : order.foldl (fun draft field => draft.set field (node.fieldContent field))
      Draft.empty = Field.all.foldl (fun draft field => draft.set field (node.fieldContent field))
        Draft.empty := by
    refine Draft.ext_get? fun field => ?_
    rw [get?_foldl_set, get?_foldl_set, if_pos field.mem_all,
      if_pos (horder.mem_iff.2 field.mem_all)]
  rw [hdraft, rebuild_eq]
  rfl

/-- What is written for a field of a node is read back if its children are. -/
theorem readsWithin_fieldText {node : Node} {children : List (List Char)} {levels depth : Nat}
    (hchildren : ∀ rest, ReadsWithin (2 * levels + 1) depth (node.children.map rebuild, rest)
      ((listReader depth).run (Json.enclose .array children ++ rest)))
    (field : Field) (rest : List Char) :
    ReadsWithin (fieldNesting levels field) depth (node.fieldContent field, rest)
      ((contentReader depth field).run (node.fieldText children field ++ rest)) := by
  cases field with
  | name | kind | value =>
    rw [fieldText_append]
    · exact .of_eq (Json.readString_write _ rest) depth
    · nofun
  | attributes =>
    rw [fieldText_append]
    · exact readAttributes_write depth _ rest
    · nofun
  | children => exact hchildren rest

/-- A node is read back from its text, rebuilt from its fields, if there may be two open brackets for each
of its levels. Otherwise the limit is exceeded. Neither the order of the fields matters nor what has been
inserted among them. -/
theorem readsWithin_embellished {order : List Field} (horder : order.Perm Field.all) {node : Node}
    {text : List Char} (h : Embellished order node text) (depth : Nat) (rest : List Char) :
    ReadsWithin (2 * node.height) depth (node.rebuild, rest) ((reader depth).run (text ++ rest)) := by
  induction h generalizing depth rest with
  | @intro node children members hchildren htexts hmembers ih =>
    rw [height_eq, ← node_foldl_set horder]
    -- The fields are read one level down, where the bracket of the node is open.
    cases depth with
    | zero => exact ⟨nofun, fun _ => ⟨_, rfl, rfl⟩⟩
    | succ depth =>
      have hlist : ∀ rest, ReadsWithin (2 * heightAll node.children + 1) depth
          (node.children.map rebuild, rest)
          ((listReader depth).run (Json.enclose .array (children.map Prod.snd) ++ rest)) := by
        intro rest
        rw [← foldr_max_height, ← hchildren, List.map_map, List.map_map]
        exact readsWithin_listReader Prod.snd _ _ children depth
          (fun child hmem => (htexts child hmem).beginsItem) ih rest
      have hnodup : order.Nodup := horder.nodup_iff.2 (by decide)
      have hempty : ∀ field ∈ order, Draft.empty.has field = false :=
        fun field _ => by cases field <;> rfl
      have hfields := readsWithin_fields (readsWithin_fieldText hlist) hmembers hnodup true .empty hempty
        rest
      rw [foldr_max_fieldNesting horder] at hfields
      exact readsWithin_object _ _ hfields

end MarkupQuery.Node
