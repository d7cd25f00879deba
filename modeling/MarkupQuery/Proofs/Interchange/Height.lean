import MarkupQuery.Proofs.Interchange.TextRoundTrip

/-!
# The height of loaded trees

A level of a tree takes at least two brackets in a text, one around its nodes and one around each of
them, and a tree of 64 levels needs no bracket but these. So a tree that is loaded from a text has at
most 64 levels, and one of 64 levels may be. Its own text has one bracket more, that of the attributes
of a leaf, and is refused.

## Main definitions

- `Node.brief`: the shortest description of so many elements in one another, `Node.chain`.

## Main results

- `Node.yields_reader_height`: the height of what is read, by the number of brackets that may be open.
- `Node.height_le_of_load`: a tree that is loaded from a text has at most 64 levels.
- `Node.load_toText_of_load`: a tree that was loaded from a text is loaded from its own text, up to 63
  levels.
- `Node.load_toText_chain_ne`: a tree of 64 levels is loaded from a text but not from its own.
-/

namespace MarkupQuery.Node

/-! ### An upper bound -/

/-- No tree is higher than the bound exactly if the highest of them is not. -/
theorem heightAll_le_iff {nodes : List Node} {bound : Nat} :
    heightAll nodes ≤ bound ↔ ∀ node ∈ nodes, node.height ≤ bound := by
  induction nodes with
  | nil => exact iff_of_true (Nat.zero_le bound) (List.forall_mem_nil _)
  | cons node rest ih => rw [heightAll, Nat.max_le, ih, List.forall_mem_cons]

/-- A node that is built from its fields has at most one level more than its children. -/
theorem height_ofParts_le (kind name value : String) (attributes : Attributes)
    (children : List Node) :
    (ofParts kind name value attributes children).height ≤ heightAll children + 1 := by
  rw [ofParts]
  -- A text drops the children, and any other node keeps them.
  split
  · exact Nat.le_refl _
  split
  · exact Nat.le_add_left 1 _
  · exact Nat.le_refl _

/-- The node of a draft has at most one level more than the children in the draft. -/
theorem height_draft_node_le {draft : Draft} {bound : Nat}
    (h : draft.Has fun nodes => ∀ node ∈ nodes, node.height ≤ bound) :
    draft.node.height ≤ bound + 1 := by
  have hchildren : heightAll (draft.children?.getD []) ≤ bound := by
    cases hgiven : draft.children? with
    | none => exact Nat.zero_le bound
    | some nodes => exact heightAll_le_iff.2 (h nodes hgiven)
  exact Nat.le_trans (height_ofParts_le ..) (Nat.succ_le_succ hchildren)

/-- Of the brackets that may be open, every second one allows one more level. -/
theorem yields_reader_height (depth : Nat) :
    (reader depth).Yields (fun node => node.height ≤ (depth + 1) / 2) ∧
      (listReader depth).Yields (fun nodes => ∀ node ∈ nodes, node.height ≤ depth / 2) := by
  induction depth with
  | zero =>
    rw [listReader]
    exact ⟨yields_readerWithin_none _, yields_listReaderWithin fun _ heq => by cases heq⟩
  | succ depth ih =>
    rw [reader_succ, listReader]
    constructor
    · have hbound : depth / 2 + 1 = (depth + 1 + 1) / 2 := by omega
      refine yields_readerWithin (fun field => ?_) fun draft => hbound ▸ height_draft_node_le
      cases field with
      | name | kind | value | attributes => exact ⟨fun _ => trivial⟩
      | children => exact ih.2
    · refine yields_listReaderWithin fun node heq => ?_
      cases heq
      exact ih.1

/-- A tree that is loaded from a text has at most 64 levels. -/
theorem height_le_of_load {text : String} {node : Node} (h : (load text).value = .ok node) :
    node.height ≤ 64 := by
  obtain ⟨rest, hread, -⟩ := Reader.exists_of_readWhole (load_eq_ok_iff.1 h)
  exact (yields_reader_height Json.nestingLimit).1.holds hread

/-! ### The bound is reached -/

/-- So many elements in one another, without names, above another one. -/
def chain : (levels : Nat) → Node
  | 0 => ofTag ""
  | levels + 1 => .element "" .empty [chain levels]

/-- The shortest description of a chain: all that can be left out is left out. -/
def brief : (levels : Nat) → Json
  | 0 => .object []
  | levels + 1 => .object [(Field.children.key, .array [brief levels])]

/-- A chain has one level more than there are elements above the last. -/
theorem height_chain (levels : Nat) : (chain levels).height = levels + 1 := by
  induction levels with
  | zero => rfl
  | succ levels ih =>
    show max (chain levels).height 0 + 1 = levels + 1 + 1
    rw [Nat.max_zero, ih]

/-- The text of the shortest description of a chain has no member but that of the children. -/
theorem write_brief_succ (levels : Nat) :
    (brief (levels + 1)).write [] = Json.enclose .object
      [Json.memberText Field.children.key (Json.enclose .array [(brief levels).write []])] := by
  rw [brief, Json.write_object, List.map_cons, List.map_nil, Json.write_array]
  rfl

/-- The shortest description of a chain is an object. -/
theorem beginsItem_write_brief (levels : Nat) (rest : List Char) :
    Json.BeginsItem ((brief levels).write [] ++ rest) := by
  rw [← Json.write_eq_append]
  cases levels <;> exact Json.beginsItem_write_object _ rest

/-- The shortest description of a chain takes two brackets for each level but the last, which takes
one. -/
theorem readsWithin_brief (levels depth : Nat) (rest : List Char) :
    ReadsWithin (2 * levels + 1) depth (chain levels, rest)
      ((reader depth).run ((brief levels).write [] ++ rest)) := by
  induction levels generalizing depth rest with
  | zero =>
    cases depth with
    | zero => exact ⟨nofun, fun _ => ⟨_, rfl, rfl⟩⟩
    | succ depth =>
      refine readsWithin_object [] .empty ?_
      exact .of_eq (Reader.items_close .object _ true _ rest) depth
  | succ levels ih =>
    cases depth with
    | zero => exact ⟨nofun, fun _ => ⟨_, rfl, rfl⟩⟩
    | succ depth =>
      -- The list of the one child takes a bracket, and so does what it is a child of.
      have hchild := readsWithin_listReader (fun levels => (brief levels).write []) chain
        (fun levels => 2 * levels + 1) [levels] depth (fun levels _ => beginsItem_write_brief levels)
        (fun _ hmem => List.mem_singleton.1 hmem ▸ ih) ('\x7d' :: rest)
      have hneeded : 2 * (levels + 1) + 1 =
          max (([levels].map fun levels => 2 * levels + 1).foldr max 0 + 1) 0 + 1 := by
        simp only [List.map_cons, List.map_nil, List.foldr_cons, List.foldr_nil]
        omega
      rw [hneeded, write_brief_succ]
      refine readsWithin_object _ (Draft.empty.set .children [chain levels]) ?_
      rw [Json.joinTexts, Json.memberText_append]
      refine readsWithin_field .children rfl hchild ?_
      exact .of_eq (Reader.items_close .object _ false _ rest) depth

/-- The shortest description of a chain is loaded if the chain has at most 64 levels. -/
theorem load_brief {levels : Nat} (h : levels < 64) :
    (load (brief levels).compact).value = .ok (chain levels) := by
  have htext : (brief levels).compact.toList = (brief levels).write [] := String.toList_ofList
  have hread : ReadsWithin (max (2 * levels + 1) 0) Json.nestingLimit (chain levels)
      (read (brief levels).compact.toList) := by
    rw [htext, Json.write_eq_append]
    exact (readsWithin_brief levels Json.nestingLimit []).bind (.of_eq rfl _)
  rw [load_eq_ok_iff]
  exact hread.ok (by rw [Json.nestingLimit]; omega)

/-! ### Loading what was loaded -/

/-- The text of a node that has 64 levels or more exceeds the limit of open brackets. -/
theorem load_toText_of_lt {node : Node} (h : 63 < node.height) :
    ∃ position, (load node.toText).value = .error (.json .recursionLimit (some position)) :=
  load_of_recursionLimit ((readsWithin_read node).limit (by rw [Json.nestingLimit]; omega))

/-- A tree that was loaded from a text has at most 64 levels, and it is loaded from its own text exactly
if it has at most 63. If it has 64, the limit of open brackets is exceeded. -/
theorem load_toText_of_load {text : String} {node : Node} (h : (load text).value = .ok node) :
    node.height ≤ 64 ∧ ((load node.toText).value = .ok node ↔ node.height ≤ 63) ∧
      (node.height = 64 → ∃ position,
        (load node.toText).value = .error (.json .recursionLimit (some position))) := by
  refine ⟨height_le_of_load h, ⟨fun hload => ?_, fun hle => ?_⟩, fun heq => ?_⟩
  · refine Nat.le_of_not_lt fun hlt => ?_
    obtain ⟨position, herror⟩ := load_toText_of_lt hlt
    rw [hload] at herror
    cases herror
  · -- What is loaded is proper, so rebuilding it from its text changes nothing.
    have hread := (readsWithin_read node).ok (by rw [Json.nestingLimit]; omega)
    rwa [rebuild_eq_self (Built.load h).proper, ← load_eq_ok_iff] at hread
  · exact load_toText_of_lt (by omega)

/-- A chain of 63 levels is loaded from its own text, one of 64 is not. -/
theorem load_toText_loaded_chain :
    (load (chain 62).toText).value = .ok (chain 62) ∧
      ∃ position, (load (chain 63).toText).value = .error (.json .recursionLimit (some position)) :=
  ⟨(load_toText_of_load (load_brief (by decide : 62 < 64))).2.1.2 (Nat.le_of_eq (height_chain 62)),
    (load_toText_of_load (load_brief (by decide : 63 < 64))).2.2 (height_chain 63)⟩

/-- A chain of 64 levels is loaded from its shortest description, but not from its own text. -/
theorem load_toText_chain_ne :
    (load (brief 63).compact).value = .ok (chain 63) ∧
      (load (chain 63).toText).value ≠ .ok (chain 63) := by
  refine ⟨load_brief (by decide), ?_⟩
  obtain ⟨position, herror⟩ := load_toText_of_lt (Nat.le_of_eq (height_chain 63).symm)
  rw [herror]
  nofun

end MarkupQuery.Node
