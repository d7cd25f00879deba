import MarkupQuery.Proofs.Query.Depth
import MarkupQuery.Proofs.Query.Meaning

/-!
# Narrowing a search by attributes

Requiring further attributes takes away from what is found the nodes that do not have them, and leaves
the others where they are. The same is found whether the attributes are required one by one, in any order
and in any number of steps, or by a whole mapping at once. A descent for the narrower selector may have to
go deeper, and never stops earlier.

## Main definitions

- `Selector.requiringAll`: several attributes required one after the other.
- `Node.carries`: a node has all the given attributes.

## Main results

- `Query.find_requiringAll`: what a narrower search finds, in terms of the wider one.
- `Query.findWith_eq_find_requiringAll`: a mapping may be required entry by entry, in any order.
- `Query.exists_depth?_le_of_requiringAll`: a narrower descent stops no earlier.
- `Query.answers_requiring`: all of it.
-/

namespace MarkupQuery

/-! ### Nodes that have attributes -/

/-- Whether a node has all the given attributes. -/
def Node.carries (pairs : Entries String) (node : Node) : Bool :=
  ∀ pair ∈ pairs, node.attribute? pair.1 = some pair.2

/-- A node has the attributes of a mapping exactly if it has the value of each name that is found there. -/
theorem Node.carries_entries_iff {filter : Attributes} {node : Node} :
    node.carries filter.entries = true ↔
      ∀ name value, filter.get? name = some value → node.attribute? name = some value := by
  rw [carries, decide_eq_true_iff]
  constructor
  · intro h name value hfound
    exact h (name, value) (Entries.mem_of_lookup hfound)
  · rintro h ⟨name, value⟩ hmem
    exact h name value (Entries.lookup_of_mem (filter.ascending.once name) hmem)

namespace Selector

variable {selector : Selector} {pairs : Entries String} {node : Node}

/-- Require attributes one after the other. -/
def requiringAll (selector : Selector) (pairs : Entries String) : Selector :=
  pairs.foldl (fun selector pair => selector.requiring pair.1 pair.2) selector

/-- The attributes are required in addition to those that were required before. -/
theorem requiringAll_eq (selector : Selector) (pairs : Entries String) :
    selector.requiringAll pairs = ⟨selector.name, selector.required ++ pairs⟩ := by
  induction pairs generalizing selector with
  | nil => simp [requiringAll]
  | cons pair rest ih =>
    show (selector.requiring pair.1 pair.2).requiringAll rest = _
    rw [ih]
    simp [requiring]

/-- Requiring an attribute is requiring a list of one. -/
theorem requiring_eq_requiringAll (selector : Selector) (key value : String) :
    selector.requiring key value = selector.requiringAll [(key, value)] :=
  rfl

/-- A mapping is required entry by entry. -/
theorem withAttributes_eq_requiringAll (name : String) (filter : Attributes) :
    withAttributes name filter = (tag name).requiringAll filter.entries := by
  rw [requiringAll_eq]
  rfl

/-- The narrower selector selects the nodes that have the further attributes, among those selected. -/
theorem selects_requiringAll :
    (selector.requiringAll pairs).selects node = (selector.selects node && node.carries pairs) := by
  rw [Bool.eq_iff_iff, Bool.and_eq_true, selects_iff, selects_iff, requiringAll_eq, Node.carries,
    decide_eq_true_iff, List.forall_mem_append, and_assoc]

/-- What the narrower selector selects was selected before. -/
theorem selects_of_requiringAll (h : (selector.requiringAll pairs).selects node = true) :
    selector.selects node = true := by
  rw [selects_requiringAll, Bool.and_eq_true] at h
  exact h.1

end Selector

namespace Query

variable {query : Query} {selector : Selector} {pairs : Entries String}

/-! ### Searches -/

/-- A narrower search finds those nodes that have the further attributes, where they were. -/
theorem find_requiringAll (query : Query) (selector : Selector) (pairs : Entries String) :
    (query.find (selector.requiringAll pairs)).nodes =
      (query.find selector).nodes.filter (Node.carries pairs) := by
  rw [find_nodes, find_nodes, List.filter_filter]
  refine List.filter_congr fun node _ => ?_
  rw [Selector.selects_requiringAll, Bool.and_comm]

/-- A mapping may be required entry by entry, in any order. -/
theorem findWith_eq_find_requiringAll (query : Query) (name : String) {filter : Attributes}
    (h : pairs.Perm filter.entries) :
    query.findWith name filter = query.find ((Selector.tag name).requiringAll pairs) := by
  apply Selector.find_congr
  rw [Selector.withAttributes_eq_requiringAll]
  simp only [Selector.requiringAll_eq]
  exact Selector.selects_congr rfl fun pair => h.symm.mem_iff

/-! ### Descents -/

/-- There is a match for the narrower selector if one of the nodes that were found has the further
attributes. -/
theorem has_requiringAll_iff :
    query.has (selector.requiringAll pairs) = true ↔
      ∃ node ∈ (query.find selector).nodes, node.carries pairs = true := by
  rw [has_iff_exists_mem_preorderAll]
  simp only [Selector.selects_requiringAll, Bool.and_eq_true, mem_find, and_assoc]

/-- A descent for the narrower selector stops no earlier. -/
theorem exists_depth?_le_of_requiringAll {depth : Nat}
    (h : query.depth? (selector.requiringAll pairs) = some depth) :
    ∃ least ≤ depth, query.depth? selector = some least := by
  obtain ⟨⟨node, hmem, hselects⟩, -⟩ := depth?_eq_some_iff.1 h
  have hwider : selector.selects node = true := Selector.selects_of_requiringAll hselects
  rcases hleast : query.depth? selector with _ | least
  · exact absurd hwider (depth?_eq_none_iff.1 hleast depth node hmem)
  · -- The node that stops the narrower descent would stop the wider one on the same level.
    refine ⟨least, Nat.le_of_not_lt fun hlt => ?_, rfl⟩
    exact (depth?_eq_some_iff.1 hleast).2 depth hlt node hmem hwider

/-- If one more attribute is required, there are found those nodes that have it, among the nodes that were
found before and in their order, and there is a match if there is such a node. With a mapping there are
found the nodes of a name that have every value which is found in the mapping; the same is found by
requiring its entries one by one, in any order. In no way does requiring attributes add to what is found,
bring about a match, or lessen the depth that is reported for it. -/
theorem answers_requiring (query : Query) (selector : Selector) :
    (∀ key value,
      (query.find (selector.requiring key value)).nodes =
          ((query.find selector).nodes.filter fun node => node.attribute? key = some value) ∧
        (query.has (selector.requiring key value) = true ↔
          ∃ node ∈ (query.find selector).nodes, node.attribute? key = some value)) ∧
    (∀ (name : String) (filter : Attributes),
      (query.findWith name filter).nodes =
          (query.find (.tag name)).nodes.filter (Node.carries filter.entries) ∧
        (∀ node : Node, node.carries filter.entries = true ↔
          ∀ key value, filter.get? key = some value → node.attribute? key = some value) ∧
        ∀ pairs : Entries String, pairs.Perm filter.entries →
          query.findWith name filter = query.find ((Selector.tag name).requiringAll pairs)) ∧
    ∀ pairs : Entries String,
      (query.find (selector.requiringAll pairs)).nodes.Sublist (query.find selector).nodes ∧
      (query.find (selector.requiringAll pairs)).size ≤ (query.find selector).size ∧
      (query.has (selector.requiringAll pairs) = true → query.has selector = true) ∧
      ∀ depth, query.tracedHas (selector.requiringAll pairs) =
          ⟨true, [.has selector.name (some depth)]⟩ →
        ∃ least ≤ depth, query.tracedHas selector = ⟨true, [.has selector.name (some least)]⟩ := by
  have hone (key value : String) :
      Node.carries [(key, value)] = fun node => decide (node.attribute? key = some value) := by
    funext node
    simp [Node.carries]
  refine ⟨fun key value => ⟨?_, ?_⟩, fun name filter => ⟨?_, fun node => Node.carries_entries_iff,
    fun pairs hperm => query.findWith_eq_find_requiringAll name hperm⟩, fun pairs => ?_⟩
  · rw [Selector.requiring_eq_requiringAll, find_requiringAll, hone]
  · rw [Selector.requiring_eq_requiringAll, has_requiringAll_iff, hone]
    simp only [decide_eq_true_iff]
  · rw [query.findWith_eq_find_requiringAll name (.refl _), find_requiringAll]
  · have hsublist : (query.find (selector.requiringAll pairs)).nodes.Sublist
        (query.find selector).nodes := by
      rw [find_requiringAll]
      exact List.filter_sublist
    refine ⟨hsublist, hsublist.length_le, fun hhas => ?_, fun depth hdepth => ?_⟩
    · rw [has_iff_exists_mem_preorderAll] at hhas ⊢
      obtain ⟨node, hmem, hselects⟩ := hhas
      exact ⟨node, hmem, Selector.selects_of_requiringAll hselects⟩
    · have hname : (selector.requiringAll pairs).name = selector.name := by
        rw [Selector.requiringAll_eq]
      rw [← hname] at hdepth
      obtain ⟨least, hle, hleast⟩ :=
        exists_depth?_le_of_requiringAll ((tracedHas_eq_mk_iff (some depth)).1 hdepth)
      exact ⟨least, hle, (tracedHas_eq_mk_iff (some least)).2 hleast⟩

end Query

end MarkupQuery
