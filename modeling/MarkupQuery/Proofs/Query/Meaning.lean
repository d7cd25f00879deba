import MarkupQuery.Proofs.Entries
import MarkupQuery.Proofs.Query.Levels

/-!
# What selectors mean

A selector means the nodes that it selects. Neither the order in which attributes are required nor how
often one of them is required makes a difference to that. A selector that requires two values of one
attribute selects nothing, and every other one selects the element that has just the required
attributes. So this element tells apart the selectors that mean different things.

## Main definitions

- `Selector.Contradictory`: two values are required of one attribute.
- `Selector.exemplar`: the element with the required attributes and no others.

## Main results

- `Selector.contradictory_iff`: exactly the contradictory selectors select nothing.
- `Selector.selects_congr_iff`: two selectors select the same nodes if both are contradictory, or if they
  have the same name and the same requirements.
- `Selector.forall_has_eq_iff`, `Selector.forall_find_eq_iff`: they do so if their answers agree.
- `Selector.selects_eq_iff`: all of it.
-/

namespace MarkupQuery.Selector

variable {a b selector : Selector} {node : Node} {key value : String}

/-- Two different values are required of one attribute. -/
def Contradictory (selector : Selector) : Prop :=
  ∃ key value other, value ≠ other ∧ (key, value) ∈ selector.required ∧
    (key, other) ∈ selector.required

/-- A node is selected if it has the name and the required attributes. -/
theorem selects_iff :
    selector.selects node = true ↔ node.name? = some selector.name ∧
      ∀ pair ∈ selector.required, node.attribute? pair.1 = some pair.2 :=
  decide_eq_true_iff

/-! ### Exemplars -/

/-- The element that has the required attributes and no others. Of several values that are required of
one attribute it has the last. -/
def exemplar (selector : Selector) : Node :=
  .element selector.name (.ofList selector.required) []

/-- The attributes of the exemplar are the last of those that are required. -/
theorem attribute?_exemplar (selector : Selector) (key : String) :
    selector.exemplar.attribute? key = selector.required.reverse.lookup key :=
  Entries.lookup_ofList selector.required key

/-- All attributes of the exemplar are required. -/
theorem mem_required_of_exemplar (h : selector.exemplar.attribute? key = some value) :
    (key, value) ∈ selector.required := by
  rw [attribute?_exemplar] at h
  exact List.mem_reverse.1 (Entries.mem_of_lookup h)

/-- A selector that is not contradictory selects its exemplar. -/
theorem selects_exemplar (h : ¬ selector.Contradictory) :
    selector.selects selector.exemplar = true := by
  refine selects_iff.2 ⟨rfl, fun ⟨key, value⟩ hmem => ?_⟩
  dsimp only
  cases hfound : selector.exemplar.attribute? key with
  | none =>
    rw [attribute?_exemplar, List.lookup_eq_none_iff] at hfound
    simpa using hfound (key, value) (List.mem_reverse.2 hmem)
  | some other =>
    -- What is found is required as well, so it is no other value.
    by_cases heq : value = other
    · rw [heq]
    · exact absurd ⟨key, value, other, heq, hmem, mem_required_of_exemplar hfound⟩ h

/-- A selector that selects the exemplar of another one has its name, and requires nothing that the other
one does not. -/
theorem name_eq_and_subset_of_selects_exemplar (h : a.selects b.exemplar = true) :
    a.name = b.name ∧ ∀ pair ∈ a.required, pair ∈ b.required := by
  obtain ⟨hname, hrequired⟩ := selects_iff.1 h
  exact ⟨(Option.some.inj hname).symm,
    fun pair hmem => mem_required_of_exemplar (hrequired pair hmem)⟩

/-! ### The nodes that are selected -/

/-- A contradictory selector selects no node. -/
theorem Contradictory.selects_eq_false (h : selector.Contradictory) (node : Node) :
    selector.selects node = false := by
  obtain ⟨key, value, other, hne, hvalue, hother⟩ := h
  refine Bool.eq_false_iff.2 fun hselects => hne ?_
  have hrequired := (selects_iff.1 hselects).2
  -- The node would have both values for the attribute.
  exact Option.some.inj ((hrequired _ hvalue).symm.trans (hrequired _ hother))

/-- Exactly the contradictory selectors select nothing. -/
theorem contradictory_iff : selector.Contradictory ↔ ∀ node, selector.selects node = false := by
  refine ⟨fun h => h.selects_eq_false, fun hnone => ?_⟩
  by_cases h : selector.Contradictory
  · exact h
  · have hselects := selects_exemplar h
    rw [hnone] at hselects
    cases hselects

/-- Selectors with the same name and the same requirements select the same nodes. -/
theorem selects_congr (hname : a.name = b.name)
    (hrequired : ∀ pair, pair ∈ a.required ↔ pair ∈ b.required) (node : Node) :
    a.selects node = b.selects node := by
  rw [Bool.eq_iff_iff, selects_iff, selects_iff, hname]
  simp only [hrequired]

/-- Two selectors select the same nodes exactly if both are contradictory, or if they have the same name
and the same requirements. -/
theorem selects_congr_iff :
    (∀ node, a.selects node = b.selects node) ↔
      a.Contradictory ∧ b.Contradictory ∨
        a.name = b.name ∧ ∀ pair, pair ∈ a.required ↔ pair ∈ b.required := by
  constructor
  · intro h
    by_cases ha : a.Contradictory
    · exact .inl ⟨ha, contradictory_iff.2 fun node => (h node).symm.trans (ha.selects_eq_false node)⟩
    · -- What is selected by one of them is selected by the other, and so is no contradiction.
      have hself := selects_exemplar ha
      have hb : ¬ b.Contradictory := fun hb => by
        rw [h, hb.selects_eq_false] at hself
        cases hself
      obtain ⟨hname, hsubset⟩ := name_eq_and_subset_of_selects_exemplar ((h _).symm.trans hself)
      obtain ⟨-, hsuperset⟩ :=
        name_eq_and_subset_of_selects_exemplar ((h _).trans (selects_exemplar hb))
      exact .inr ⟨hname.symm, fun pair => ⟨hsuperset pair, hsubset pair⟩⟩
  · rintro (⟨ha, hb⟩ | ⟨hname, hrequired⟩) node
    · rw [ha.selects_eq_false, hb.selects_eq_false]
    · exact selects_congr hname hrequired node

/-! ### Answers to queries -/

/-- The node without its children. -/
def alone : Node → Node
  | .element name attributes _ => .element name attributes []
  | .text value => .text value
  | .other kind name value attributes _ => .other kind name value attributes []

/-- The children make no difference to whether a node is selected. -/
theorem selects_alone (selector : Selector) (node : Node) :
    selector.selects (alone node) = selector.selects node := by
  cases node <;> rfl

/-- Where there is one node without children, there is a match if it is selected. -/
theorem has_ofNode_alone (selector : Selector) (node : Node) :
    (Query.ofNode (alone node)).has selector = selector.selects node := by
  have hnodes : Node.preorderAll (Query.ofNode (alone node)).nodes = [alone node] := by
    cases node <;> rfl
  rw [Bool.eq_iff_iff, Query.has_iff_exists_mem_preorderAll, hnodes, ← selects_alone]
  simp

/-- If selectors select the same nodes, they find the same. -/
theorem find_congr (h : ∀ node, a.selects node = b.selects node) (query : Query) :
    query.find a = query.find b := by
  have hnodes : (query.find a).nodes = (query.find b).nodes := by
    rw [Query.find_nodes, Query.find_nodes, funext h]
  exact congrArg Query.mk hnodes

/-- If selectors find the same, there is a match for one of them where there is one for the other. -/
theorem has_congr {query : Query} (h : query.find a = query.find b) :
    query.has a = query.has b := by
  have hmem (node : Node) : node ∈ (query.find a).nodes ↔ node ∈ (query.find b).nodes := by rw [h]
  rw [Bool.eq_iff_iff, Query.has_iff_exists_mem_preorderAll, Query.has_iff_exists_mem_preorderAll]
  simpa only [Query.mem_find] using exists_congr hmem

/-- Selectors select the same nodes exactly if there is a match for one of them wherever there is one for
the other. -/
theorem forall_has_eq_iff :
    (∀ query : Query, query.has a = query.has b) ↔ ∀ node, a.selects node = b.selects node := by
  refine ⟨fun h node => ?_, fun h query => has_congr (find_congr h query)⟩
  rw [← has_ofNode_alone, h, has_ofNode_alone]

/-- Selectors select the same nodes exactly if they find the same in every context. -/
theorem forall_find_eq_iff :
    (∀ query : Query, query.find a = query.find b) ↔ ∀ node, a.selects node = b.selects node :=
  ⟨fun h => forall_has_eq_iff.1 fun query => has_congr (h query), find_congr⟩

/-- A contradictory selector finds nothing. -/
theorem Contradictory.find_eq_empty (h : selector.Contradictory) (query : Query) :
    query.find selector = .empty := by
  have hnil : (query.find selector).nodes = [] := by
    rw [Query.find_nodes, List.filter_eq_nil_iff]
    intro node _
    rw [h.selects_eq_false]
    exact Bool.false_ne_true
  exact congrArg Query.mk hnil

/-- There is no match for a contradictory selector. -/
theorem Contradictory.has_eq_false (h : selector.Contradictory) (query : Query) :
    query.has selector = false := by
  rw [Bool.eq_false_iff, ne_eq, Query.has_iff_exists_mem_preorderAll]
  rintro ⟨node, -, hselects⟩
  rw [h.selects_eq_false] at hselects
  cases hselects

/-- Two selectors select the same nodes exactly if both are contradictory, or if they have the same name and
the same requirements, in whichever order and however often. It is the same to say that they find the same
in every context, and that there is a match for one of them wherever there is one for the other. A
contradictory selector selects no node, so that it finds nothing and has no match in any context, and there
are no other selectors of this kind. -/
theorem selects_eq_iff (a b : Selector) :
    ((∀ node, a.selects node = b.selects node) ↔
      a.Contradictory ∧ b.Contradictory ∨
        a.name = b.name ∧ ∀ pair, pair ∈ a.required ↔ pair ∈ b.required) ∧
    ((∀ query : Query, query.find a = query.find b) ↔
      ∀ node, a.selects node = b.selects node) ∧
    ((∀ query : Query, query.has a = query.has b) ↔
      ∀ node, a.selects node = b.selects node) ∧
    (a.Contradictory ↔ ∀ node, a.selects node = false) ∧
    (a.Contradictory ↔ ∀ query : Query, query.find a = .empty) ∧
    (a.Contradictory ↔ ∀ query : Query, query.has a = false) := by
  refine ⟨selects_congr_iff, forall_find_eq_iff, forall_has_eq_iff, contradictory_iff,
    ⟨Contradictory.find_eq_empty, fun hempty => ?_⟩, Contradictory.has_eq_false, fun hnone => ?_⟩
  · -- A node that is selected would be found in the context of this node alone.
    refine contradictory_iff.2 fun node => Bool.eq_false_iff.2 fun hselects => ?_
    have hmem : alone node ∈ (Query.find (.ofNode (alone node)) a).nodes := by
      refine Query.mem_find.2 ⟨List.mem_append_left _ (alone node).mem_preorder_self, ?_⟩
      rwa [selects_alone]
    rw [hempty] at hmem
    exact List.not_mem_nil hmem
  · refine contradictory_iff.2 fun node => ?_
    rw [← has_ofNode_alone, hnone]

/-- Two selectors are not the same, and mean the same. -/
example :
    let once := (Selector.tag "a").requiring "k" "v"
    once.requiring "k" "v" ≠ once ∧ ∀ node, (once.requiring "k" "v").selects node = once.selects node :=
  ⟨by decide, selects_congr rfl (by simp [Selector.requiring, Selector.tag])⟩

end MarkupQuery.Selector
