import MarkupQuery.Proofs.Loop
import MarkupQuery.Proofs.Node.Preorder
import MarkupQuery.Query.Search

/-!
# What a sweep visits

A sweep takes trees off a stack and puts their children in their place. Whatever lies on the stack
when it starts, it visits the nodes of these trees in document order, one tree after the other.

## Main results

- `sweep_run`: a sweep folds its visit over the nodes of the trees on the stack.
- `Query.find_nodes`: a search keeps the selected nodes of the context in document order.
-/

namespace MarkupQuery

/-- A sweep visits the nodes of the trees on its stack in document order. -/
theorem sweep_run {β : Type} (visit : β → Node → β) (state : Sweep β) :
    (sweep visit).run state = (Node.preorderAll state.stack).foldl visit state.result := by
  refine (sweep visit).run_induct
    (motive := fun state result => result = (Node.preorderAll state.stack).foldl visit state.result)
    ?done ?next state
  case done =>
    -- The sweep is done when nothing is left on the stack, and then nothing is left to visit.
    rintro ⟨_ | ⟨node, below⟩, soFar⟩ result hstep
    · cases hstep
      rfl
    · cases hstep
  case next =>
    rintro ⟨_ | ⟨node, below⟩, soFar⟩ following hstep ih
    · cases hstep
    · cases hstep
      rw [ih]
      -- The children take the place of their parent, which has been visited just now.
      simp only [Node.preorderAll, Node.preorder_eq, Node.preorderAll_append, List.cons_append,
        List.foldl_cons]

/-- Keeping nodes one after the other appends those that are selected. -/
theorem Selector.foldl_keep (selector : Selector) (kept : Array Node) (nodes : List Node) :
    (nodes.foldl selector.keep kept).toList = kept.toList ++ nodes.filter selector.selects := by
  induction nodes generalizing kept with
  | nil => simp
  | cons node rest ih =>
    rw [List.foldl_cons, ih, List.filter_cons, keep]
    split <;> simp

/-- Sweeping the trees of a context one by one, each from a stack of its own, folds the visit over
all nodes of the context. -/
theorem foldl_sweep_run {β : Type} (visit : β → Node → β) (roots : List Node) (initial : β) :
    roots.foldl (fun soFar root => (sweep visit).run ⟨[root], soFar⟩) initial =
      (Node.preorderAll roots).foldl visit initial := by
  induction roots generalizing initial with
  | nil => rfl
  | cons root rest ih =>
    rw [List.foldl_cons, ih, sweep_run]
    simp only [Node.preorderAll, List.append_nil, List.foldl_append]

/-- A search keeps the selected nodes of the context in document order. -/
theorem Query.find_nodes (query : Query) (selector : Selector) :
    (query.find selector).nodes = (Node.preorderAll query.nodes).filter selector.selects := by
  rw [find, foldl_sweep_run, Selector.foldl_keep, List.nil_append]

/-- A search finds the selected ones of the nodes of the context. -/
theorem Query.mem_find {query : Query} {selector : Selector} {node : Node} :
    node ∈ (query.find selector).nodes ↔
      node ∈ Node.preorderAll query.nodes ∧ selector.selects node = true := by
  rw [find_nodes, List.mem_filter]

end MarkupQuery
