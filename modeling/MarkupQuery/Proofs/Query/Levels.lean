import MarkupQuery.Proofs.Node.Levels
import MarkupQuery.Proofs.Query.Sweep

/-!
# What a descent looks at

A descent looks at one level of the trees after the other. The levels hold the same nodes as the
document order does, so a descent finds a match exactly when a search finds one, although neither
visits the nodes in the order of the other.

## Main definitions

- `Query.level`: the query that is reached by taking the children so many times.
- `Descent.Result`: what a descent results in, in terms of the levels.

## Main results

- `Query.nodes_level`: taking children level after level leads to the nodes of that level.
- `descent_induct`: induction along a descent, with one case for each thing that it can do on a level.
- `descent_run`: a descent ends at the first level that has a match.
- `Query.depth?_eq_some_iff`, `Query.depth?_eq_none_iff`: the depth that is found is the least one at
  which there is a match.
- `Query.has_iff_find_ne_nil`: asking for a match and searching for one agree.
-/

namespace MarkupQuery

/-- The query that is reached from a context by taking the children so many times. -/
def Query.level (query : Query) : (depth : Nat) → Query
  | 0 => query
  | depth + 1 => (query.level depth).children

/-- Taking the children of a context so many times leads to the nodes that lie so many levels below
it. -/
@[simp]
theorem Query.nodes_level (query : Query) (depth : Nat) :
    (query.level depth).nodes = Node.level depth query.nodes := by
  induction depth with
  | zero => rfl
  | succ depth ih => rw [level, children, ih, Node.level_succ]

/-- A level of a context is empty when it is at least as deep as the tallest tree is high. -/
theorem Query.isEmpty_level_iff {query : Query} {depth : Nat} :
    (query.level depth).isEmpty = true ↔ Node.heightAll query.nodes ≤ depth := by
  rw [isEmpty, List.isEmpty_iff, nodes_level, Node.level_eq_nil_iff]

/-! ### The steps of a descent -/

/-- The level so many levels further down. -/
def Level.down (level : Level) (below : Nat) : Level :=
  ⟨Node.level below level.nodes, level.depth + below⟩

section Steps

variable {selector : Selector} {level : Level}

/-- A descent ends without a match on a level where there is no node. -/
theorem descent_step_of_nil (h : level.nodes = []) :
    (descent selector).step level = .done none := by
  simp only [descent, h, List.isEmpty_nil, if_true]

/-- A descent ends on a level that has a match. -/
theorem descent_step_of_match (h : ∃ node ∈ level.nodes, selector.selects node) :
    (descent selector).step level = .done (some level.depth) := by
  have hany : level.nodes.any selector.selects = true := List.any_eq_true.2 h
  have hne : level.nodes ≠ [] := List.ne_nil_of_mem h.choose_spec.1
  simp only [descent, hany, List.isEmpty_iff, hne, if_false, if_true]

/-- A descent goes on to the next level from one that has nodes but no match. -/
theorem descent_step_of_no_match (hne : level.nodes ≠ [])
    (h : ∀ node ∈ level.nodes, ¬ selector.selects node) :
    (descent selector).step level = .next (level.down 1) := by
  have hany : level.nodes.any selector.selects = false := by simpa using h
  simp only [descent, hany, List.isEmpty_iff, hne, if_false, Bool.false_eq_true]
  rfl

/-- The levels below the next one are those below this one, counted from one less. -/
theorem Level.down_down_one (level : Level) (below : Nat) :
    (level.down 1).down below = level.down (below + 1) := by
  simp only [down, Node.level, Nat.add_assoc, Nat.add_comm 1]

end Steps

/-- What holds of a level without nodes, of a level that has a match, and of a level without a match
if it holds of the next one, holds of every level. -/
theorem descent_induct (selector : Selector) {motive : Level → Prop}
    (exhausted : ∀ level : Level, level.nodes = [] → motive level)
    (found : ∀ level : Level, (∃ node ∈ level.nodes, selector.selects node) → motive level)
    (goOn : ∀ level : Level, level.nodes ≠ [] →
      (∀ node ∈ level.nodes, ¬ selector.selects node) → motive (level.down 1) → motive level)
    (level : Level) : motive level := by
  refine (descent selector).induct (motive := motive) ?_ level
  intro level ih
  by_cases hnil : level.nodes = []
  · exact exhausted level hnil
  by_cases hmatch : ∃ node ∈ level.nodes, selector.selects node
  · exact found level hmatch
  · have hnone : ∀ node ∈ level.nodes, ¬ selector.selects node :=
      fun node hmem hselects => hmatch ⟨node, hmem, hselects⟩
    exact goOn level hnil hnone (ih _ (descent_step_of_no_match hnil hnone))

/-- What a descent from a level results in: the depth of the first level from there on that has a
match, or nothing if no level has one. -/
inductive Descent.Result (selector : Selector) (level : Level) : Option Nat → Prop where
  /-- A level has a match, and none of the levels above it has one. -/
  | found (below : Nat)
      (here : ∃ node ∈ Node.level below level.nodes, selector.selects node)
      (first : ∀ above < below, ∀ node ∈ Node.level above level.nodes, ¬ selector.selects node) :
      Result selector level (some (level.depth + below))
  /-- No level has a match. -/
  | notFound (nowhere : ∀ below, ∀ node ∈ Node.level below level.nodes, ¬ selector.selects node) :
      Result selector level none

/-- A descent ends at the first level that has a match, if there is one. -/
theorem descent_run (selector : Selector) (level : Level) :
    Descent.Result selector level ((descent selector).run level) := by
  induction level using descent_induct selector with
  | exhausted level hnil =>
    rw [Loop.run_of_done (descent_step_of_nil hnil)]
    -- The level is empty, and so is every level below it.
    refine .notFound fun below node hmem => ?_
    rw [hnil, Node.level_nil] at hmem
    exact absurd hmem List.not_mem_nil
  | found level hmatch =>
    rw [Loop.run_of_done (descent_step_of_match hmatch)]
    -- The match is on this very level, above which the descent has nothing to answer for.
    exact .found 0 hmatch nofun
  | goOn level hne hnone ih =>
    rw [Loop.run_of_next (descent_step_of_no_match hne hnone)]
    -- What is so many levels below the next level is one level more below this one.
    generalize (descent selector).run (level.down 1) = result at ih ⊢
    cases ih with
    | found below here first =>
      rw [Level.down, Nat.add_assoc, Nat.add_comm 1]
      refine .found (below + 1) here fun above habove => ?_
      cases above with
      | zero => exact hnone
      | succ above => exact first above (Nat.lt_of_succ_lt_succ habove)
    | notFound nowhere =>
      refine .notFound fun below => ?_
      cases below with
      | zero => exact hnone
      | succ below => exact nowhere below

namespace Query

/-! ### The least depth -/

section Depth

variable {query : Query} {selector : Selector}

/-- The depth that is found is that of the first level which has a match. -/
theorem depth?_eq_some_iff {depth : Nat} :
    query.depth? selector = some depth ↔
      (∃ node ∈ (query.level depth).nodes, selector.selects node) ∧
        ∀ above < depth, ∀ node ∈ (query.level above).nodes, ¬ selector.selects node := by
  have hrun := descent_run selector ⟨query.nodes, 0⟩
  simp only [nodes_level, depth?]
  generalize (descent selector).run _ = result at hrun ⊢
  cases hrun with
  | found below here first =>
    rw [Nat.zero_add, Option.some.injEq]
    constructor
    · rintro rfl
      exact ⟨here, first⟩
    · rintro ⟨⟨node, hmem, hselects⟩, hfirst⟩
      obtain ⟨other, hother, hotherSelects⟩ := here
      -- The first level that has a match is above no other such level.
      have hle : ¬ below < depth := fun hlt => hfirst below hlt other hother hotherSelects
      have hge : ¬ depth < below := fun hlt => first depth hlt node hmem hselects
      omega
  | notFound nowhere =>
    refine iff_of_false (Option.some_ne_none depth).symm ?_
    rintro ⟨⟨node, hmem, hselects⟩, -⟩
    exact nowhere depth node hmem hselects

/-- No depth is found when no level has a match. -/
theorem depth?_eq_none_iff :
    query.depth? selector = none ↔
      ∀ depth, ∀ node ∈ (query.level depth).nodes, ¬ selector.selects node := by
  have hrun := descent_run selector ⟨query.nodes, 0⟩
  simp only [nodes_level, depth?]
  generalize (descent selector).run _ = result at hrun ⊢
  cases hrun with
  | found below here first =>
    refine iff_of_false (Option.some_ne_none _) fun hnowhere => ?_
    obtain ⟨node, hmem, hselects⟩ := here
    exact hnowhere below node hmem hselects
  | notFound nowhere => exact iff_of_true rfl nowhere

end Depth

/-- A query has a match exactly when one of the nodes of its trees is selected. -/
theorem has_iff_exists_mem_preorderAll (query : Query) (selector : Selector) :
    query.has selector = true ↔
      ∃ node ∈ Node.preorderAll query.nodes, selector.selects node = true := by
  rw [has, Option.isSome_iff_ne_none, ne_eq, depth?_eq_none_iff]
  simp only [Classical.not_forall, Classical.not_not, nodes_level, Node.mem_preorderAll_iff]
  constructor
  · rintro ⟨depth, node, hmem, hselects⟩
    exact ⟨node, ⟨depth, hmem⟩, hselects⟩
  · rintro ⟨node, ⟨depth, hmem⟩, hselects⟩
    exact ⟨depth, node, hmem, hselects⟩

/-- Asking whether there is a match, level by level over the whole context, and searching for all
matches, tree by tree in document order, agree on whether there is one; and both are right about
it. -/
theorem has_iff_find_ne_nil (query : Query) (selector : Selector) :
    (query.has selector = true ↔ (query.find selector).nodes ≠ []) ∧
      (query.has selector = true ↔
        ∃ node ∈ Node.preorderAll query.nodes, selector.selects node = true) := by
  have hhas := has_iff_exists_mem_preorderAll query selector
  refine ⟨?_, hhas⟩
  rw [hhas]
  constructor
  · rintro ⟨node, hmem, hselects⟩
    exact List.ne_nil_of_mem (mem_find.2 ⟨hmem, hselects⟩)
  · intro hne
    obtain ⟨node, hmem⟩ := List.exists_mem_of_ne_nil _ hne
    exact ⟨node, mem_find.1 hmem⟩

end Query

end MarkupQuery
