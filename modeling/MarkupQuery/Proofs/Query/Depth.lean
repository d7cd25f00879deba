import MarkupQuery.Proofs.Query.Levels
import MarkupQuery.Query.Log

/-!
# How deep a descent goes

A descent stops at the first level that has a match, whichever of the trees the match is in, and
reports the depth of that level. It asks its selector on the levels down to there and on no other. If
there is no match it asks on every level that holds a node, and there are as many of these as the
tallest tree is high.

## Main definitions

- `Query.levels`: the uppermost levels of a context, with their depths.
- `Query.inspected`: the levels on which a descent asks its selector, in turn.

## Main results

- `Query.inspected_of_depth?_eq_some`, `Query.inspected_of_depth?_eq_none`: where the selector is asked.
- `Query.tracedHas_eq_iff`: what is answered and reported, and after how many rounds.
-/

namespace MarkupQuery

/-! ### Where a descent asks -/

namespace Descent

/-- The levels on which a descent asks its selector: all that it goes through, except for an empty one,
where it ends without asking. -/
def inspected (selector : Selector) (level : Level) : List Level :=
  ((descent selector).states level).filter fun level => !level.nodes.isEmpty

variable {selector : Selector} {level : Level}

/-- On an empty level a descent does not ask. -/
theorem inspected_of_nil (h : level.nodes = []) : inspected selector level = [] := by
  rw [inspected, Loop.states_of_done (descent_step_of_nil h)]
  simp [h]

/-- A level that has a match is the last one on which a descent asks. -/
theorem inspected_of_match (h : ∃ node ∈ level.nodes, selector.selects node) :
    inspected selector level = [level] := by
  have hne : level.nodes ≠ [] := List.ne_nil_of_mem h.choose_spec.1
  rw [inspected, Loop.states_of_done (descent_step_of_match h)]
  simp [hne]

/-- After a level that has nodes but no match, a descent asks from the next level on. -/
theorem inspected_of_no_match (hne : level.nodes ≠ [])
    (h : ∀ node ∈ level.nodes, ¬ selector.selects node) :
    inspected selector level = level :: inspected selector (level.down 1) := by
  rw [inspected, Loop.states_of_next (descent_step_of_no_match hne h), List.filter_cons_of_pos]
  · rfl
  · simpa using hne

/-- The uppermost levels from a level on are the level itself and the uppermost ones from the next. -/
theorem map_down_range_succ (level : Level) (count : Nat) :
    (List.range (count + 1)).map level.down =
      level :: (List.range count).map (level.down 1).down := by
  rw [List.range_succ_eq_map, List.map_cons, List.map_map]
  exact congrArg _ (List.map_congr_left fun below _ => (level.down_down_one below).symm)

/-- A descent asks on the levels down to the one where it finds a match, or else on all that have a
node. -/
theorem run_and_inspected (selector : Selector) (level : Level) :
    (∃ below, (descent selector).run level = some (level.depth + below) ∧
        inspected selector level = (List.range (below + 1)).map level.down) ∨
      ((descent selector).run level = none ∧
        inspected selector level =
          (List.range (Node.heightAll level.nodes)).map level.down) := by
  induction level using descent_induct selector with
  | exhausted level hnil =>
    refine .inr ⟨Loop.run_of_done (descent_step_of_nil hnil), ?_⟩
    rw [inspected_of_nil hnil, hnil]
    rfl
  | found level hmatch =>
    exact .inl ⟨0, Loop.run_of_done (descent_step_of_match hmatch), inspected_of_match hmatch⟩
  | goOn level hne hnone ih =>
    -- Here and below the levels are counted from this one, so that there is one more of them.
    rw [Loop.run_of_next (descent_step_of_no_match hne hnone), inspected_of_no_match hne hnone]
    rcases ih with ⟨below, hrun, hinspected⟩ | ⟨hrun, hinspected⟩
    · refine .inl ⟨below + 1, ?_, ?_⟩
      · rw [hrun, Level.down, Nat.add_assoc, Nat.add_comm 1]
      · rw [hinspected, map_down_range_succ level (below + 1)]
    · refine .inr ⟨hrun, ?_⟩
      have hheight : Node.heightAll level.nodes = Node.heightAll (level.down 1).nodes + 1 := by
        have hpos := Node.heightAll_pos hne
        simp only [Level.down, Node.level, Node.heightAll_flatMap_children]
        omega
      rw [hinspected, hheight, map_down_range_succ]

end Descent

namespace Query

variable {query : Query} {selector : Selector}

/-- The uppermost levels of a context, as many as are asked for, with their depths. -/
def levels (query : Query) (count : Nat) : List Level :=
  (List.range count).map fun depth => ⟨(query.level depth).nodes, depth⟩

/-- The levels on which a descent through a context asks its selector, in turn. -/
def inspected (query : Query) (selector : Selector) : List Level :=
  Descent.inspected selector ⟨query.nodes, 0⟩

/-- The uppermost levels of a context are those that lie below it. -/
theorem levels_eq_map_down (query : Query) (count : Nat) :
    query.levels count = (List.range count).map (Level.down ⟨query.nodes, 0⟩) := by
  refine List.map_congr_left fun depth _ => ?_
  rw [nodes_level, Level.down, Nat.zero_add]

/-- When a depth is found, the selector has been asked on the levels down to it. -/
theorem inspected_of_depth?_eq_some {depth : Nat} (h : query.depth? selector = some depth) :
    query.inspected selector = query.levels (depth + 1) := by
  rw [levels_eq_map_down, inspected]
  rcases Descent.run_and_inspected selector ⟨query.nodes, 0⟩ with ⟨below, hrun, hinspected⟩ | ⟨hrun, -⟩
  · have hbelow : below = depth := by simpa using hrun.symm.trans h
    rw [hinspected, hbelow]
  · cases hrun.symm.trans h

/-- When no depth is found, the selector has been asked on as many levels as the tallest tree has. -/
theorem inspected_of_depth?_eq_none (h : query.depth? selector = none) :
    query.inspected selector = query.levels (Node.heightAll query.nodes) := by
  rw [levels_eq_map_down, inspected]
  rcases Descent.run_and_inspected selector ⟨query.nodes, 0⟩ with ⟨below, hrun, -⟩ | ⟨-, hinspected⟩
  · cases hrun.symm.trans h
  · exact hinspected

/-- What is answered and reported tells which depth was found, and is told by it. -/
theorem tracedHas_eq_mk_iff (depth? : Option Nat) :
    query.tracedHas selector = ⟨depth?.isSome, [.has selector.name depth?]⟩ ↔
      query.depth? selector = depth? := by
  constructor
  · intro h
    have hevents : (query.tracedHas selector).events = [.has selector.name depth?] :=
      congrArg Traced.events h
    simpa only [tracedHas, List.cons.injEq, Event.has.injEq, true_and, and_true] using hevents
  · rintro rfl
    rfl

/-- A context is said to have a match at a depth if that level has one and no level above it has, and to
have none if no level has one. In the first case the selector was asked on the levels down to that depth
and nowhere else, one level a round; in the second case on every level that holds a node, and there are as
many of these as the tallest tree of the context has levels. -/
theorem tracedHas_eq_iff (query : Query) (selector : Selector) :
    (∀ depth, query.tracedHas selector = ⟨true, [.has selector.name (some depth)]⟩ ↔
        (∃ node ∈ (query.level depth).nodes, selector.selects node) ∧
          ∀ above < depth, ∀ node ∈ (query.level above).nodes, ¬ selector.selects node) ∧
      (query.tracedHas selector = ⟨false, [.has selector.name none]⟩ ↔
        ∀ depth, ∀ node ∈ (query.level depth).nodes, ¬ selector.selects node) ∧
      (∀ depth, query.tracedHas selector = ⟨true, [.has selector.name (some depth)]⟩ →
        query.inspected selector = query.levels (depth + 1)) ∧
      (query.tracedHas selector = ⟨false, [.has selector.name none]⟩ →
        query.inspected selector = query.levels (Node.heightAll query.nodes)) ∧
      ∀ depth, (query.level depth).isEmpty = true ↔ Node.heightAll query.nodes ≤ depth := by
  have hfound (depth : Nat) :
      query.tracedHas selector = ⟨true, [.has selector.name (some depth)]⟩ ↔
        query.depth? selector = some depth := tracedHas_eq_mk_iff (some depth)
  have hnotFound : query.tracedHas selector = ⟨false, [.has selector.name none]⟩ ↔
      query.depth? selector = none := tracedHas_eq_mk_iff none
  refine ⟨fun depth => ?_, ?_, fun depth h => ?_, fun h => ?_, fun depth => isEmpty_level_iff⟩
  · rw [hfound, depth?_eq_some_iff]
  · rw [hnotFound, depth?_eq_none_iff]
  · exact inspected_of_depth?_eq_some ((hfound depth).1 h)
  · exact inspected_of_depth?_eq_none (hnotFound.1 h)

end Query

end MarkupQuery
