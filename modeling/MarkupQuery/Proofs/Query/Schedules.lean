import Mathlib.Data.List.Induction
import Mathlib.Data.List.Perm.Subperm
import MarkupQuery.Query.Batch

/-!
# Batches in any order

Workers take the tasks of a batch one by one, each time any task that has not been taken yet. How far they
have come depends on the tasks that have been taken only: the slots of these are filled with their results
and the others are empty. The order in which they were taken shows in the order of the reports alone, and so
the end of all this is the same as if the tasks had been executed as they are listed.

## Main definitions

- `Batch.Reaches`: how far workers can have come that have taken tasks in an order.
- `Batch.after`: the progress that results from this order.
- `Batch.Settles`: workers come to the expected results, in whichever order they take the tasks.

## Main results

- `Batch.reaches_iff`: tasks are taken in any order in which none is taken twice, and this is how far the
  workers come.
- `Batch.isComplete_after_iff`: nothing is left to do when every task has had its turn.
- `Batch.settles_all`: the results of a batch are those of its tasks as they are listed.
- `Query.tasks_mapAll`: calling a function in a batch is calling it node by node.
- `Query.batches_settle`: searches, questions for matches and calls of a function for the nodes.
-/

namespace MarkupQuery

namespace Batch

variable {α : Type} {batch : Batch α} {order : List Nat} {progress : Progress α} {index : Nat}

/-! ### Steps of workers -/

/-- Every task has been executed. -/
def Progress.IsComplete (progress : Progress α) : Prop :=
  ∀ index, progress.isPending index = false

/-- How far workers can have come that have taken tasks in the given order. -/
inductive Reaches (batch : Batch α) : List Nat → Progress α → Prop where
  /-- No task has been taken. -/
  | start : Reaches batch [] batch.start
  /-- A worker takes any task that is pending and executes it. -/
  | step {order : List Nat} {progress : Progress α} {index : Nat} (h : Reaches batch order progress)
      (hpending : progress.isPending index = true) :
      Reaches batch (order ++ [index]) (batch.execute progress index)

/-- Workers come as far as by executing the tasks in the order in which they are taken. -/
theorem Reaches.eq_run (h : batch.Reaches order progress) : progress = batch.run order := by
  induction h with
  | start => rfl
  | step _ _ ih => rw [ih, run, run, List.foldl_append, List.foldl_cons, List.foldl_nil]

/-! ### What tasks leave behind -/

/-- The tasks in the order in which they are taken. -/
def taken (batch : Batch α) (order : List Nat) : List (Traced α) :=
  order.filterMap (batch.tasks[·]?)

/-- The progress after tasks have been taken in an order: they have filled their slots, and have reported
one after the other. -/
def after (batch : Batch α) (order : List Nat) : Progress α where
  slots := batch.tasks.mapIdx fun index task => if index ∈ order then some task.value else none
  events := (batch.taken order).flatMap Traced.events

/-- Tasks that are taken as they are listed are the tasks of the batch. -/
theorem taken_inTurn (batch : Batch α) : batch.taken batch.inTurn = batch.tasks := by
  have hlisted : batch.inTurn.map (batch.tasks[·]?) = batch.tasks.map some := by
    apply List.ext_getElem?
    intro index
    by_cases hlt : index < batch.tasks.length
    · simp [inTurn, hlt]
    · simp [inTurn, hlt]
  calc
    batch.taken batch.inTurn = (batch.inTurn.map (batch.tasks[·]?)).filterMap id := by
        rw [List.filterMap_map]
        rfl
    _ = (batch.tasks.map some).filterMap id := by rw [hlisted]
    _ = batch.tasks := by
        rw [List.filterMap_map]
        exact List.filterMap_some

/-- Before any task has been taken, all slots are empty and nothing has been reported. -/
theorem after_nil (batch : Batch α) : batch.after [] = batch.start := by
  have hslots : (batch.after []).slots = batch.start.slots := by
    rw [after, start, List.mapIdx_eq_iff]
    intro index
    rw [List.getElem?_map]
    simp only [List.not_mem_nil, if_false]
  exact congrArg₂ Progress.mk hslots rfl

/-- The pending tasks are those that have not been taken. -/
theorem isPending_after_iff :
    (batch.after order).isPending index = true ↔ index < batch.tasks.length ∧ index ∉ order := by
  rw [Progress.isPending, after, List.getElem?_mapIdx]
  by_cases hlt : index < batch.tasks.length
  · by_cases hmem : index ∈ order
    · simp [hlt, hmem]
    · simp [hlt, hmem]
  · simp [hlt]

/-- One more task is taken: it fills its slot, leaves the others alone, and reports. -/
theorem execute_after (hlt : index < batch.tasks.length) (hnot : index ∉ order) :
    batch.execute (batch.after order) index = batch.after (order ++ [index]) := by
  have hpending : (batch.after order).isPending index = true := isPending_after_iff.2 ⟨hlt, hnot⟩
  have htask : batch.tasks[index]? = some batch.tasks[index] := List.getElem?_eq_getElem hlt
  have hslots : (batch.after order).slots.set index (some batch.tasks[index].value) =
      (batch.after (order ++ [index])).slots := by
    apply List.ext_getElem?
    intro other
    rw [List.getElem?_set, after, after, List.getElem?_mapIdx, List.getElem?_mapIdx]
    by_cases heq : index = other
    · subst heq
      simp [hlt]
    · simp [heq, Ne.symm heq]
  have hevents : (batch.after order).events ++ batch.tasks[index].events =
      (batch.after (order ++ [index])).events := by
    simp [after, taken, htask]
  rw [execute, if_pos hpending, htask]
  show Progress.mk _ _ = _
  rw [hslots, hevents]

/-- Workers can take the tasks in any order in which none is taken twice, and come as far as it tells. -/
theorem reaches_iff :
    batch.Reaches order progress ↔
      order.Nodup ∧ (∀ index ∈ order, index < batch.tasks.length) ∧ progress = batch.after order := by
  constructor
  · intro h
    induction h with
    | start => exact ⟨List.nodup_nil, List.forall_mem_nil _, batch.after_nil.symm⟩
    | @step order progress index _ hpending ih =>
      obtain ⟨hnodup, hbound, rfl⟩ := ih
      -- What is pending has not been taken before.
      obtain ⟨hlt, hnot⟩ := isPending_after_iff.1 hpending
      refine ⟨?_, ?_, execute_after hlt hnot⟩
      · exact (List.perm_append_singleton index order).nodup_iff.2 (List.nodup_cons.2 ⟨hnot, hnodup⟩)
      · rw [List.forall_mem_append, List.forall_mem_singleton]
        exact ⟨hbound, hlt⟩
  · rintro ⟨hnodup, hbound, rfl⟩
    induction order using List.reverseRecOn with
    | nil => exact batch.after_nil ▸ .start
    | append_singleton order index ih =>
      rw [(List.perm_append_singleton index order).nodup_iff, List.nodup_cons] at hnodup
      obtain ⟨hnot, hnodup⟩ := hnodup
      rw [List.forall_mem_append, List.forall_mem_singleton] at hbound
      obtain ⟨hbound, hlt⟩ := hbound
      rw [← execute_after hlt hnot]
      exact .step (ih hnodup hbound) (isPending_after_iff.2 ⟨hlt, hnot⟩)

/-! ### Complete runs -/

/-- Every task has been executed when each has had its turn. -/
theorem isComplete_after_iff (hnodup : order.Nodup)
    (hbound : ∀ index ∈ order, index < batch.tasks.length) :
    (batch.after order).IsComplete ↔ batch.Schedule order := by
  rw [Schedule, List.perm_ext_iff_of_nodup hnodup List.nodup_range]
  refine forall_congr' fun index => ?_
  rw [Bool.eq_false_iff, ne_eq, isPending_after_iff, List.mem_range, not_and_not_right]
  exact ⟨fun h => ⟨hbound index, h⟩, fun h => h.2⟩

/-- None but the tasks of the batch can be taken. -/
theorem subperm_range (hnodup : order.Nodup) (hbound : ∀ index ∈ order, index < batch.tasks.length) :
    order.Subperm (List.range batch.tasks.length) :=
  hnodup.subperm fun index hmem => List.mem_range.2 (hbound index hmem)

/-- As many tasks have been taken as there are in the batch when each has had its turn. -/
theorem schedule_iff_length_eq (hnodup : order.Nodup)
    (hbound : ∀ index ∈ order, index < batch.tasks.length) :
    batch.Schedule order ↔ order.length = batch.tasks.length := by
  constructor
  · intro h
    rw [h.length_eq, List.length_range]
  · intro h
    have hlength : (List.range batch.tasks.length).length = order.length := by
      rw [List.length_range, h]
    exact (subperm_range hnodup hbound).perm_of_length_le (Nat.le_of_eq hlength)

/-- When no task is left, each has had its turn. -/
theorem Reaches.schedule_and_eq (h : batch.Reaches order progress) (hdone : progress.IsComplete) :
    batch.Schedule order ∧ progress = batch.after order := by
  obtain ⟨hnodup, hbound, rfl⟩ := reaches_iff.1 h
  exact ⟨(isComplete_after_iff hnodup hbound).1 hdone, rfl⟩

/-- Workers can take the tasks in every order in which each has its turn. -/
theorem Schedule.reaches (h : batch.Schedule order) : batch.Reaches order (batch.after order) :=
  reaches_iff.2 ⟨h.nodup_iff.2 List.nodup_range,
    fun _ hmem => List.mem_range.1 (h.mem_iff.1 hmem), rfl⟩

/-- When every task has had its turn, every slot holds the result of its task. -/
theorem Schedule.slots_after (h : batch.Schedule order) :
    (batch.after order).slots = batch.tasks.map fun task => some task.value := by
  rw [after, List.mapIdx_eq_iff]
  intro index
  by_cases hlt : index < batch.tasks.length
  · have hmem : index ∈ order := h.mem_iff.2 (List.mem_range.2 hlt)
    simp [hmem]
  · simp [hlt]

/-- When every task has had its turn, the results are read off in the order of the tasks. -/
theorem Schedule.value_after (h : batch.Schedule order) :
    (batch.after order).collect.value = batch.tasks.map Traced.value := by
  rw [Progress.collect, h.slots_after, List.filterMap_map]
  exact congrFun List.filterMap_eq_map batch.tasks

/-- When every task has had its turn, the tasks that were taken are those of the batch in another order. -/
theorem Schedule.taken_perm (h : batch.Schedule order) : (batch.taken order).Perm batch.tasks := by
  have hperm := h.filterMap (batch.tasks[·]?)
  rwa [show (List.range batch.tasks.length).filterMap (batch.tasks[·]?) = batch.tasks from
    batch.taken_inTurn] at hperm

/-! ### The end of all runs -/

/-- Workers come to the expected results, in whichever order they take the tasks, and report what is
expected, though perhaps in another order. -/
structure Settles (batch : Batch α) (expected : Traced (List α)) : Prop where
  /-- No task is taken twice, and one is pending until as many have been taken as there are. -/
  isComplete_iff : ∀ {order progress}, batch.Reaches order progress →
    order.Nodup ∧ order.length ≤ batch.tasks.length ∧
      (progress.IsComplete ↔ order.length = batch.tasks.length)
  /-- Workers can take the tasks in every order in which each has its turn. -/
  reaches : ∀ {order}, batch.Schedule order → batch.Reaches order (batch.run order)
  /-- In the end every slot holds the expected result. -/
  slots_eq : ∀ {order progress}, batch.Reaches order progress → progress.IsComplete →
    progress.slots = expected.value.map some
  /-- The results are read off in the expected order. -/
  value_eq : ∀ {order progress}, batch.Reaches order progress → progress.IsComplete →
    progress.collect.value = expected.value
  /-- All that is expected is reported, and nothing else. -/
  events_perm : ∀ {order progress}, batch.Reaches order progress → progress.IsComplete →
    progress.collect.events.Perm expected.events
  /-- If the tasks are taken as they are listed, everything is reported in the expected order, too. -/
  inTurn_eq : (batch.run batch.inTurn).collect = expected

/-- In whichever order the tasks of a batch are taken, the results are those of the tasks as they are
listed. -/
theorem settles_all (batch : Batch α) : batch.Settles (.all batch.tasks) where
  isComplete_iff {order progress} h := by
    obtain ⟨hnodup, hbound, rfl⟩ := reaches_iff.1 h
    have hle : order.length ≤ batch.tasks.length := by
      simpa using (subperm_range hnodup hbound).length_le
    rw [isComplete_after_iff hnodup hbound, schedule_iff_length_eq hnodup hbound]
    exact ⟨hnodup, hle, .rfl⟩
  reaches h := h.reaches.eq_run ▸ h.reaches
  slots_eq h hdone := by
    obtain ⟨hschedule, rfl⟩ := h.schedule_and_eq hdone
    rw [hschedule.slots_after, Traced.all, List.map_map]
    rfl
  value_eq h hdone := by
    obtain ⟨hschedule, rfl⟩ := h.schedule_and_eq hdone
    exact hschedule.value_after
  events_perm h hdone := by
    obtain ⟨hschedule, rfl⟩ := h.schedule_and_eq hdone
    exact hschedule.taken_perm.flatMap_right Traced.events
  inTurn_eq := by
    have hschedule : batch.Schedule batch.inTurn := .refl _
    -- The tasks have been taken as they are listed, and so have they reported.
    have hevents : (batch.after batch.inTurn).events = batch.tasks.flatMap Traced.events := by
      rw [after, taken_inTurn]
    rw [← hschedule.reaches.eq_run]
    exact congrArg₂ Traced.mk hschedule.value_after hevents

end Batch

/-- Tasks made of the items of a list have the values and the events that are made of these. -/
theorem Traced.all_map {α ξ : Type} (f : ξ → Traced α) (items : List ξ) :
    Traced.all (items.map f) =
      ⟨items.map fun item => (f item).value, items.flatMap fun item => (f item).events⟩ := by
  rw [all, List.map_map, List.flatMap_map]
  rfl

namespace Query

/-- The function is called for each node with its index and the whole context. -/
theorem getElem?_map {α : Type} (query : Query) (f : Node → Nat → List Node → α) (index : Nat) :
    (query.map f)[index]? = query.nodes[index]?.map fun node => f node index query.nodes := by
  rw [map, List.getElem?_mapIdx]

/-- The batch calls the function for the same nodes, with the same indices, and in the same order as one
call after the other does. -/
theorem tasks_mapAll {α : Type} (query : Query) (f : Node → Nat → List Node → Traced α) :
    (query.mapAll f).tasks = query.map f := by
  apply List.ext_getElem?
  intro index
  rw [getElem?_map, mapAll, List.getElem?_map, List.getElem?_zipIdx, Option.map_map, Nat.zero_add]
  rfl

/-- Calling a function that reports nothing reports nothing, and results in its values. -/
theorem tracedMap_pure {α : Type} (query : Query) (f : Node → Nat → List Node → α) :
    query.tracedMap (fun node index nodes => pure (f node index nodes)) = ⟨query.map f, []⟩ := by
  have hvalues : (query.map fun node index nodes =>
      (pure (f node index nodes) : Traced α)).map Traced.value = query.map f := by
    apply List.ext_getElem?
    intro index
    rw [List.getElem?_map, getElem?_map, getElem?_map, Option.map_map]
    rfl
  have hevents : (query.map fun node index nodes =>
      (pure (f node index nodes) : Traced α)).flatMap Traced.events = [] := by
    rw [List.flatMap_eq_nil_iff]
    intro task htask
    obtain ⟨index, hlt, rfl⟩ := List.mem_mapIdx.1 htask
    rfl
  rw [tracedMap, Traced.all, hvalues, hevents]

/-- Calls of a function in any order come to its values and reports node by node. -/
theorem settles_mapAll {α : Type} (query : Query) (f : Node → Nat → List Node → Traced α) :
    (query.mapAll f).Settles (query.tracedMap f) := by
  rw [tracedMap, ← tasks_mapAll]
  exact Batch.settles_all _

/-- In whichever order workers take the tasks, searching for several selectors results in what is found for
one after the other, asking for matches in one answer after the other, and calling a function for the nodes
in what it gives for each of them with its index and the whole context. Every result has its own slot, and
the reports are those of the tasks in turn, perhaps in another order. A function that reports nothing
leaves its values alone. -/
theorem batches_settle (query : Query) (selectors : List Selector) :
    (query.findAll selectors).Settles
        ⟨selectors.map query.find,
          selectors.flatMap fun selector => (query.tracedFind selector).events⟩ ∧
      (query.hasAll selectors).Settles
        ⟨selectors.map query.has,
          selectors.flatMap fun selector => (query.tracedHas selector).events⟩ ∧
      (∀ {α : Type} (f : Node → Nat → List Node → Traced α),
        (query.mapAll f).Settles (query.tracedMap f) ∧
          ∀ {order : List Nat} {progress : Batch.Progress α},
            (query.mapAll f).Reaches order progress → progress.IsComplete → ∀ index : Nat,
              progress.slots[index]? =
                query.nodes[index]?.map fun node => some (f node index query.nodes).value) ∧
      ∀ {α : Type} (f : Node → Nat → List Node → α),
        (query.mapAll fun node index nodes => pure (f node index nodes)).Settles
            ⟨query.map f, []⟩ ∧
          ∀ index : Nat,
            (query.map f)[index]? = query.nodes[index]?.map fun node => f node index query.nodes := by
  have hfind : Traced.all (query.findAll selectors).tasks =
      ⟨selectors.map query.find,
        selectors.flatMap fun selector => (query.tracedFind selector).events⟩ :=
    Traced.all_map query.tracedFind selectors
  have hhas : Traced.all (query.hasAll selectors).tasks =
      ⟨selectors.map query.has,
        selectors.flatMap fun selector => (query.tracedHas selector).events⟩ :=
    Traced.all_map query.tracedHas selectors
  refine ⟨hfind ▸ Batch.settles_all _, hhas ▸ Batch.settles_all _,
    fun f => ⟨query.settles_mapAll f, fun h hdone index => ?_⟩,
    fun f => ⟨query.tracedMap_pure f ▸ query.settles_mapAll _, query.getElem?_map f⟩⟩
  rw [(query.settles_mapAll f).slots_eq h hdone, tracedMap, Traced.all, List.map_map,
    List.getElem?_map, getElem?_map, Option.map_map]
  rfl

end Query

end MarkupQuery
