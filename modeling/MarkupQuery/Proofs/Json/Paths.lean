import MarkupQuery.Json.Fault
import MarkupQuery.Proofs.Json.Normalize

/-!
# Paths in JSON

A part of JSON is told from the others by the way that leads to it: which member or which item is taken at
each step. The part that a path leads to may be replaced, while everything beside the path stays as it is.

## Main definitions

- `Json.Step`: a step to a member or to an item.
- `Json.at?`: the part that a path leads to.
- `Json.replace`, `Json.Value.replace`: other JSON in the place of that part.

## Main results

- `Json.at?_replace`: what replaces a part is where the part was.
- `Json.IsNormal.replace`: replacing a part leaves the keys of every object ascending.
- `Json.found_replace_cons`: JSON is met as the same when a part of it is replaced.
-/

namespace MarkupQuery.Json

/-- A step into JSON. -/
inductive Step where
  /-- To the content of the member with a key. -/
  | key (key : String)
  /-- To the item with an index. -/
  | index (index : Nat)
deriving DecidableEq

/-- The part that a step leads to. A step that finds nothing leads to nothing. -/
def child? : Json → Step → Option Json
  | .object members, .key key => members.lookup key
  | .array items, .index index => items[index]?
  | _, _ => none

/-- The part that a path leads to. -/
def at? (json : Json) : (path : List Step) → Option Json
  | [] => some json
  | step :: path => (json.child? step).bind (·.at? path)

/-- The same JSON with the part changed that a step leads to. -/
def modifyChild (json : Json) (step : Step) (change : Json → Json) : Json :=
  match json, step with
  | .object members, .key key =>
    .object (members.map fun member =>
      (member.1, if member.1 = key then change member.2 else member.2))
  | .array items, .index index => .array (items.modify index change)
  | json, _ => json

/-- The same JSON with another part in the place that a path leads to. Nothing is changed if it leads to
nothing. -/
def replace (json : Json) (path : List Step) (part : Json) : Json :=
  match path with
  | [] => part
  | step :: path => json.modifyChild step fun child => child.replace path part

/-! ### What is found -/

/-- A step leads to the changed part. -/
theorem child?_modifyChild (json : Json) (step : Step) (change : Json → Json) :
    (json.modifyChild step change).child? step = (json.child? step).map change := by
  cases json with
  | null | bool | number | string => rfl
  | array items =>
    cases step with
    | key key => rfl
    | index index => simp [modifyChild, child?]
  | object members =>
    cases step with
    | index index => rfl
    | key key =>
      rw [modifyChild, child?, child?]
      induction members with
      | nil => rfl
      | cons member rest ih =>
        obtain ⟨other, content⟩ := member
        by_cases hkey : key = other
        · simp [hkey]
        · rw [List.map_cons, List.lookup_cons, List.lookup_cons, beq_false_of_ne hkey]
          exact ih

/-- What replaces a part is where the part was. -/
theorem at?_replace (json : Json) (path : List Step) (part : Json) :
    (json.replace path part).at? path = (json.at? path).map fun _ => part := by
  induction path generalizing json with
  | nil => rfl
  | cons step path ih =>
    rw [replace, at?, at?, child?_modifyChild, Option.bind_map, Option.map_bind]
    exact Option.bind_congr fun child _ => ih child

/-- JSON is met as the same when a part of it is changed. -/
@[simp]
theorem found_modifyChild (json : Json) (step : Step) (change : Json → Json) :
    (json.modifyChild step change).found = json.found := by
  cases json <;> cases step <;> rfl

/-- JSON is met as the same when a part of it is replaced. -/
theorem found_replace_cons (json : Json) (step : Step) (path : List Step) (part : Json) :
    (json.replace (step :: path) part).found = json.found :=
  found_modifyChild ..

/-! ### Values -/

/-- Changing a part into normal JSON leaves normal JSON normal. -/
theorem IsNormal.modifyChild {json : Json} (h : json.IsNormal) (step : Step) {change : Json → Json}
    (hchange : ∀ part ∈ json.parts, (change part).IsNormal) : (json.modifyChild step change).IsNormal := by
  cases json with
  | null | bool | number | string => trivial
  | array items =>
    cases step with
    | key key => exact h
    | index index =>
      refine itemsNormal_iff.2 fun item hmem => ?_
      obtain ⟨place, hplace⟩ := List.mem_iff_getElem?.1 hmem
      rw [List.getElem?_modify] at hplace
      obtain ⟨old, hold, rfl⟩ := Option.map_eq_some_iff.1 hplace
      have hpart : old ∈ items := List.mem_of_getElem? hold
      split
      · exact hchange old hpart
      · exact h.part hpart
  | object members =>
    cases step with
    | index index => exact h
    | key key =>
      -- The keys are the same as before.
      refine ⟨List.pairwise_map.2 h.1, membersNormal_iff.2 fun member hmem => ?_⟩
      obtain ⟨old, hold, rfl⟩ := List.mem_map.1 hmem
      have hpart : old.2 ∈ (object members).parts := List.mem_map_of_mem hold
      by_cases hkey : old.1 = key
      · simpa only [if_pos hkey] using hchange old.2 hpart
      · simpa only [if_neg hkey] using h.part hpart

/-- Replacing a part by normal JSON leaves normal JSON normal. -/
theorem IsNormal.replace {json part : Json} (h : json.IsNormal) (hpart : part.IsNormal)
    (path : List Step) : (json.replace path part).IsNormal := by
  induction path generalizing json with
  | nil => exact hpart
  | cons step path ih => exact h.modifyChild step fun child hmem => ih (h.part hmem)

/-- The same value with another value in the place of the part that a path leads to. -/
def Value.replace (value : Value) (path : List Step) (part : Value) : Value :=
  ⟨value.json.replace path part.json, value.normal.replace part.normal path⟩

end MarkupQuery.Json
