import MarkupQuery.Proofs.Interchange.FieldOrder
import MarkupQuery.Proofs.Json.Paths

/-!
# Visits

A value that is to describe a node is visited from above: first it is checked itself, then what stands in
it. Of an object the fields are visited in the ascending order of their keys. Of an array they are visited
as they stand, and there is one more check at last, whether the array goes on behind the fields. Of
attributes each content is visited, and of children each child.

Which visits there are is said of all JSON, whether a check fails or not.

## Main definitions

- `Check`: what is checked in a visit, and `Check.offence?`, the offence if it fails.
- `Visit`: a check of the part that a path leads to.
- `Json.visits`, `Json.visitsFor`: the visits to JSON that is to describe a node, or to give a field.
- `Visit.AlikeUntil`: runs of visits that are the same up to where a path is reached.

## Main results

- `Json.isIn_of_mem_visits_and`: each visit is to a part of the JSON, and what is checked is told of it.
- `Json.alikeUntil_replace_and`: the visits are the same up to the part that is replaced.
-/

namespace MarkupQuery

/-! ### Checks -/

/-- Whether something that is found is what is wanted. -/
def Wanted.admits : Wanted → Found → Bool
  | .string, .string _ | .map, .object | .sequence, .array | .node, .object | .node, .array => true
  | _, _ => false

/-- What is checked of a part of JSON. -/
inductive Check where
  /-- It has to be of the form that is wanted. -/
  | form (found : Found) (wanted : Wanted)
  /-- It must not have more items than there are fields. -/
  | length (count : Nat)

namespace Check

/-- The offence if the check fails. -/
def offence? : Check → Option Offence
  | .form found wanted => if wanted.admits found then none else some (.invalidType found wanted)
  | .length count => if count ≤ Field.all.length then none else some (.invalidLength count)

/-- What the check says that is found is so of a part. -/
def IsOf (part : Json) : Check → Prop
  | .form found _ => part.found = found
  | .length count => ∃ items, part = .array items ∧ items.length = count

end Check

/-- A check of the part that a path leads to. -/
structure Visit where
  /-- The path. -/
  path : List Json.Step
  /-- The check. -/
  check : Check

namespace Visit

/-- The same visit as part of one to what is around it. -/
def under (step : Json.Step) (visit : Visit) : Visit :=
  ⟨step :: visit.path, visit.check⟩

/-- The visits to items, given those to each of them, where the items stand from an index on. -/
def inTurn (index : Nat) : List (List Visit) → List Visit
  | [] => []
  | visits :: rest => visits.map (under (.index index)) ++ inTurn (index + 1) rest

end Visit

namespace Json

/-! ### Which visits there are -/

mutual

/-- The visits to JSON that is to describe a node. -/
def visits : Json → List Visit
  | .object members =>
    ⟨[], .form .object .node⟩ :: Field.ascending.flatMap fun field => visitsOfMember field members
  | .array items =>
    ⟨[], .form .array .node⟩ ::
      (Visit.inTurn 0 (visitsOfItems Field.all items) ++ [⟨[], .length items.length⟩])
  | json => [⟨[], .form json.found .node⟩]

/-- The visits to what members give for a field. -/
def visitsOfMember (field : Field) : List (String × Json) → List Visit
  | [] => []
  | (key, content) :: rest =>
    if key = field.key then (visitsFor field content).map (.under (.key key))
    else visitsOfMember field rest

/-- The visits to each of the items that give fields in turn. -/
def visitsOfItems (fields : List Field) : List Json → List (List Visit)
  | [] => []
  | item :: rest =>
    match fields with
    | [] => []
    | field :: fields => visitsFor field item :: visitsOfItems fields rest

/-- The visits to JSON that is given for a field. -/
def visitsFor : Field → Json → List Visit
  | .attributes, .object members =>
    ⟨[], .form .object .map⟩ ::
      members.map fun member => ⟨[.key member.1], .form member.2.found .string⟩
  | .children, .array items => ⟨[], .form .array .sequence⟩ :: Visit.inTurn 0 (visitsOfAll items)
  | .name, json | .kind, json | .value, json => [⟨[], .form json.found .string⟩]
  | .attributes, json => [⟨[], .form json.found .map⟩]
  | .children, json => [⟨[], .form json.found .sequence⟩]

/-- The visits to each of the items that are to describe nodes. -/
def visitsOfAll : List Json → List (List Visit)
  | [] => []
  | item :: rest => item.visits :: visitsOfAll rest

end

/-- First JSON is visited itself. -/
theorem exists_visits_eq_cons (json : Json) :
    ∃ rest, json.visits = ⟨[], .form json.found .node⟩ :: rest := by
  cases json with
  | null | bool | number | string => exact ⟨[], rfl⟩
  | array | object => exact ⟨_, rfl⟩

/-- First what is given for a field is visited itself. -/
theorem exists_visitsFor_eq_cons (field : Field) (json : Json) :
    ∃ rest, visitsFor field json = ⟨[], .form json.found field.wanted⟩ :: rest := by
  cases field <;> cases json <;> exact ⟨_, rfl⟩

/-- The visits to each of the items, made by one visitor after the other. -/
def visitsBy (visitors : List (Json → List Visit)) (items : List Json) : List (List Visit) :=
  List.zipWith (fun visitor item => visitor item) visitors items

/-- Items that give fields in turn are visited for one field after the other. -/
theorem visitsOfItems_eq (fields : List Field) (items : List Json) :
    visitsOfItems fields items = visitsBy (fields.map visitsFor) items := by
  induction items generalizing fields with
  | nil => cases fields <;> rfl
  | cons item rest ih =>
    cases fields with
    | nil => rfl
    | cons field fields => rw [visitsOfItems, ih]; rfl

/-- Items that are to describe nodes are visited for that one after the other. -/
theorem visitsOfAll_eq (items : List Json) :
    visitsOfAll items = visitsBy (List.replicate items.length visits) items := by
  induction items with
  | nil => rfl
  | cons item rest ih => rw [visitsOfAll, ih]; rfl

/-- What is given for a field is visited where its key leads. -/
theorem visitsOfMember_eq (field : Field) (members : List (String × Json)) :
    visitsOfMember field members =
      ((members.lookup field.key).elim [] fun content =>
        (visitsFor field content).map (.under (.key field.key))) := by
  induction members with
  | nil => rfl
  | cons member rest ih =>
    obtain ⟨key, content⟩ := member
    rw [visitsOfMember, List.lookup_cons]
    by_cases hkey : key = field.key
    · subst hkey
      simp
    · rw [if_neg hkey, beq_false_of_ne (Ne.symm hkey), ih]

end Json

/-! ### Where visits lead -/

namespace Visit

/-- The visit is to a part of the JSON, and what is checked is told of this part. -/
def IsIn (json : Json) (visit : Visit) : Prop :=
  ∃ part, json.at? visit.path = some part ∧ visit.check.IsOf part

/-- The first visit to JSON is to the JSON itself. -/
theorem isIn_head (json : Json) (wanted : Wanted) : IsIn json ⟨[], .form json.found wanted⟩ :=
  ⟨json, rfl, rfl⟩

/-- A visit to what a step leads to is one to what is around it. -/
theorem IsIn.under {json child : Json} {visit : Visit} (h : visit.IsIn child) {step : Json.Step}
    (hchild : json.child? step = some child) : (visit.under step).IsIn json := by
  obtain ⟨part, hpart, hcheck⟩ := h
  refine ⟨part, ?_, hcheck⟩
  rw [Visit.under, Json.at?, hchild, Option.bind_some, hpart]

/-- Visits to items are visits to one of them. -/
theorem exists_of_mem_inTurn {visit : Visit} {index : Nat} {lists : List (List Visit)}
    (h : visit ∈ inTurn index lists) :
    ∃ place visits, lists[place]? = some visits ∧
      ∃ inner ∈ visits, visit = under (.index (index + place)) inner := by
  induction lists generalizing index with
  | nil => cases h
  | cons visits rest ih =>
    rcases List.mem_append.1 h with h | h
    · obtain ⟨inner, hinner, rfl⟩ := List.mem_map.1 h
      exact ⟨0, visits, rfl, inner, hinner, rfl⟩
    · obtain ⟨place, others, hplace, inner, hinner, rfl⟩ := ih h
      refine ⟨place + 1, others, hplace, inner, hinner, ?_⟩
      rw [Nat.add_right_comm, Nat.add_assoc]

/-- Visits to items are in an array if those to each item are in the item. -/
theorem isIn_of_mem_inTurn {visitors : List (Json → List Visit)} {items : List Json}
    (hitems : ∀ visitor ∈ visitors, ∀ item ∈ items, ∀ visit ∈ visitor item, IsIn item visit)
    {visit : Visit} (h : visit ∈ inTurn 0 (Json.visitsBy visitors items)) :
    visit.IsIn (.array items) := by
  obtain ⟨place, visits, hplace, inner, hinner, rfl⟩ := exists_of_mem_inTurn h
  rw [Json.visitsBy, List.getElem?_zipWith_eq_some] at hplace
  obtain ⟨visitor, item, hvisitor, hitem, rfl⟩ := hplace
  refine (hitems visitor (List.mem_of_getElem? hvisitor) item (List.mem_of_getElem? hitem) inner
    hinner).under ?_
  rw [Nat.zero_add]
  exact hitem

end Visit

namespace Json

/-- Visits to what members give for a field are to the member that is found. -/
theorem isIn_of_mem_visitsOfMember {members : List (String × Json)}
    (hparts : ∀ member ∈ members, ∀ field, ∀ visit ∈ visitsFor field member.2, visit.IsIn member.2)
    {field : Field} {visit : Visit} (h : visit ∈ visitsOfMember field members) :
    visit.IsIn (.object members) := by
  rw [visitsOfMember_eq] at h
  cases hfound : members.lookup field.key with
  | none =>
    rw [hfound] at h
    cases h
  | some content =>
    rw [hfound] at h
    obtain ⟨inner, hinner, rfl⟩ := List.mem_map.1 h
    exact (hparts _ (Entries.mem_of_lookup hfound) field inner hinner).under hfound

/-- Each visit to JSON that is to describe a node, or to give a field, is to a part of it. -/
theorem isIn_of_mem_visits_and (json : Json) (hnormal : json.IsNormal) :
    (∀ visit ∈ json.visits, visit.IsIn json) ∧
      ∀ field, ∀ visit ∈ visitsFor field json, visit.IsIn json := by
  induction json using induct with
  | json json ih =>
    have hpart := fun part hmem => ih part hmem (hnormal.part hmem)
    cases json with
    | null | bool | number | string =>
      refine ⟨List.forall_mem_singleton.2 (Visit.isIn_head _ _), fun field => ?_⟩
      cases field <;> exact List.forall_mem_singleton.2 (Visit.isIn_head _ _)
    | array items =>
      constructor
      · -- Behind the items there is one more check of the array itself.
        refine List.forall_mem_cons.2 ⟨Visit.isIn_head _ _, List.forall_mem_append.2
          ⟨fun visit hvisit => ?_, List.forall_mem_singleton.2 ⟨_, rfl, items, rfl, rfl⟩⟩⟩
        rw [visitsOfItems_eq] at hvisit
        refine Visit.isIn_of_mem_inTurn (fun visitor hvisitor item hitem => ?_) hvisit
        obtain ⟨field, -, rfl⟩ := List.mem_map.1 hvisitor
        exact (hpart item hitem).2 field
      · intro field
        cases field with
        | name | kind | value | attributes =>
          exact List.forall_mem_singleton.2 (Visit.isIn_head _ _)
        | children =>
          refine List.forall_mem_cons.2 ⟨Visit.isIn_head _ _, fun visit hvisit => ?_⟩
          rw [visitsOfAll_eq] at hvisit
          refine Visit.isIn_of_mem_inTurn (fun visitor hvisitor item hitem => ?_) hvisit
          obtain rfl := List.eq_of_mem_replicate hvisitor
          exact (hpart item hitem).1
    | object members =>
      constructor
      · refine List.forall_mem_cons.2 ⟨Visit.isIn_head _ _, fun visit hvisit => ?_⟩
        obtain ⟨field, -, hvisit⟩ := List.mem_flatMap.1 hvisit
        exact isIn_of_mem_visitsOfMember
          (fun member hmem => (hpart member.2 (List.mem_map_of_mem hmem)).2) hvisit
      · intro field
        cases field with
        | name | kind | value | children =>
          exact List.forall_mem_singleton.2 (Visit.isIn_head _ _)
        | attributes =>
          refine List.forall_mem_cons.2 ⟨Visit.isIn_head _ _, fun visit hvisit => ?_⟩
          obtain ⟨member, hmem, rfl⟩ := List.mem_map.1 hvisit
          exact (Visit.isIn_head member.2 .string).under
            (Entries.lookup_of_mem (hnormal.1.once member.1) hmem)

end Json

/-! ### Replacing a part -/

namespace Visit

/-- The visits of one run are those of another up to the first one that a path leads to. From there on
anything may follow. -/
inductive AlikeUntil (path : List Json.Step) : List Visit → List Visit → Prop where
  /-- Both runs are at their end. -/
  | ends : AlikeUntil path [] []
  /-- The path has been reached. -/
  | reached {visit : Visit} {after visits' : List Visit} (hpath : visit.path = path) :
      AlikeUntil path (visit :: after) visits'
  /-- Both runs make the same visit and go on. -/
  | goesOn (visit : Visit) {visits visits' : List Visit} (h : AlikeUntil path visits visits') :
      AlikeUntil path (visit :: visits) (visit :: visits')

namespace AlikeUntil

variable {path : List Json.Step} {visits visits' others others' : List Visit}

/-- A run is like itself. -/
theorem refl (visits : List Visit) : AlikeUntil path visits visits := by
  induction visits with
  | nil => exact .ends
  | cons visit visits ih => exact .goesOn visit ih

/-- Runs that are alike part by part are alike. -/
theorem append (h : AlikeUntil path visits visits') (hothers : AlikeUntil path others others') :
    AlikeUntil path (visits ++ others) (visits' ++ others') := by
  induction h with
  | ends => exact hothers
  | reached hpath => exact .reached hpath
  | goesOn visit h ih => exact .goesOn visit ih

/-- Runs that are alike for each of some things are alike for all of them in turn. -/
theorem flatMap {α : Type} {f g : α → List Visit} {values : List α}
    (h : ∀ value ∈ values, AlikeUntil path (f value) (g value)) :
    AlikeUntil path (values.flatMap f) (values.flatMap g) := by
  induction values with
  | nil => exact .ends
  | cons value rest ih =>
    obtain ⟨hfirst, hrest⟩ := List.forall_mem_cons.1 h
    exact hfirst.append (ih hrest)

/-- Runs in a part are alike when they are seen from around it. -/
theorem under (step : Json.Step) (h : AlikeUntil path visits visits') :
    AlikeUntil (step :: path) (visits.map (.under step)) (visits'.map (.under step)) := by
  induction h with
  | ends => exact .ends
  | reached hpath => exact .reached (congrArg (step :: ·) hpath)
  | goesOn visit h ih => exact .goesOn (visit.under step) ih

/-- What comes before the path is reached is the same in both runs. -/
theorem exists_eq (h : AlikeUntil path visits visits') {before after : List Visit} {visit : Visit}
    (hvisits : visits = before ++ visit :: after)
    (hlater : ∀ earlier ∈ before ++ [visit], earlier.path ≠ path) :
    ∃ after', visits' = before ++ visit :: after' := by
  induction h generalizing before with
  | ends => cases before <;> cases hvisits
  | reached hpath =>
    -- The first visit is one of those that do not reach the path.
    cases before <;> cases hvisits <;> exact absurd hpath (hlater _ List.mem_cons_self)
  | @goesOn first visits visits' h ih =>
    cases before with
    | nil =>
      cases hvisits
      exact ⟨visits', rfl⟩
    | cons first before =>
      cases hvisits
      obtain ⟨after', rfl⟩ := ih rfl (List.forall_mem_cons.1 hlater).2
      exact ⟨after', rfl⟩

end AlikeUntil

end Visit

namespace Json

/-- What is given for a field is visited alike until the part is reached that is replaced in one of the
members. -/
theorem alikeUntil_visitsOfMember {field : Field} {path : List Step} {key : String}
    {change : Json → Json} {members : List (String × Json)}
    (hchange : ∀ content, Visit.AlikeUntil path (visitsFor field content)
      (visitsFor field (change content))) :
    Visit.AlikeUntil (.key key :: path) (visitsOfMember field members)
      (visitsOfMember field (members.map fun member =>
        (member.1, if member.1 = key then change member.2 else member.2))) := by
  induction members with
  | nil => exact .ends
  | cons member rest ih =>
    obtain ⟨other, content⟩ := member
    rw [List.map_cons, visitsOfMember, visitsOfMember]
    split
    · by_cases hkey : other = key
      · subst hkey
        rw [if_pos rfl]
        exact (hchange content).under _
      · rw [if_neg hkey]
        exact .refl _
    · exact ih

/-- Items are visited alike until the part is reached that is replaced in one of them. -/
theorem alikeUntil_inTurn {path : List Step} {change : Json → Json}
    {visitors : List (Json → List Visit)}
    (hchange : ∀ visitor ∈ visitors, ∀ item,
      Visit.AlikeUntil path (visitor item) (visitor (change item)))
    (items : List Json) (start index : Nat) :
    Visit.AlikeUntil (.index (start + index) :: path) (Visit.inTurn start (visitsBy visitors items))
      (Visit.inTurn start (visitsBy visitors (items.modify index change))) := by
  induction items generalizing visitors start index with
  | nil => rw [List.modify_nil]; exact .refl _
  | cons item rest ih =>
    cases visitors with
    | nil => exact .refl _
    | cons visitor visitors =>
      obtain ⟨hfirst, hrest⟩ := List.forall_mem_cons.1 hchange
      cases index with
      | zero => exact ((hfirst item).under _).append (.refl _)
      | succ index =>
        rw [← Nat.add_assoc, Nat.add_right_comm, List.modify_succ_cons]
        exact (Visit.AlikeUntil.refl _).append (ih hrest (start + 1) index)

/-- The contents of attributes are visited alike until the part is reached that is replaced in one of
them. -/
theorem alikeUntil_map_attributes {path : List Step} {key : String} {part : Json}
    (members : List (String × Json)) :
    Visit.AlikeUntil (.key key :: path)
      (members.map fun member => ⟨[.key member.1], .form member.2.found .string⟩)
      ((members.map fun member =>
        (member.1, if member.1 = key then member.2.replace path part else member.2)).map
          fun member => ⟨[.key member.1], .form member.2.found .string⟩) := by
  induction members with
  | nil => exact .ends
  | cons member rest ih =>
    simp only [List.map_cons]
    by_cases hkey : member.1 = key
    · cases path with
      | nil => exact .reached (by rw [hkey])
      | cons step path =>
        -- What is replaced lies deeper than anything that is visited here.
        rw [if_pos hkey, found_replace_cons]
        exact .goesOn _ ih
    · rw [if_neg hkey]
      exact .goesOn _ ih

/-- JSON that is to describe a node, or to give a field, is visited alike until the part is reached that is
replaced. -/
theorem alikeUntil_replace_and (path : List Step) (part json : Json) :
    Visit.AlikeUntil path json.visits (json.replace path part).visits ∧
      ∀ field, Visit.AlikeUntil path (visitsFor field json)
        (visitsFor field (json.replace path part)) := by
  induction path generalizing json with
  | nil =>
    constructor
    · obtain ⟨rest, hvisits⟩ := exists_visits_eq_cons json
      exact hvisits ▸ .reached rfl
    · intro field
      obtain ⟨rest, hvisits⟩ := exists_visitsFor_eq_cons field json
      exact hvisits ▸ .reached rfl
  | cons step path ih =>
    rw [replace]
    cases json with
    | null | bool | number | string => exact ⟨.refl _, fun field => .refl _⟩
    | array items =>
      cases step with
      | key key => exact ⟨.refl _, fun field => .refl _⟩
      | index index =>
        have hitems : ∀ {visitors : List (Json → List Visit)}, (∀ visitor ∈ visitors, ∀ item,
            Visit.AlikeUntil path (visitor item) (visitor (item.replace path part))) →
            Visit.AlikeUntil (.index index :: path) (Visit.inTurn 0 (visitsBy visitors items))
              (Visit.inTurn 0 (visitsBy visitors (items.modify index (·.replace path part)))) := by
          intro visitors hvisitors
          have h := alikeUntil_inTurn hvisitors items 0 index
          rwa [Nat.zero_add] at h
        constructor
        · rw [modifyChild, visits, visits, visitsOfItems_eq, visitsOfItems_eq, List.length_modify]
          refine .goesOn _ ((hitems fun visitor hvisitor item => ?_).append (.refl _))
          obtain ⟨field, -, rfl⟩ := List.mem_map.1 hvisitor
          exact (ih item).2 field
        · intro field
          cases field with
          | name | kind | value | attributes => exact .refl _
          | children =>
            rw [modifyChild, visitsFor, visitsFor, visitsOfAll_eq, visitsOfAll_eq, List.length_modify]
            refine .goesOn _ (hitems fun visitor hvisitor item => ?_)
            obtain rfl := List.eq_of_mem_replicate hvisitor
            exact (ih item).1
    | object members =>
      cases step with
      | index index => exact ⟨.refl _, fun field => .refl _⟩
      | key key =>
        constructor
        · refine .goesOn _ (.flatMap fun field _ => ?_)
          exact alikeUntil_visitsOfMember fun content => (ih content).2 field
        · intro field
          cases field with
          | name | kind | value | children => exact .refl _
          | attributes => exact .goesOn _ (alikeUntil_map_attributes members)

end Json
end MarkupQuery
