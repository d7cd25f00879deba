import MarkupQuery.Proofs.Interchange.Lists
import MarkupQuery.Proofs.Interchange.Messages
import MarkupQuery.Proofs.Interchange.Visits

/-!
# The first offence

A value from which no node is loaded may offend in many ways and at many places. What is told is the
offence of the first visit that has one, in the order in which the parts of the value are visited. So it
makes no difference what stands in a part that is visited later, or not at all: any other value may be put
there, and the same is told.

The members of an object are read as they stand, while the visits go through the fields. Both come to the
same for values, in which keys ascend.

## Main definitions

- `refusal?`: the offence for which nothing is made.
- `Node.RefusedInTurn`: JSON is refused for the first of the visits that has an offence.
- `Json.FirstOffence`: which visit has the first offence.
- `Json.Offends`: which offence a part has by itself, and in which words it is told.

## Main results

- `Node.refusedInTurn`: all values are refused in this way.
- `Json.FirstOffence.exists_at?`: the first offence is that of the part that is visited.
- `Json.FirstOffence.replace`: it stays the first when a part is replaced that is visited later.
- `Node.loadValue_tells_first_offence`: what is told when no node is loaded from a value.
-/

namespace MarkupQuery

/-! ### Refusals -/

/-- The first offence in visits that are made one after the other. -/
def Visit.firstOffence? (visits : List Visit) : Option Offence :=
  visits.findSome? fun visit => visit.check.offence?

namespace Visit

/-- The first visit is the first that may have an offence. -/
theorem firstOffence?_cons (visit : Visit) (visits : List Visit) :
    firstOffence? (visit :: visits) = visit.check.offence?.or (firstOffence? visits) := by
  rw [firstOffence?, List.findSome?_cons]
  cases visit.check.offence? <;> rfl

/-- The visits made first are the first that may have an offence. -/
theorem firstOffence?_append (visits others : List Visit) :
    firstOffence? (visits ++ others) = (firstOffence? visits).or (firstOffence? others) :=
  List.findSome?_append

/-- Visits offend alike when they are seen from around the part. -/
theorem firstOffence?_map_under (step : Json.Step) (visits : List Visit) :
    firstOffence? (visits.map (under step)) = firstOffence? visits := by
  rw [firstOffence?, List.findSome?_map]
  rfl

end Visit

/-- The offence for which nothing is made. -/
def refusal? {α : Type} : Except Offence α → Option Offence
  | .ok _ => none
  | .error offence => some offence

/-- Nothing is made exactly if there is an offence for it. -/
theorem refusal?_eq_some_iff {α : Type} {outcome : Except Offence α} {offence : Offence} :
    refusal? outcome = some offence ↔ outcome = .error offence := by
  cases outcome <;> simp [refusal?]

/-- The second of two steps is refused only if the first is not. -/
theorem refusal?_bind {α β : Type} {first : Except Offence α} {next : α → Except Offence β}
    {rest : Option Offence} (h : ∀ value, refusal? (next value) = rest) :
    refusal? (first >>= next) = (refusal? first).or rest := by
  cases first with
  | ok value => exact h value
  | error offence => rfl

/-- A step that cannot be refused does not matter. -/
theorem refusal?_bind_ok {α β : Type} (outcome : Except Offence α) (f : α → β) :
    refusal? (outcome >>= fun value => .ok (f value)) = refusal? outcome := by
  cases outcome <;> rfl

/-- Attributes are refused for the first content that is not a string. -/
theorem Attributes.refusal?_ofMembers (soFar : Attributes) (members : List (String × Json)) :
    refusal? (soFar.ofMembers members) = Visit.firstOffence?
      (members.map fun member => ⟨[.key member.1], .form member.2.found .string⟩) := by
  induction members generalizing soFar with
  | nil => rfl
  | cons member rest ih =>
    obtain ⟨name, content⟩ := member
    rw [List.map_cons, Visit.firstOffence?_cons]
    cases content with
    | string value => exact ih _
    | null | bool | number | array | object => rfl

namespace Json

/-- There are no visits for a field that is not given. -/
theorem visitsOfMember_eq_nil {field : Field} {members : List (String × Json)}
    (h : members.lookup field.key = none) : visitsOfMember field members = [] := by
  rw [visitsOfMember_eq, h]
  rfl

/-- A member with another key is not visited for a field. -/
theorem visitsOfMember_cons_of_ne {field : Field} {key : String} (hne : key ≠ field.key)
    (content : Json) (rest : List (String × Json)) :
    visitsOfMember field ((key, content) :: rest) = visitsOfMember field rest := by
  rw [visitsOfMember, if_neg hne]

/-- If the first of members with ascending keys gives a field, it is visited first. -/
theorem flatMap_visitsOfMember_cons {field : Field} {content : Json} {rest : List (String × Json)}
    (h : Entries.Ascending ((field.key, content) :: rest)) :
    Field.ascending.flatMap (visitsOfMember · ((field.key, content) :: rest)) =
      (visitsFor field content).map (.under (.key field.key)) ++
        Field.ascending.flatMap (visitsOfMember · rest) := by
  obtain ⟨before, after, hfields⟩ :=
    List.append_of_mem (Field.ascending_perm.mem_iff.2 field.mem_all)
  have hkeys : Field.ascending.Pairwise fun a b => a.key < b.key := by decide
  rw [hfields, List.pairwise_append, List.pairwise_cons] at hkeys
  obtain ⟨-, ⟨hafter, -⟩, hbefore⟩ := hkeys
  -- The fields with lesser keys are not given, and this one is not given again.
  have hnone : ∀ other ∈ before, visitsOfMember other ((field.key, content) :: rest) = [] ∧
      visitsOfMember other rest = [] := by
    intro other hmem
    have hlt := hbefore other hmem field List.mem_cons_self
    have hnil := visitsOfMember_eq_nil (h.lookup_eq_none hlt)
    refine ⟨hnil, ?_⟩
    rwa [visitsOfMember_cons_of_ne fun heq => String.lt_irrefl _ (heq ▸ hlt)] at hnil
  have hagain : visitsOfMember field rest = [] :=
    visitsOfMember_eq_nil (Entries.once_cons_self.1 (h.once field.key))
  have hothers : after.flatMap (visitsOfMember · ((field.key, content) :: rest)) =
      after.flatMap (visitsOfMember · rest) :=
    congrArg List.flatten (List.map_congr_left fun other hmem => visitsOfMember_cons_of_ne
      (fun heq => String.lt_irrefl _ (heq ▸ hafter other hmem)) content rest)
  rw [hfields, List.flatMap_append, List.flatMap_append, List.flatMap_cons, List.flatMap_cons,
    List.flatMap_eq_nil_iff.2 fun other hmem => (hnone other hmem).1,
    List.flatMap_eq_nil_iff.2 fun other hmem => (hnone other hmem).2, hagain,
    hothers, visitsOfMember, if_pos rfl]
  rfl

end Json

namespace Node

/-- JSON that is to describe a node, or to give a field, is refused for the first of the visits that has an
offence. -/
def RefusedInTurn (json : Json) : Prop :=
  refusal? (ofJson json) = Visit.firstOffence? json.visits ∧
    ∀ field, refusal? (contentOfJson field json) = Visit.firstOffence? (Json.visitsFor field json)

/-- Members are refused in the ascending order of the fields. -/
theorem refusal?_draftOfMembers {members : List (String × Json)} {draft : Draft}
    (hascending : Entries.Ascending members)
    (hnew : ∀ field, draft.has field → members.lookup field.key = none)
    (hmembers : ∀ member ∈ members, RefusedInTurn member.2) :
    refusal? (draftOfMembers draft members) =
      Visit.firstOffence? (Field.ascending.flatMap (Json.visitsOfMember · members)) := by
  induction members generalizing draft with
  | nil => rfl
  | cons member rest ih =>
    obtain ⟨key, content⟩ := member
    obtain ⟨hfirst, hrest⟩ := List.forall_mem_cons.1 hmembers
    have hascendingRest : Entries.Ascending rest := (List.pairwise_cons.1 hascending).2
    rw [draftOfMembers]
    split
    · next hkey =>
      -- The key is not that of a field, so the member is neither read nor visited.
      have hne : ∀ field : Field, key ≠ field.key := fun field heq => by
        rw [Field.ofKey?_eq_some_iff.2 heq] at hkey
        cases hkey
      simp only [Json.visitsOfMember_cons_of_ne (hne _)]
      refine ih hascendingRest (fun field hhas => ?_) hrest
      have hnone := hnew field hhas
      rwa [List.lookup_cons, beq_false_of_ne (hne field).symm] at hnone
    · next field hkey =>
      obtain rfl := Field.ofKey?_eq_some_iff.1 hkey
      split
      · next hhas =>
        -- A field that has been given does not occur again.
        have hfound := hnew field hhas
        rw [List.lookup_cons_self] at hfound
        cases hfound
      · next hhas =>
        rw [Json.flatMap_visitsOfMember_cons hascending, Visit.firstOffence?_append,
          Visit.firstOffence?_map_under, ← hfirst.2 field]
        refine refusal?_bind fun value => ih hascendingRest (fun other hother => ?_) hrest
        by_cases heq : other = field
        · subst heq
          exact Entries.once_cons_self.1 (hascending.once _)
        · rw [Draft.has, Draft.get?_set_of_ne _ _ heq] at hother
          have hnone := hnew other hother
          rwa [List.lookup_cons, beq_false_of_ne fun h => heq (Field.key_injective h)] at hnone

/-- Items that give fields in turn are refused one after the other, and at last the array if there are
more of them. -/
theorem refusal?_draftOfItems {items : List Json} {length : Nat} {fields : List Field} {draft : Draft}
    (hlength : items.length + Field.all.length = length + fields.length)
    (hitems : ∀ item ∈ items, RefusedInTurn item) (index : Nat) :
    refusal? (draftOfItems length fields draft items) = Visit.firstOffence?
      (Visit.inTurn index (Json.visitsOfItems fields items) ++ [⟨[], .length length⟩]) := by
  induction items generalizing fields draft index with
  | nil =>
    rw [List.length_nil, Nat.zero_add] at hlength
    have hle : length ≤ Field.all.length := by omega
    rw [Json.visitsOfItems, Visit.inTurn, List.nil_append, Visit.firstOffence?_cons, Check.offence?,
      if_pos hle]
    rfl
  | cons item rest ih =>
    obtain ⟨hfirst, hrest⟩ := List.forall_mem_cons.1 hitems
    rw [List.length_cons] at hlength
    cases fields with
    | nil =>
      rw [List.length_nil] at hlength
      have hlt : ¬length ≤ Field.all.length := by omega
      rw [Json.visitsOfItems, Visit.inTurn, List.nil_append, Visit.firstOffence?_cons, Check.offence?,
        if_neg hlt]
      rfl
    | cons field fields =>
      rw [List.length_cons] at hlength
      rw [draftOfItems, Json.visitsOfItems, Visit.inTurn, List.append_assoc, Visit.firstOffence?_append,
        Visit.firstOffence?_map_under, ← hfirst.2 field]
      exact refusal?_bind fun content => ih (by omega) hrest (index + 1)

/-- Items that are to describe nodes are refused one after the other. -/
theorem refusal?_ofJsonAll {items : List Json} (hitems : ∀ item ∈ items, RefusedInTurn item)
    (index : Nat) :
    refusal? (ofJsonAll items) = Visit.firstOffence? (Visit.inTurn index (Json.visitsOfAll items)) := by
  induction items generalizing index with
  | nil => rfl
  | cons item rest ih =>
    obtain ⟨hfirst, hrest⟩ := List.forall_mem_cons.1 hitems
    rw [ofJsonAll, Json.visitsOfAll, Visit.inTurn, Visit.firstOffence?_append,
      Visit.firstOffence?_map_under, ← hfirst.1, ← ih hrest]
    exact refusal?_bind fun node => refusal?_bind_ok _ (node :: ·)

/-- In a value, everything is refused for the first of the visits that has an offence. -/
theorem refusedInTurn (json : Json) (hnormal : json.IsNormal) : RefusedInTurn json := by
  induction json using Json.induct with
  | json json ih =>
    have hparts : ∀ part ∈ json.parts, RefusedInTurn part :=
      fun part hmem => ih part hmem (hnormal.part hmem)
    cases json with
    | null | bool | number | string =>
      exact ⟨rfl, fun field => by cases field <;> rfl⟩
    | array items =>
      constructor
      · rw [ofJson, refusal?_bind_ok, Json.visits, Visit.firstOffence?_cons]
        exact refusal?_draftOfItems rfl hparts 0
      · intro field
        cases field with
        | name | kind | value | attributes => rfl
        | children =>
          rw [Json.visitsFor, Visit.firstOffence?_cons]
          exact refusal?_ofJsonAll hparts 0
    | object members =>
      constructor
      · rw [ofJson, refusal?_bind_ok, Json.visits, Visit.firstOffence?_cons]
        exact refusal?_draftOfMembers hnormal.1 (fun field hhas => by cases field <;> cases hhas)
          fun member hmem => hparts member.2 (List.mem_map_of_mem hmem)
      · intro field
        cases field with
        | name | kind | value | children => rfl
        | attributes =>
          rw [contentOfJson_attributes_object, Json.visitsFor, Visit.firstOffence?_cons]
          exact Attributes.refusal?_ofMembers .empty members

-- In an object the attributes are visited before the name, in an array it is the other way round.
example : Visit.firstOffence? (Json.visits (.object [("attributes", .null), ("name", .null)])) =
    some (.invalidType .null .map) := rfl
example : Visit.firstOffence? (Json.visits (.array [.null, .string "", .string "", .null])) =
    some (.invalidType .null .string) := rfl

end Node

/-! ### The first offence -/

namespace Json

/-- One of the visits to JSON that is to describe a node is the first that has an offence. -/
structure FirstOffence (json : Json) (before : List Visit) (visit : Visit) (offence : Offence) :
    Prop where
  /-- It is made after those before it. -/
  visits : ∃ after, json.visits = before ++ visit :: after
  /-- None of those before it has an offence. -/
  before : ∀ earlier ∈ before, earlier.check.offence? = none
  /-- It has the offence. -/
  offence : visit.check.offence? = some offence

/-- A part of JSON has an offence by itself, whatever stands around it, and a text tells which one. -/
inductive Offends (part : Json) : Offence → String → Prop where
  /-- It is met where something else is wanted. Both are told. -/
  | form {found : Found} {wanted : Wanted} {foundText wantedText : String}
      (hfound : part.MetAs found foundText) (hwanted : (wanted, wantedText) ∈ Wanted.words)
      (hadmits : wanted.admits found = false) :
      Offends part (.invalidType found wanted)
        ("invalid type: " ++ foundText ++ ", expected " ++ wantedText)
  /-- It has more items than there are fields. Their number is told. -/
  | length {items : List Json} (hitems : part = .array items)
      (hlength : Field.all.length < items.length) :
      Offends part (.invalidLength items.length)
        ("invalid length " ++ toString items.length ++ ", expected fewer elements in array")

/-- There is a first offence exactly if there is one in the visits. -/
theorem firstOffence?_visits_eq_some_iff {json : Json} {offence : Offence} :
    Visit.firstOffence? json.visits = some offence ↔
      ∃ before visit, json.FirstOffence before visit offence := by
  rw [Visit.firstOffence?, List.findSome?_eq_some_iff]
  constructor
  · rintro ⟨before, visit, after, hvisits, hoffence, hbefore⟩
    exact ⟨before, visit, ⟨after, hvisits⟩, hbefore, hoffence⟩
  · rintro ⟨before, visit, ⟨after, hvisits⟩, hbefore, hoffence⟩
    exact ⟨before, visit, after, hvisits, hoffence, hbefore⟩

/-- If a check fails of what is told of a part, the part has the offence. -/
theorem offends_of_isOf {part : Json} {check : Check} {offence : Offence} (hcheck : check.IsOf part)
    (hoffence : check.offence? = some offence) : part.Offends offence offence.message := by
  cases check with
  | form found wanted =>
    obtain rfl : part.found = found := hcheck
    rw [Check.offence?] at hoffence
    split at hoffence
    · cases hoffence
    · next hwanted =>
      cases hoffence
      exact .form (metAs_iff.2 ⟨rfl, rfl⟩) (Wanted.mem_words_iff.2 rfl) (Bool.eq_false_iff.2 hwanted)
  | length count =>
    obtain ⟨items, hitems, rfl⟩ := hcheck
    rw [Check.offence?] at hoffence
    split at hoffence
    · cases hoffence
    · next hlength =>
      cases hoffence
      exact .length hitems (Nat.lt_of_not_le hlength)

namespace FirstOffence

variable {json : Json} {before : List Visit} {visit : Visit} {offence : Offence}

/-- The first offence is that of the part that is visited. -/
theorem exists_at? (h : json.FirstOffence before visit offence) (hnormal : json.IsNormal) :
    ∃ part, json.at? visit.path = some part ∧ part.Offends offence offence.message := by
  obtain ⟨after, hvisits⟩ := h.visits
  have hmem : visit ∈ json.visits := hvisits ▸ List.mem_append_right before List.mem_cons_self
  obtain ⟨part, hpart, hcheck⟩ := (isIn_of_mem_visits_and json hnormal).1 visit hmem
  exact ⟨part, hpart, offends_of_isOf hcheck h.offence⟩

/-- The first offence stays the first when a part is replaced that is visited later or not at all. -/
theorem replace (h : json.FirstOffence before visit offence) {path : List Step}
    (hlater : ∀ earlier ∈ before ++ [visit], earlier.path ≠ path) (part : Json) :
    (json.replace path part).FirstOffence before visit offence := by
  obtain ⟨after, hvisits⟩ := h.visits
  exact ⟨(alikeUntil_replace_and path part json).1.exists_eq hvisits hlater, h.before, h.offence⟩

end FirstOffence

end Json

namespace Node

/-- No node is loaded from a value exactly if there is a first offence, and it is this that is told. -/
theorem loadValue_eq_error_iff_exists_firstOffence {value : Json.Value} {error : LoadError} :
    (loadValue value).value = .error error ↔
      ∃ before visit offence, value.json.FirstOffence before visit offence ∧
        error = .ofOffence offence := by
  have hoffence : ∀ offence, ofJson value.json = .error offence ↔
      ∃ before visit, value.json.FirstOffence before visit offence := fun offence => by
    rw [← Json.firstOffence?_visits_eq_some_iff, ← (refusedInTurn value.json value.normal).1,
      refusal?_eq_some_iff]
  rw [loadValue_eq_error_iff]
  constructor
  · rintro ⟨offence, hvalue, rfl⟩
    obtain ⟨before, visit, hfirst⟩ := (hoffence offence).1 hvalue
    exact ⟨before, visit, offence, hfirst, rfl⟩
  · rintro ⟨before, visit, offence, hfirst, rfl⟩
    exact ⟨offence, (hoffence offence).2 ⟨before, visit, hfirst⟩, rfl⟩

/-- No node is loaded from a value exactly if one of its parts offends. What is told is the first offence in
the order of the visits: the part that is visited has it, and the text says what the part is met as and what
is wanted, or how many items there are. If any part that is visited later, or not at all, is replaced by any
other value, the same is told. -/
theorem loadValue_tells_first_offence :
    (∀ value error, (loadValue value).value = .error error ↔
      ∃ before visit offence, value.json.FirstOffence before visit offence ∧
        error = .ofOffence offence) ∧
      ∀ (value : Json.Value) before visit offence, value.json.FirstOffence before visit offence →
        (∃ part text, value.json.at? visit.path = some part ∧ part.Offends offence text ∧
          (LoadError.ofOffence offence).message = "Invalid AST JSON: " ++ text) ∧
          ∀ path part, (∀ earlier ∈ before ++ [visit], earlier.path ≠ path) →
            (value.replace path part).json.at? path = (value.json.at? path).map (fun _ => part.json) ∧
              (loadValue (value.replace path part)).value = .error (.ofOffence offence) := by
  refine ⟨fun value error => loadValue_eq_error_iff_exists_firstOffence,
    fun value before visit offence hfirst => ⟨?_, fun path part hlater =>
      ⟨Json.at?_replace value.json path part.json, ?_⟩⟩⟩
  · obtain ⟨part, hpart, hoffends⟩ := hfirst.exists_at? value.normal
    exact ⟨part, offence.message, hpart, hoffends, rfl⟩
  · exact loadValue_eq_error_iff_exists_firstOffence.2
      ⟨before, visit, offence, hfirst.replace hlater part.json, rfl⟩

/-- An object with two offences: there is no text in one of the attributes, and the children are no array. -/
def twiceOffending : Json.Value where
  json := .object [("attributes", .object [("a", .null)]), ("children", .bool true)]
  normal := ⟨by decide, ⟨by decide, trivial, trivial⟩, trivial, trivial⟩

/-- Of the two offences the one in the attributes is told, and it is told as well when the children are
replaced. -/
theorem loadValue_replace_twiceOffending :
    twiceOffending.json.FirstOffence
        [⟨[], .form .object .node⟩, ⟨[.key "attributes"], .form .object .map⟩]
        ⟨[.key "attributes", .key "a"], .form .null .string⟩ (.invalidType .null .string) ∧
      (loadValue (twiceOffending.replace [.key "children"] ⟨.array [], trivial⟩)).value =
        .error (.ofOffence (.invalidType .null .string)) := by
  have hfirst : twiceOffending.json.FirstOffence
      [⟨[], .form .object .node⟩, ⟨[.key "attributes"], .form .object .map⟩]
      ⟨[.key "attributes", .key "a"], .form .null .string⟩ (.invalidType .null .string) :=
    ⟨⟨[⟨[.key "children"], .form (.bool true) .sequence⟩], rfl⟩,
      by simp [Check.offence?, Wanted.admits], rfl⟩
  exact ⟨hfirst, ((loadValue_tells_first_offence.2 _ _ _ _ hfirst).2 _ _ (by decide)).2⟩

end Node

end MarkupQuery
