import MarkupQuery.Proofs.Query.Levels
import MarkupQuery.Proofs.Query.Text
import MarkupQuery.Query.Log

/-!
# Contexts put together from pieces

A context may be put together from others, and asked about piece by piece. What is found, the children and
the text follow one another as the pieces do. Whether there is a match is not told piece by piece, for a
descent goes down all trees at once and stops where the first of them has one; but the depth that it
reports is the least of those that it reports for the pieces.

Each context is put together from its single nodes. The pieces are reached by their indices, any other
index leads to nothing, and the first and the last piece are the two ends of the context.

## Main definitions

- `Query.pieces`: the queries over the single nodes of a context.

## Main results

- `Query.find_concat`, `Query.children_concat`, `Query.text_concat`: what is asked piece by piece.
- `Query.depth?_append`: the least depth of a match is the lesser one of those in two contexts.
- `Query.concat_pieces`, `Query.first_eq`, `Query.last_eq`: a context and its pieces.
- `Query.answers_concat`: all of it, with indices out of range and repeated contexts.
-/

namespace MarkupQuery.Query

/-- Queries over the same nodes are equal. -/
@[ext]
theorem ext {a b : Query} (h : a.nodes = b.nodes) : a = b := by
  cases a; cases b; cases h; rfl

/-! ### Piece by piece -/

/-- The context of queries put together begins with that of the first one. -/
theorem nodes_concat_cons (query : Query) (rest : List Query) :
    (concat (query :: rest)).nodes = query.nodes ++ (concat rest).nodes :=
  List.flatMap_cons

/-- Two contexts put together are the nodes of the first and then those of the second. -/
theorem nodes_concat_pair (first second : Query) :
    (concat [first, second]).nodes = first.nodes ++ second.nodes := by
  rw [nodes_concat_cons, nodes_concat_cons]
  exact congrArg _ (List.append_nil _)

/-- In queries put together, there is found what is found in one after the other. -/
theorem find_concat (queries : List Query) (selector : Selector) :
    (concat queries).find selector = concat (queries.map fun query => query.find selector) := by
  apply ext
  induction queries with
  | nil => rfl
  | cons query rest ih =>
    rw [List.map_cons, nodes_concat_cons, ← ih]
    simp only [find_nodes, nodes_concat_cons, Node.preorderAll_append, List.filter_append]

/-- The children in queries put together are those in one after the other. -/
theorem children_concat (queries : List Query) :
    (concat queries).children = concat (queries.map children) := by
  apply ext
  show (queries.flatMap nodes).flatMap Node.children = (queries.map children).flatMap nodes
  rw [List.flatMap_assoc, List.flatMap_map]
  rfl

/-- The text of queries put together is made of the texts of one after the other. -/
theorem text_concat (queries : List Query) :
    (concat queries).text = String.join (queries.map text) := by
  induction queries with
  | nil => rfl
  | cons query rest ih =>
    rw [List.map_cons, String.join_cons, ← ih]
    exact text_append query.nodes (concat rest).nodes

/-! ### The lesser depth -/

/-- A depth is found below a bound, or none is, exactly if no level down to the bound has a match. -/
theorem forall_mem_depth?_lt_iff {query : Query} {selector : Selector} {bound : Nat} :
    (∀ depth ∈ query.depth? selector, bound < depth) ↔
      ∀ above ≤ bound, ∀ node ∈ (query.level above).nodes, ¬ selector.selects node := by
  cases hdepth : query.depth? selector with
  | none => exact iff_of_true nofun fun above _ => depth?_eq_none_iff.1 hdepth above
  | some depth =>
    obtain ⟨⟨node, hmem, hselects⟩, hfirst⟩ := depth?_eq_some_iff.1 hdepth
    constructor
    · intro hlt above habove
      exact hfirst above (Nat.lt_of_le_of_lt habove (hlt depth rfl))
    · rintro hnone _ ⟨⟩
      refine Nat.lt_of_not_le fun hle => ?_
      exact hnone depth hle node hmem hselects

/-- Two depths, of which either may be absent, are equal if they lie below the same bounds. -/
theorem eq_of_forall_mem_lt_iff {a b : Option Nat}
    (h : ∀ bound, (∀ depth ∈ a, bound < depth) ↔ ∀ depth ∈ b, bound < depth) : a = b := by
  cases a with
  | none =>
    cases b with
    | none => rfl
    | some j => exact absurd ((h j).1 nofun j rfl) (Nat.lt_irrefl j)
  | some i =>
    cases b with
    | none => exact absurd ((h i).2 nofun i rfl) (Nat.lt_irrefl i)
    | some j =>
      have hi := h i
      have hj := h j
      simp only [Option.mem_some, forall_eq'] at hi hj
      congr 1
      omega

/-- The lesser one of two depths lies below a bound exactly if both of them do. An absent depth lies below
every bound. -/
theorem forall_mem_merge_min_lt_iff {a b : Option Nat} {bound : Nat} :
    (∀ depth ∈ a.merge min b, bound < depth) ↔
      (∀ depth ∈ a, bound < depth) ∧ ∀ depth ∈ b, bound < depth := by
  cases a with
  | none => simp
  | some i =>
    cases b with
    | none => simp
    | some j =>
      simp only [Option.merge, Option.mem_some, forall_eq']
      exact Nat.lt_min

/-- The least depth of a match in two contexts, one after the other, is the lesser one of the least depths
in each of them. If there is no match in one of them, it is that in the other. -/
theorem depth?_append (as bs : List Node) (selector : Selector) :
    (Query.mk (as ++ bs)).depth? selector =
      ((Query.mk as).depth? selector).merge min ((Query.mk bs).depth? selector) := by
  refine eq_of_forall_mem_lt_iff fun bound => ?_
  rw [forall_mem_merge_min_lt_iff]
  -- The levels of both contexts are looked at together, and neither may have a match too early.
  simp only [forall_mem_depth?_lt_iff, nodes_level, Node.level_append, List.forall_mem_append,
    forall_and]

/-- There is a match in two contexts, one after the other, if there is one in either. -/
theorem has_append (as bs : List Node) (selector : Selector) :
    (Query.mk (as ++ bs)).has selector =
      ((Query.mk as).has selector || (Query.mk bs).has selector) := by
  simp only [has, depth?_append]
  cases (Query.mk as).depth? selector <;> cases (Query.mk bs).depth? selector <;> rfl

/-! ### Single nodes -/

/-- The queries over the single nodes of a context, by their indices. -/
def pieces (query : Query) : List Query :=
  (List.range query.size).map fun index : Nat => query.pick index

/-- An index that is not negative leads to the node in that place. -/
theorem get?_natCast (query : Query) (index : Nat) : query.get? index = query.nodes[index]? := by
  rw [get?, if_neg (Int.not_lt.2 (Int.natCast_nonneg index)), Int.toNat_natCast]

/-- The pieces of a context are its nodes. -/
theorem pieces_eq_map (query : Query) : query.pieces = query.nodes.map ofNode := by
  refine List.ext_getElem? fun index => ?_
  rw [pieces, List.getElem?_map, List.getElem?_map]
  by_cases hlt : index < query.size
  · rw [List.getElem?_range hlt, Option.map_some, pick, get?_natCast, List.getElem?_eq_getElem hlt]
    rfl
  · have hle : query.nodes.length ≤ index := Nat.le_of_not_lt hlt
    rw [List.getElem?_eq_none hle, List.getElem?_eq_none (by rwa [List.length_range])]
    rfl

/-- A context is put together from its pieces. -/
theorem concat_pieces (query : Query) : concat query.pieces = query := by
  apply ext
  rw [pieces_eq_map]
  show (query.nodes.map ofNode).flatMap nodes = query.nodes
  rw [List.flatMap_map]
  exact List.flatMap_singleton' query.nodes

/-- The first piece, or nothing if there is no piece. -/
theorem first_eq (query : Query) : query.first = query.pieces.head?.getD empty := by
  rw [pieces_eq_map, List.head?_map, List.head?_eq_getElem?]
  have hget : query.get? 0 = query.nodes[0]? := query.get?_natCast 0
  rw [first, pick, hget]
  cases query.nodes[0]? <;> rfl

/-- The last piece, or nothing if there is no piece. Then its index would be negative. -/
theorem last_eq (query : Query) : query.last = query.pieces.getLast?.getD empty := by
  rw [pieces_eq_map, List.getLast?_map, List.getLast?_eq_getElem?]
  have hget : query.get? (query.size - 1) = query.nodes[query.nodes.length - 1]? := by
    obtain ⟨nodes⟩ := query
    cases nodes with
    | nil => rfl
    | cons node rest =>
      have hindex : ((Query.mk (node :: rest)).size - 1 : Int) = (rest.length : Nat) := by
        simp [size]
      rw [hindex, get?_natCast]
      rfl
  rw [last, pick, hget]
  cases query.nodes[query.nodes.length - 1]? <;> rfl

/-- Exactly the indices out of range lead to nothing. -/
theorem pick_eq_empty_iff {query : Query} {index : Int} :
    query.pick index = empty ↔ index < 0 ∨ query.size ≤ index := by
  have hnone : query.pick index = empty ↔ query.get? index = none := by
    rw [pick]
    cases query.get? index <;> simp [ofOption, empty]
  rw [hnone, get?]
  split
  · next hneg => exact iff_of_true rfl (.inl hneg)
  · next hneg =>
    rw [List.getElem?_eq_none_iff, or_iff_right hneg, size]
    omega

/-! ### All of it -/

/-- In two contexts, one after the other, there are found the nodes that are found in the first and then
those found in the second, and so for the children and the text. They have a match if either of them has
one, and the depth reported is the lesser one of those reported for each, where one that is absent does not
count. So every context is asked about by asking about its nodes in turn. The first and the last of these
are the ends of the context, and exactly the indices out of range lead to nothing. A context that is
repeated repeats what is found and the text. -/
theorem answers_concat :
    (∀ (first second : Query) (selector : Selector),
      (concat [first, second]).nodes = first.nodes ++ second.nodes ∧
      (concat [first, second]).find selector =
        concat [first.find selector, second.find selector] ∧
      (concat [first, second]).children = concat [first.children, second.children] ∧
      (concat [first, second]).text = first.text ++ second.text ∧
      (concat [first, second]).tracedHas selector =
        ⟨first.has selector || second.has selector,
          [.has selector.name ((first.depth? selector).merge min (second.depth? selector))]⟩ ∧
      (first.tracedHas selector).events = [.has selector.name (first.depth? selector)]) ∧
    (∀ (query : Query) (selector : Selector),
      concat (query.pieces.map fun piece => piece.find selector) = query.find selector ∧
      concat (query.pieces.map children) = query.children ∧
      String.join (query.pieces.map text) = query.text ∧
      query.first = query.pieces.head?.getD empty ∧
      query.last = query.pieces.getLast?.getD empty) ∧
    (∀ (query : Query) (index : Int),
      query.pick index = empty ↔ index < 0 ∨ query.size ≤ index) ∧
    ∀ (query : Query) (selector : Selector) (times : Nat),
      (concat (.replicate times query)).find selector =
        concat (.replicate times (query.find selector)) ∧
      (concat (.replicate times query)).text = String.join (.replicate times query.text) := by
  refine ⟨fun first second selector => ?_, fun query selector => ?_, fun _ _ => pick_eq_empty_iff,
    fun query selector times => ⟨?_, ?_⟩⟩
  · have hpair : concat [first, second] = ⟨first.nodes ++ second.nodes⟩ :=
      ext (nodes_concat_pair first second)
    refine ⟨nodes_concat_pair first second, find_concat _ selector, children_concat _, ?_, ?_, rfl⟩
    · rw [hpair]
      exact text_append first.nodes second.nodes
    · rw [hpair, tracedHas, has_append, depth?_append]
  · rw [← find_concat, ← children_concat, ← text_concat, concat_pieces]
    exact ⟨rfl, rfl, rfl, query.first_eq, query.last_eq⟩
  · rw [find_concat, List.map_replicate]
  · rw [text_concat, List.map_replicate]

end MarkupQuery.Query
