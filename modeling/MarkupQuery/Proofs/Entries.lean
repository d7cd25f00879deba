import MarkupQuery.Entries

/-!
# Look-ups determine entries

Entries with ascending keys are determined by what their look-ups answer. Every statement about
writing entries in turn is therefore one about look-ups: the last write of a key is found, and a key
that occurs once is found wherever it stands.

## Main definitions

- `Entries.Once`: a key occurs at most once.

## Main results

- `Entries.ext_lookup`: entries with ascending keys and the same look-ups are equal.
- `Entries.lookup_ofList`: the last of the entries with a key is the one found.
- `Entries.ofList_eq_of_perm`, `Entries.ofList_map`: writing ascending entries gives these entries back,
  in whichever order they are written, and writing commutes with changing the values.
-/

namespace MarkupQuery.Entries

variable {α β : Type}

/-- The key occurs at most once among the entries. -/
def Once (entries : Entries α) (key : String) : Prop :=
  (entries.map Prod.fst).count key ≤ 1

instance (entries : Entries α) (key : String) : Decidable (entries.Once key) :=
  inferInstanceAs (Decidable (_ ≤ 1))

/-! ### Look-ups and membership -/

/-- What a look-up finds is an entry. -/
theorem mem_of_lookup {entries : Entries α} {key : String} {value : α}
    (h : entries.lookup key = some value) : (key, value) ∈ entries := by
  obtain ⟨before, after, rfl, -⟩ := List.lookup_eq_some_iff.1 h
  exact List.mem_append_right _ List.mem_cons_self

/-- A key is not found exactly when no entry has it. -/
theorem lookup_eq_none_iff_count {entries : Entries α} {key : String} :
    entries.lookup key = none ↔ (entries.map Prod.fst).count key = 0 := by
  rw [List.lookup_eq_none_iff, List.count_eq_zero, List.mem_map]
  constructor
  · rintro h ⟨entry, hmem, rfl⟩
    simpa using h entry hmem
  · intro h entry hmem
    exact bne_iff_ne.2 fun heq => h ⟨entry, hmem, heq.symm⟩

/-- The first key occurs once exactly when it is not found behind the first entry. -/
theorem once_cons_self {entries : Entries α} {key : String} {value : α} :
    Once ((key, value) :: entries) key ↔ entries.lookup key = none := by
  rw [Once, List.map_cons, List.count_cons_self, lookup_eq_none_iff_count]
  omega

/-- The first entry does not matter to how often another key occurs. -/
theorem once_cons_of_ne {entries : Entries α} {entry : String × α} {key : String}
    (hne : entry.1 ≠ key) : Once (entry :: entries) key ↔ entries.Once key := by
  rw [Once, List.map_cons, List.count_cons_of_ne hne, Once]

/-- A key that is not found occurs at most once. -/
theorem once_of_lookup_eq_none {entries : Entries α} {key : String}
    (h : entries.lookup key = none) : entries.Once key := by
  rw [Once, lookup_eq_none_iff_count.1 h]
  exact Nat.zero_le 1

/-- A key occurs no more often when the first entry is left out. -/
theorem Once.tail {entries : Entries α} {entry : String × α} {key : String}
    (h : Once (entry :: entries) key) : entries.Once key :=
  Nat.le_trans (List.count_le_count_cons ..) h

/-- An entry whose key occurs once is found. -/
theorem lookup_of_mem {entries : Entries α} {key : String} {value : α}
    (honce : entries.Once key) (hmem : (key, value) ∈ entries) :
    entries.lookup key = some value := by
  induction entries with
  | nil => exact absurd hmem List.not_mem_nil
  | cons entry rest ih =>
    rcases List.mem_cons.1 hmem with rfl | hrest
    · exact List.lookup_cons_self
    · have hfound := ih honce.tail hrest
      obtain ⟨k, v⟩ := entry
      by_cases hkey : key = k
      · -- The key would occur a second time behind the first entry.
        subst hkey
        rw [once_cons_self.1 honce] at hfound
        cases hfound
      · rw [List.lookup_cons, beq_false_of_ne hkey]
        exact hfound

/-- A key that occurs once is found from the back as well as from the front. -/
theorem lookup_reverse {entries : Entries α} {key : String} (honce : entries.Once key) :
    entries.reverse.lookup key = entries.lookup key := by
  induction entries with
  | nil => rfl
  | cons entry rest ih =>
    obtain ⟨k, v⟩ := entry
    rw [List.reverse_cons, List.lookup_append, ih honce.tail]
    by_cases hkey : key = k
    · -- The rest does not have the key, so the first entry is found last.
      subst hkey
      rw [once_cons_self.1 honce]
      simp
    · simp [List.lookup_cons, beq_false_of_ne hkey]

/-- A look-up after changing the values finds the changed value. -/
theorem lookup_map (f : α → β) (entries : Entries α) (key : String) :
    (entries.map (fun entry => (entry.1, f entry.2))).lookup key = (entries.lookup key).map f := by
  induction entries with
  | nil => rfl
  | cons entry rest ih =>
    rw [List.map_cons, List.lookup_cons, List.lookup_cons, ih]
    split <;> rfl

/-! ### Ascending keys -/

/-- Ascending keys occur once. -/
theorem Ascending.once {entries : Entries α} (h : entries.Ascending) (key : String) :
    entries.Once key := by
  have hkeys : (entries.map Prod.fst).Nodup := by
    rw [List.Nodup, List.pairwise_map]
    refine h.imp fun {a b} hlt heq => ?_
    rw [heq] at hlt
    exact String.lt_irrefl _ hlt
  exact List.nodup_iff_count.1 hkeys key

/-- Changing the values leaves the keys ascending. -/
theorem Ascending.map {entries : Entries α} (h : entries.Ascending) (f : α → β) :
    Ascending (entries.map (fun entry => (entry.1, f entry.2))) := by
  rw [Ascending, List.pairwise_map]
  exact h

/-- A key below the first one is not found. -/
theorem Ascending.lookup_eq_none {entries : Entries α} {first : String × α} {key : String}
    (h : Ascending (first :: entries)) (hlt : key < first.1) :
    List.lookup key (first :: entries) = none := by
  refine List.lookup_eq_none_iff.2 fun entry hmem => bne_iff_ne.2 fun heq => ?_
  subst heq
  rcases List.mem_cons.1 hmem with rfl | hrest
  · exact String.lt_irrefl _ hlt
  · exact String.lt_irrefl _ (String.lt_trans hlt ((List.pairwise_cons.1 h).1 entry hrest))

/-- Entries with ascending keys that answer every look-up alike are equal. -/
theorem ext_lookup {as bs : Entries α} (ha : as.Ascending) (hb : bs.Ascending)
    (h : ∀ key, as.lookup key = bs.lookup key) : as = bs := by
  induction as generalizing bs with
  | nil =>
    cases bs with
    | nil => rfl
    | cons b bs =>
      have hfound := h b.1
      rw [List.lookup_cons_self] at hfound
      cases hfound
  | cons a as ih =>
    cases bs with
    | nil => simpa [List.lookup_cons] using h a.1
    | cons b bs =>
      -- The lesser of the two first keys would be found on one side alone.
      have hkey : a.1 = b.1 := by
        have htotal : a.1 < b.1 ∨ a.1 = b.1 ∨ b.1 < a.1 := Std.Trichotomous.rel_or_eq_or_rel_swap
        rcases htotal with hlt | heq | hgt
        · have hfound := h a.1
          rw [hb.lookup_eq_none hlt, List.lookup_cons_self] at hfound
          cases hfound
        · exact heq
        · have hfound := h b.1
          rw [ha.lookup_eq_none hgt, List.lookup_cons_self] at hfound
          cases hfound
      have hvalue : a.2 = b.2 := by
        have hfound := h a.1
        rw [List.lookup_cons_self, hkey, List.lookup_cons_self] at hfound
        exact Option.some.inj hfound
      have hhead : a = b := Prod.ext hkey hvalue
      subst hhead
      refine congrArg _ (ih (List.pairwise_cons.1 ha).2 (List.pairwise_cons.1 hb).2 fun key => ?_)
      -- The rests answer alike: neither has the first key, and other keys are looked up in them.
      by_cases hfirst : key = a.1
      · subst hfirst
        rw [once_cons_self.1 (ha.once a.1), once_cons_self.1 (hb.once a.1)]
      · have hrest := h key
        rwa [List.lookup_cons, List.lookup_cons, beq_false_of_ne hfirst] at hrest

/-! ### Writing entries in turn -/

/-- After writing entries in turn, the last of those with a key is found. -/
theorem lookup_ofList (entries : Entries α) (key : String) :
    (ofList entries).lookup key = entries.reverse.lookup key := by
  -- Behind what is written now, the entries that were written before are still found.
  suffices h : ∀ written : Entries α,
      (entries.foldl (fun written entry => written.insert entry.1 entry.2) written).lookup key =
        (entries.reverse.lookup key).or (written.lookup key) by
    rw [ofList, h, List.lookup_nil, Option.or_none]
  induction entries with
  | nil => exact fun written => rfl
  | cons entry rest ih =>
    intro written
    obtain ⟨k, v⟩ := entry
    rw [List.foldl_cons, ih, List.reverse_cons, List.lookup_append, Option.or_assoc]
    -- Only the entry that was just written is in question, since the rest comes before it.
    by_cases hkey : key = k
    · subst hkey
      simp
    · rw [lookup_insert_of_ne _ _ hkey]
      simp [List.lookup_cons, beq_false_of_ne hkey]

/-- A key that occurs once has the same value after writing the entries in turn. -/
theorem lookup_ofList_of_once {entries : Entries α} {key : String} (honce : entries.Once key) :
    (ofList entries).lookup key = entries.lookup key := by
  rw [lookup_ofList, lookup_reverse honce]

/-- Entries with ascending keys are what is left after writing them in turn. -/
theorem ofList_eq_self {entries : Entries α} (h : entries.Ascending) : ofList entries = entries :=
  ext_lookup (ascending_ofList _) h fun key => lookup_ofList_of_once (h.once key)

/-- A key that occurs once has the same value in whichever order the entries stand. -/
theorem lookup_perm {entries entries' : Entries α} {key : String} (h : entries.Perm entries')
    (honce : entries'.Once key) : entries.lookup key = entries'.lookup key := by
  have hkeys := (h.map Prod.fst).count_eq key
  cases hfound : entries.lookup key with
  | none =>
    rw [lookup_eq_none_iff_count, hkeys, ← lookup_eq_none_iff_count] at hfound
    exact hfound.symm
  | some value => exact (lookup_of_mem honce (h.mem_iff.1 (mem_of_lookup hfound))).symm

/-- Entries with ascending keys are what is left after writing them in turn, in any order. -/
theorem ofList_eq_of_perm {entries ascending : Entries α} (hascending : ascending.Ascending)
    (h : entries.Perm ascending) : ofList entries = ascending := by
  refine ext_lookup (ascending_ofList _) hascending fun key => ?_
  have honce : entries.Once key := by
    rw [Once, (h.map Prod.fst).count_eq]
    exact hascending.once key
  rw [lookup_ofList_of_once honce, lookup_perm h (hascending.once key)]

/-- Changing the values before or after writing the entries makes no difference. -/
theorem ofList_map (f : α → β) (entries : Entries α) :
    ofList (entries.map (fun entry => (entry.1, f entry.2))) =
      (ofList entries).map (fun entry => (entry.1, f entry.2)) := by
  refine ext_lookup (ascending_ofList _) ((ascending_ofList _).map f) fun key => ?_
  rw [lookup_ofList, ← List.map_reverse, lookup_map, lookup_map, lookup_ofList]

/-- If no key occurs twice, no entry is lost by writing the entries in turn. -/
theorem mem_ofList {entries : Entries α} {entry : String × α} (honce : entries.Once entry.1)
    (hmem : entry ∈ entries) : entry ∈ ofList entries := by
  apply mem_of_lookup
  rw [lookup_ofList_of_once honce]
  exact lookup_of_mem honce hmem

end MarkupQuery.Entries
