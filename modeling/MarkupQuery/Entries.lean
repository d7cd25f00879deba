/-!
# Entries with ascending keys

A finite map from strings to values is kept as the list of its entries, each key once, in
ascending order of code points. Two maps with the same look-ups are then the same list, and the
order in which entries were written leaves no trace.

## Main definitions

- `Entries`: entries, in the order in which they are listed.
- `Entries.Ascending`: the keys ascend strictly, so each occurs once.
- `Entries.insert`, `Entries.ofList`: writing one entry, or many in turn; the last write of a key
  wins.

## Main results

- `Entries.lookup_insert_self`, `Entries.lookup_insert_of_ne`: what a look-up sees of one write.
- `Entries.ascending_insert`, `Entries.ascending_ofList`: the order is kept.
-/

namespace MarkupQuery

/-- Keyed values in the order in which they are listed. -/
abbrev Entries (α : Type) := List (String × α)

namespace Entries

variable {α : Type}

/-- The keys ascend strictly in code-point order. -/
def Ascending (entries : Entries α) : Prop :=
  entries.Pairwise (fun a b => a.1 < b.1)

instance (entries : Entries α) : Decidable entries.Ascending :=
  inferInstanceAs (Decidable (List.Pairwise _ _))

/-- Write one entry at its place, in the stead of an entry that has the same key. -/
def insert (entries : Entries α) (key : String) (value : α) : Entries α :=
  match entries with
  | [] => [(key, value)]
  | (k, v) :: rest =>
    if key < k then (key, value) :: (k, v) :: rest
    else if key = k then (key, value) :: rest
    else (k, v) :: insert rest key value

/-- Write entries one after the other, starting from none. -/
def ofList (entries : Entries α) : Entries α :=
  entries.foldl (fun written entry => written.insert entry.1 entry.2) []

/-- A key that was just written has the value written. -/
@[simp]
theorem lookup_insert_self (entries : Entries α) (key : String) (value : α) :
    (entries.insert key value).lookup key = some value := by
  induction entries with
  | nil => simp [insert]
  | cons entry rest ih =>
    obtain ⟨k, v⟩ := entry
    rw [insert]
    split
    · simp
    · split
      · simp
      · next hne => simp [List.lookup_cons, beq_false_of_ne hne, ih]

/-- Writing one key leaves the other keys' values alone. -/
theorem lookup_insert_of_ne (entries : Entries α) {key other : String} (value : α)
    (hne : other ≠ key) :
    (entries.insert key value).lookup other = entries.lookup other := by
  have hbeq := beq_false_of_ne hne
  induction entries with
  | nil => simp [insert, List.lookup_cons, hbeq]
  | cons entry rest ih =>
    obtain ⟨k, v⟩ := entry
    rw [insert]
    split
    · simp [List.lookup_cons, hbeq]
    · split
      · next hkey => subst hkey; simp [List.lookup_cons, hbeq]
      · simp [List.lookup_cons, ih]

/-- An entry of the result is the one just written or was there before. -/
theorem mem_insert {entries : Entries α} {key : String} {value : α} {entry : String × α}
    (hmem : entry ∈ entries.insert key value) : entry = (key, value) ∨ entry ∈ entries := by
  induction entries with
  | nil => simpa [insert] using hmem
  | cons head rest ih =>
    obtain ⟨k, v⟩ := head
    rw [insert] at hmem
    -- The entry goes before the first one, in its stead, or somewhere behind it.
    split at hmem
    · simpa using hmem
    · split at hmem
      · rcases List.mem_cons.1 hmem with h | h
        · exact .inl h
        · exact .inr (List.mem_cons_of_mem _ h)
      · rcases List.mem_cons.1 hmem with h | h
        · exact .inr (h ▸ List.mem_cons_self)
        · exact (ih h).imp_right (List.mem_cons_of_mem _)

/-- Every entry that is left after writing entries in turn is one of them. -/
theorem mem_of_mem_ofList {entries : Entries α} {entry : String × α}
    (hmem : entry ∈ ofList entries) : entry ∈ entries := by
  -- The entries written before are kept apart, for the induction to reach the rest of the list.
  suffices h : ∀ (entries written : Entries α),
      entry ∈ entries.foldl (fun written entry => written.insert entry.1 entry.2) written →
        entry ∈ written ∨ entry ∈ entries from
    (h entries [] hmem).resolve_left List.not_mem_nil
  intro entries
  induction entries with
  | nil => exact fun written h => .inl h
  | cons first rest ih =>
    intro written h
    rcases ih _ h with h | h
    · rcases mem_insert h with heq | h
      · exact .inr (heq ▸ List.mem_cons_self)
      · exact .inl h
    · exact .inr (List.mem_cons_of_mem _ h)

/-- No entries are in order. -/
theorem ascending_nil : Ascending ([] : Entries α) :=
  List.Pairwise.nil

/-- Writing an entry keeps the keys ascending. -/
theorem ascending_insert {entries : Entries α} (h : entries.Ascending) (key : String)
    (value : α) : (entries.insert key value).Ascending := by
  induction entries with
  | nil => simp [insert, Ascending]
  | cons head rest ih =>
    obtain ⟨k, v⟩ := head
    have hhead : ∀ entry ∈ rest, k < entry.1 := (List.pairwise_cons.1 h).1
    have hrest : Ascending rest := (List.pairwise_cons.1 h).2
    rw [insert]
    split
    · next hlt =>
      -- All keys lie above the first one, which lies above the new one.
      refine List.pairwise_cons.2 ⟨fun entry hmem => ?_, h⟩
      rcases List.mem_cons.1 hmem with rfl | hmem
      · exact hlt
      · exact String.lt_trans hlt (hhead entry hmem)
    · next hnlt =>
      split
      · next heq => subst heq; exact List.pairwise_cons.2 ⟨hhead, hrest⟩
      · next hne =>
        refine List.pairwise_cons.2 ⟨fun entry hmem => ?_, ih hrest⟩
        rcases mem_insert hmem with rfl | hmem
        · exact Std.Trichotomous.rel_or_eq_or_rel_swap.resolve_right
            (fun h => h.elim (fun h => hne h.symm) hnlt)
        · exact hhead entry hmem

/-- Entries written one after the other have ascending keys. -/
theorem ascending_ofList (entries : Entries α) : (ofList entries).Ascending := by
  suffices h : ∀ written : Entries α, written.Ascending →
      (entries.foldl (fun written entry => written.insert entry.1 entry.2) written).Ascending from
    h [] ascending_nil
  induction entries with
  | nil => exact fun written h => h
  | cons entry rest ih =>
    exact fun written h => ih _ (ascending_insert h entry.1 entry.2)

end Entries

end MarkupQuery
