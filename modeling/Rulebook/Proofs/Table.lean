import Rulebook.Table

/-!
# What a table holds

A table is asked by look-up and it is gone through by its entries. The two tell the
same (`Table.get?_eq_some_iff`). From this the number of entries is known after an
entry was put in or taken out (`Table.size_insert`, `Table.size_erase_add_one`), and a
table whose values are replaced by their images is put in and taken out of just like
the table itself (`Table.map_insert`, `Table.map_erase`).
-/

namespace Rulebook

variable {α β : Type} {key : String} {entries : List (String × α)}

/-- What is found among entries in ascending order is what is there. -/
theorem findEntry_eq_some_iff (h : entries.Pairwise (fun a b => a.1 < b.1)) {value : α} :
    findEntry key entries = some value ↔ (key, value) ∈ entries := by
  induction entries with
  | nil => simp [findEntry]
  | cons first entries ih =>
    obtain ⟨k, v⟩ := first
    rw [List.pairwise_cons] at h
    rw [findEntry, List.mem_cons, Prod.mk.injEq]
    by_cases heq : k = key
    · -- a key that stands first does not come again
      subst heq
      have hnot : (k, value) ∉ entries := fun hmem => String.lt_irrefl k (h.1 _ hmem)
      rw [if_pos rfl, Option.some.injEq]
      simp only [true_and, hnot, or_false]
      exact eq_comm
    · rw [if_neg heq, ih h.2]
      simp only [Ne.symm heq, false_and, false_or]

/-- One more entry, unless it takes the place of another. -/
theorem length_insertEntry (key : String) (value : α)
    (h : entries.Pairwise (fun a b => a.1 < b.1)) :
    (insertEntry key value entries).length
      = if (findEntry key entries).isSome then entries.length else entries.length + 1 := by
  induction entries with
  | nil => rfl
  | cons first entries ih =>
    obtain ⟨k, v⟩ := first
    rw [List.pairwise_cons] at h
    unfold insertEntry findEntry
    by_cases heq : key = k
    · rw [if_pos heq, if_pos heq.symm]
      rfl
    · rw [if_neg heq, if_neg (Ne.symm heq)]
      by_cases hlt : key < k
      · have hnone : findEntry key entries = none :=
          findEntry_eq_none fun e he => String.lt_trans hlt (h.1 e he)
        rw [if_pos hlt, hnone]
        rfl
      · rw [if_neg hlt, List.length_cons, ih h.2, List.length_cons]
        split <;> rfl

/-- One entry less, if its key was there. -/
theorem length_filter_ne (h : entries.Pairwise (fun a b => a.1 < b.1)) {value : α}
    (hmem : (key, value) ∈ entries) :
    (entries.filter (fun e => e.1 ≠ key)).length + 1 = entries.length := by
  induction entries with
  | nil => cases hmem
  | cons first entries ih =>
    rw [List.pairwise_cons] at h
    rcases List.mem_cons.mp hmem with rfl | hmem
    · have hothers : entries.filter (fun e => e.1 ≠ key) = entries := by
        refine List.filter_eq_self.mpr fun e he => decide_eq_true ?_
        exact fun heq => String.lt_irrefl key (heq ▸ h.1 e he)
      rw [List.filter_cons_of_neg (by simp), hothers, List.length_cons]
    · have hlt : first.1 < key := h.1 (key, value) hmem
      have hkept : (first :: entries).filter (fun e => e.1 ≠ key)
          = first :: entries.filter (fun e => e.1 ≠ key) :=
        List.filter_cons_of_pos (decide_eq_true fun heq => String.lt_irrefl key (heq ▸ hlt))
      rw [hkept, List.length_cons, ih h.2 hmem, List.length_cons]

namespace Table

/-- **What a table answers is what it holds.** -/
theorem get?_eq_some_iff {t : Table α} {key : String} {value : α} :
    t.get? key = some value ↔ (key, value) ∈ t.entries :=
  findEntry_eq_some_iff t.ascending

/-- The keys are those that have a value. -/
theorem mem_keys_iff {t : Table α} {key : String} :
    key ∈ t.entries.map Prod.fst ↔ (t.get? key).isSome := by
  rw [List.mem_map, Option.isSome_iff_exists]
  constructor
  · rintro ⟨e, he, rfl⟩
    exact ⟨e.2, get?_eq_some_iff.mpr he⟩
  · rintro ⟨value, hvalue⟩
    exact ⟨(key, value), get?_eq_some_iff.mp hvalue, rfl⟩

/-- The keys ascend. -/
theorem pairwise_keys (t : Table α) : (t.entries.map Prod.fst).Pairwise (· < ·) :=
  List.pairwise_map.mpr t.ascending

/-- No key comes twice. -/
theorem nodup_keys (t : Table α) : (t.entries.map Prod.fst).Nodup := by
  refine t.pairwise_keys.imp fun {a b} hlt heq => ?_
  exact String.lt_irrefl b (heq ▸ hlt)

/-! ## The number of entries -/

theorem size_insert (t : Table α) (key : String) (value : α) :
    (t.insert key value).size = if (t.get? key).isSome then t.size else t.size + 1 :=
  length_insertEntry key value t.ascending

theorem size_erase_add_one {t : Table α} {key : String} (h : (t.get? key).isSome) :
    (t.erase key).size + 1 = t.size := by
  obtain ⟨value, hvalue⟩ := Option.isSome_iff_exists.mp h
  exact length_filter_ne t.ascending (get?_eq_some_iff.mp hvalue)

/-! ## Images -/

@[simp]
theorem size_map (f : α → β) (t : Table α) : (t.map f).size = t.size :=
  List.length_map _

@[simp]
theorem get?_map (f : α → β) (t : Table α) (key : String) :
    (t.map f).get? key = (t.get? key).map f := by
  unfold get? map
  dsimp only
  induction t.entries with
  | nil => rfl
  | cons first entries ih =>
    rw [List.map_cons, findEntry, findEntry, ih]
    split <;> rfl

theorem map_insert (f : α → β) (t : Table α) (key : String) (value : α) :
    (t.insert key value).map f = (t.map f).insert key (f value) := by
  refine ext_get? fun other => ?_
  rw [get?_map, get?_insert, get?_insert, get?_map]
  split <;> rfl

theorem map_erase (f : α → β) (t : Table α) (key : String) :
    (t.erase key).map f = (t.map f).erase key := by
  refine ext_get? fun other => ?_
  rw [get?_map, get?_erase, get?_erase, get?_map]
  split <;> rfl

end Table

end Rulebook
