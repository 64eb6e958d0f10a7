/-!
# Finite tables with text keys

A record gives values to field names, an object gives values to its keys,
and the store gives documents to rule names. All three are finite tables
whose keys are texts, and all three are shown in ascending order of keys.
`Table` keeps its entries in that order, each key once, so two tables that
answer every question alike are equal (`Table.ext_get?`).
-/

namespace Rulebook

variable {α : Type}

/-- An entry put in its place among entries in ascending order of keys; it
takes the place of one with the same key. -/
def insertEntry (key : String) (value : α) : List (String × α) → List (String × α)
  | [] => [(key, value)]
  | (k, v) :: entries =>
    if key = k then (key, value) :: entries
    else if key < k then (key, value) :: (k, v) :: entries
    else (k, v) :: insertEntry key value entries

theorem mem_insertEntry {key : String} {value : α} {entries : List (String × α)}
    {e : String × α} (h : e ∈ insertEntry key value entries) :
    e = (key, value) ∨ e ∈ entries := by
  induction entries with
  | nil => simpa [insertEntry] using h
  | cons first entries ih =>
    simp only [insertEntry] at h
    grind

/-- Putting an entry in its place keeps the order. -/
theorem pairwise_insertEntry (key : String) (value : α) {entries : List (String × α)}
    (h : entries.Pairwise (fun a b => a.1 < b.1)) :
    (insertEntry key value entries).Pairwise (fun a b => a.1 < b.1) := by
  induction entries with
  | nil => simp [insertEntry]
  | cons first entries ih =>
    obtain ⟨k, v⟩ := first
    rw [List.pairwise_cons] at h
    simp only [insertEntry]
    split
    · rename_i heq
      subst heq
      exact List.pairwise_cons.2 ⟨h.1, h.2⟩
    · split
      · rename_i hlt
        refine List.pairwise_cons.2 ⟨fun b hb => ?_, List.pairwise_cons.2 h⟩
        rcases List.mem_cons.1 hb with rfl | hb
        · exact hlt
        · exact String.lt_trans hlt (h.1 b hb)
      · rename_i hne hnlt
        refine List.pairwise_cons.2 ⟨fun b hb => ?_, ih h.2⟩
        rcases mem_insertEntry hb with rfl | hb
        · show k < key
          grind
        · exact h.1 b hb

/-- The value under a key, among entries in any order. -/
def findEntry (key : String) : List (String × α) → Option α
  | [] => none
  | (k, v) :: entries => if k = key then some v else findEntry key entries

theorem findEntry_insertEntry (key other : String) (value : α) (entries : List (String × α)) :
    findEntry other (insertEntry key value entries)
      = if key = other then some value else findEntry other entries := by
  induction entries with
  | nil => simp [insertEntry, findEntry]
  | cons first entries ih =>
    simp only [insertEntry]
    split
    · rename_i h
      simp only [findEntry]
      grind
    · split
      · simp only [findEntry]
      · simp only [findEntry, ih]
        grind

/-- Below its first key a table has nothing. -/
theorem findEntry_eq_none {key : String} {entries : List (String × α)}
    (h : ∀ e ∈ entries, key < e.1) : findEntry key entries = none := by
  induction entries with
  | nil => rfl
  | cons first entries ih =>
    have hfirst := h first (List.mem_cons_self ..)
    have hne : first.1 ≠ key := fun heq => String.lt_irrefl key (heq ▸ hfirst)
    simp only [findEntry, if_neg hne]
    exact ih fun e he => h e (List.mem_cons_of_mem _ he)

/-- **A finite table**: entries in ascending order of keys. -/
structure Table (α : Type) where
  /-- The entries. -/
  entries : List (String × α)
  /-- Each key is below all that follow. -/
  ascending : entries.Pairwise (fun a b => a.1 < b.1)

namespace Table

/-- The table without entries. -/
def empty : Table α := ⟨[], List.Pairwise.nil⟩

/-- The value under a key. -/
def get? (t : Table α) (key : String) : Option α := findEntry key t.entries

/-- The table that has a value under a key, and everything else as before. -/
def insert (t : Table α) (key : String) (value : α) : Table α :=
  ⟨insertEntry key value t.entries, pairwise_insertEntry key value t.ascending⟩

/-- The table without a key. -/
def erase (t : Table α) (key : String) : Table α :=
  ⟨t.entries.filter (fun e => e.1 ≠ key), t.ascending.filter _⟩

/-- The number of entries. -/
def size (t : Table α) : Nat := t.entries.length

/-- Whether there are no entries. -/
def isEmpty (t : Table α) : Bool := t.entries.isEmpty

@[simp]
theorem get?_empty (key : String) : (empty : Table α).get? key = none := rfl

@[simp]
theorem get?_insert (t : Table α) (key other : String) (value : α) :
    (t.insert key value).get? other = if key = other then some value else t.get? other :=
  findEntry_insertEntry key other value t.entries

@[simp]
theorem get?_erase (t : Table α) (key other : String) :
    (t.erase key).get? other = if key = other then none else t.get? other := by
  simp only [get?, erase]
  induction t.entries with
  | nil => simp [findEntry]
  | cons first entries ih =>
    simp only [List.filter_cons, findEntry]
    split
    · rename_i h
      simp only [findEntry, ih]
      grind
    · rename_i h
      grind

/-- **A table is what it answers.** -/
theorem ext_get? {s t : Table α} (h : ∀ key, s.get? key = t.get? key) : s = t := by
  obtain ⟨xs, hx⟩ := s
  obtain ⟨ys, hy⟩ := t
  simp only [mk.injEq]
  simp only [get?] at h
  induction xs generalizing ys with
  | nil =>
    cases ys with
    | nil => rfl
    | cons y ys => have := h y.1; simp [findEntry] at this
  | cons x xs ih =>
    obtain ⟨k, v⟩ := x
    cases ys with
    | nil => have := h k; simp [findEntry] at this
    | cons y ys =>
      obtain ⟨k', v'⟩ := y
      rw [List.pairwise_cons] at hx hy
      have hk : k = k' := by
        apply Classical.byContradiction
        intro hne
        rcases Classical.em (k < k') with hlt | hnlt
        · have hnone : findEntry k ((k', v') :: ys) = none := by
            refine findEntry_eq_none fun e he => ?_
            rcases List.mem_cons.1 he with rfl | he
            · exact hlt
            · exact String.lt_trans hlt (hy.1 e he)
          have := h k
          rw [hnone] at this
          simp [findEntry] at this
        · have hgt : k' < k := by grind
          have hnone : findEntry k' ((k, v) :: xs) = none := by
            refine findEntry_eq_none fun e he => ?_
            rcases List.mem_cons.1 he with rfl | he
            · exact hgt
            · exact String.lt_trans hgt (hx.1 e he)
          have := h k'
          rw [hnone] at this
          simp [findEntry] at this
      subst hk
      have hv := h k
      simp only [findEntry, if_pos, Option.some.injEq] at hv
      subst hv
      congr 1
      refine ih hx.2 ys hy.2 fun key => ?_
      have hkey := h key
      simp only [findEntry] at hkey
      split at hkey
      · rename_i heq
        subst heq
        rw [findEntry_eq_none hx.1, findEntry_eq_none hy.1]
      · exact hkey

/-- The table of a row of entries; of equal keys the last one counts. -/
def ofList (entries : List (String × α)) : Table α :=
  entries.foldl (fun t e => t.insert e.1 e.2) empty

/-- Every value replaced by its image. -/
def map {β : Type} (f : α → β) (t : Table α) : Table β :=
  ⟨t.entries.map (fun e => (e.1, f e.2)), by
    rw [List.pairwise_map]
    exact t.ascending⟩

end Table

end Rulebook
