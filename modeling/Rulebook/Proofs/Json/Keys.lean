import Rulebook.Proofs.Json.Sorted

/-!
# Keys of documents

An object of a text can repeat a key, and then the reader of a formula refuses it while a
look-up takes the last. Documents in which no object repeats a key
(`Json.hasDistinctKeys`) are those on which the two can agree. Sorting a document makes
it one of them (`Json.hasDistinctKeys_sorted`).
-/

namespace Rulebook

namespace Json

variable {key : String} {members : List (String × Json)}

mutual

/-- **That no object repeats a key**, at any depth. -/
def hasDistinctKeys : Json → Bool
  | .array items => itemsDistinct items
  | .object members => decide (members.map Prod.fst).Nodup && membersDistinct members
  | _ => true

/-- That no object among items repeats a key. -/
def itemsDistinct : List Json → Bool
  | [] => true
  | item :: items => item.hasDistinctKeys && itemsDistinct items

/-- That no object among the values of members repeats a key. -/
def membersDistinct : List (String × Json) → Bool
  | [] => true
  | (_, value) :: members => value.hasDistinctKeys && membersDistinct members

end

theorem nodup_keys_of_hasDistinctKeys (h : (object members).hasDistinctKeys) :
    (members.map Prod.fst).Nodup := by
  rw [hasDistinctKeys, Bool.and_eq_true, decide_eq_true_eq] at h
  exact h.1

/-- A key that is found is there. -/
theorem mem_keys_of_lookupLast {doc : Json} (h : lookupLast key members = some doc) :
    key ∈ members.map Prod.fst := by
  induction members with
  | nil => cases h
  | cons first members ih =>
    rw [lookupLast] at h
    rw [List.map_cons, List.mem_cons]
    cases hfound : lookupLast key members with
    | some found => exact .inr (ih (hfound ▸ h))
    | none =>
      rw [hfound] at h
      by_cases hkey : first.1 = key
      · exact .inl hkey.symm
      · simp [hkey] at h

theorem lookupLast_eq_none (h : key ∉ members.map Prod.fst) : lookupLast key members = none := by
  cases hfound : lookupLast key members with
  | none => rfl
  | some doc => exact (h (mem_keys_of_lookupLast hfound)).elim

/-- A look-up does not see members of other keys. -/
theorem lookupLast_filter (keeps : String → Bool) (hkey : keeps key = true)
    (members : List (String × Json)) :
    lookupLast key (members.filter fun m => keeps m.1) = lookupLast key members := by
  induction members with
  | nil => rfl
  | cons first members ih =>
    rw [List.filter_cons]
    by_cases hfirst : keeps first.1 = true
    · rw [if_pos hfirst, lookupLast, lookupLast, ih]
    · have hne : first.1 ≠ key := fun h => hfirst (h ▸ hkey)
      rw [if_neg hfirst, lookupLast, ih, if_neg hne]
      cases lookupLast key members <;> rfl

theorem hasDistinctKeys_of_mem {items : List Json} {item : Json} (h : itemsDistinct items)
    (hitem : item ∈ items) : item.hasDistinctKeys := by
  induction items with
  | nil => cases hitem
  | cons first items ih =>
    rw [itemsDistinct, Bool.and_eq_true] at h
    rcases List.mem_cons.mp hitem with rfl | hitem
    · exact h.1
    · exact ih h.2 hitem

theorem hasDistinctKeys_of_lookupLast {doc : Json} (h : membersDistinct members)
    (hfound : lookupLast key members = some doc) : doc.hasDistinctKeys := by
  induction members with
  | nil => cases hfound
  | cons first members ih =>
    rw [membersDistinct, Bool.and_eq_true] at h
    rw [lookupLast] at hfound
    cases hlater : lookupLast key members with
    | some found => exact ih h.2 (by rw [hlater] at hfound; exact hlater.trans hfound)
    | none =>
      rw [hlater] at hfound
      by_cases hkey : first.1 = key
      · rw [if_pos hkey] at hfound
        cases hfound
        exact h.1
      · rw [if_neg hkey] at hfound
        cases hfound

/-- What stands under a key repeats no key either. -/
theorem hasDistinctKeys_of_get? {doc value : Json} (h : doc.hasDistinctKeys)
    (hget : doc.get? key = some value) : value.hasDistinctKeys := by
  cases doc with
  | object members =>
    rw [hasDistinctKeys, Bool.and_eq_true] at h
    exact hasDistinctKeys_of_lookupLast h.2 hget
  | _ => cases hget

/-! ## Sorted documents -/

theorem membersDistinct_insertEntry {value : Json} (hvalue : value.hasDistinctKeys)
    (h : membersDistinct members) : membersDistinct (insertEntry key value members) := by
  induction members with
  | nil => rw [insertEntry, membersDistinct, hvalue]; rfl
  | cons first members ih =>
    rw [membersDistinct, Bool.and_eq_true] at h
    rw [insertEntry]
    split
    · rw [membersDistinct, hvalue, h.2]
      rfl
    · split
      · rw [membersDistinct, membersDistinct, hvalue, h.1, h.2]
        rfl
      · rw [membersDistinct, h.1, ih h.2]
        rfl

/-- Members in ascending order repeat no key. -/
theorem nodup_keys_sortedMembers (members : List (String × Json)) :
    ((sortedMembers [] members).map Prod.fst).Nodup := by
  refine List.pairwise_map.mpr ((pairwise_sortedMembers members List.Pairwise.nil).imp ?_)
  intro a b hlt heq
  exact String.lt_irrefl b.1 (heq ▸ hlt)

mutual

/-- **A sorted document repeats no key.** -/
theorem hasDistinctKeys_sorted : (doc : Json) → doc.sorted.hasDistinctKeys
  | .array items => by
    rw [sorted, hasDistinctKeys]
    exact itemsDistinct_sortedItems items
  | .object members => by
    rw [sorted, hasDistinctKeys, membersDistinct_sortedMembers members rfl, Bool.and_true,
      decide_eq_true_eq]
    exact nodup_keys_sortedMembers members
  | .null => rfl
  | .bool _ => rfl
  | .number _ => rfl
  | .string _ => rfl

theorem itemsDistinct_sortedItems : (items : List Json) → itemsDistinct (sortedItems items)
  | [] => rfl
  | item :: items => by
    rw [sortedItems, itemsDistinct, hasDistinctKeys_sorted item, itemsDistinct_sortedItems items]
    rfl

theorem membersDistinct_sortedMembers :
    (members : List (String × Json)) → {placed : List (String × Json)} →
      membersDistinct placed → membersDistinct (sortedMembers placed members)
  | [], placed, h => by rwa [sortedMembers]
  | (key, value) :: members, placed, h => by
    rw [sortedMembers]
    exact membersDistinct_sortedMembers members
      (membersDistinct_insertEntry (hasDistinctKeys_sorted value) h)

end

end Json

end Rulebook
