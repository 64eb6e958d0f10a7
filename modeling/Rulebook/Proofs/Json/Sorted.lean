import Rulebook.Json.Basic

/-!
# Sorted documents

Sorting a document puts the members of every object in ascending order and
keeps the last one of each key. A look-up cannot tell: it finds in the sorted
document what it finds in the document, in its sorted form (`get?_sorted`).
Since the sorted members stand in order, each key once, looking from the end
and looking from the start are the same there.
-/

namespace Rulebook

namespace Json

/-- Among members in ascending order the last of a key is the first of it. -/
theorem lookupLast_eq_findEntry {key : String} {members : List (String × Json)}
    (h : members.Pairwise (fun a b => a.1 < b.1)) :
    lookupLast key members = findEntry key members := by
  induction members with
  | nil => rfl
  | cons first members ih =>
    rw [List.pairwise_cons] at h
    rw [lookupLast, findEntry, ih h.2]
    by_cases hkey : first.1 = key
    · have hnone : findEntry key members = none :=
        findEntry_eq_none (fun e he => hkey ▸ h.1 e he)
      rw [if_pos hkey, if_pos hkey, hnone]
    · rw [if_neg hkey, if_neg hkey]
      cases findEntry key members <;> rfl

/-- Sorted members stand in ascending order. -/
theorem pairwise_sortedMembers (members : List (String × Json)) {placed : List (String × Json)}
    (h : placed.Pairwise (fun a b => a.1 < b.1)) :
    (sortedMembers placed members).Pairwise (fun a b => a.1 < b.1) := by
  induction members generalizing placed with
  | nil => rwa [sortedMembers]
  | cons first members ih =>
    rw [sortedMembers]
    exact ih (pairwise_insertEntry _ _ h)

/-- Among sorted members a key has the sorted form of what it had last, or what
was placed before. -/
theorem findEntry_sortedMembers (key : String) (members placed : List (String × Json)) :
    findEntry key (sortedMembers placed members)
      = ((lookupLast key members).map sorted).or (findEntry key placed) := by
  -- a later member of the key takes the place of an earlier one
  induction members generalizing placed with
  | nil =>
    rw [sortedMembers, lookupLast]
    rfl
  | cons first members ih =>
    rw [sortedMembers, ih, findEntry_insertEntry, lookupLast]
    cases lookupLast key members with
    | some v => rfl
    | none =>
      by_cases hkey : first.1 = key
      · rw [if_pos hkey, if_pos hkey]
        rfl
      · rw [if_neg hkey, if_neg hkey]

/-- **A look-up finds in a sorted document what it finds in the document.** -/
theorem get?_sorted (key : String) (doc : Json) :
    doc.sorted.get? key = (doc.get? key).map sorted := by
  cases doc with
  | object members =>
    rw [sorted]
    show lookupLast key (sortedMembers [] members) = (lookupLast key members).map sorted
    rw [lookupLast_eq_findEntry (pairwise_sortedMembers members List.Pairwise.nil),
      findEntry_sortedMembers]
    cases lookupLast key members <;> rfl
  | _ => rw [sorted]; rfl

/-- A text is sorted already, and nothing else becomes one. -/
@[simp] theorem asText?_sorted (doc : Json) : doc.sorted.asText? = doc.asText? := by
  cases doc <;> rw [sorted] <;> rfl

theorem sorted_eq_null_iff {doc : Json} : doc.sorted = .null ↔ doc = .null := by
  cases doc <;> simp [sorted]

end Json

end Rulebook
