import Rulebook.Proofs.DocumentRoundTrip
import Rulebook.Proofs.Instant
import Rulebook.Store

/-!
# Rules come back from the store

A rule is kept as its sorted document, and what is found under its id is read
from that document. So what comes back is the rule with the normal form of its
formula (`Store.find_save`), provided that its time of creation is one that a
clock can show. A rule under one id is not touched by what happens to others.
-/

namespace Rulebook

namespace Rule

/-- **What the store keeps of a rule.** -/
def normal (rule : Rule) : Rule := { rule with formula := rule.formula.normal }

/-- The sorted document of a rule. -/
theorem sorted_toDocument (rule : Rule) :
    rule.toDocument.sorted = .object [("ast", rule.formula.toDocument.sorted),
      ("created_at", .string rule.createdAt.text), ("id", .string rule.id),
      ("rule_string", .string rule.text)] :=
  rfl

/-- **What is read from the document of a rule is the rule in its normal form.** -/
theorem ofDocument_sorted {rule : Rule} (h : rule.createdAt.isReal) (now : Instant) :
    ofDocument now rule.toDocument.sorted = .ok rule.normal := by
  have hformula : Formula.ofDocument rule.formula.toDocument.sorted = .ok rule.formula.normal :=
    Formula.ofNode_sorted_toDocument true rule.formula
  rw [sorted_toDocument]
  simp [ofDocument, ofMembers, hformula, readTime, Instant.read_text h, Json.readText,
    Parts.whole, normal, bind, Except.bind]

/-- A rule and its normal form have the same document. -/
theorem toDocument_normal (rule : Rule) : rule.normal.toDocument = rule.toDocument := by
  rw [toDocument, toDocument, normal, Formula.toDocument_normal]

end Rule

namespace Store

/-- **What is found of a rule that the store holds.** -/
theorem find_of_get? {store : Store} {rule : Rule} (h : rule.createdAt.isReal)
    (hget : store.get? rule.id = some rule.toDocument.sorted) :
    store.find rule.id = .ok (some rule.normal) := by
  rw [find, hget]
  show (decode rule.id rule.toDocument.sorted).map some = _
  rw [decode, Rule.ofDocument_sorted h]
  rfl

theorem get?_save (store : Store) (rule : Rule) :
    (store.save rule).get? rule.id = some rule.toDocument.sorted := by
  rw [save, Table.get?_insert, if_pos rfl]

/-- **A rule that was saved comes back** in its normal form. -/
theorem find_save (store : Store) {rule : Rule} (h : rule.createdAt.isReal) :
    (store.save rule).find rule.id = .ok (some rule.normal) :=
  find_of_get? h (get?_save store rule)

/-- Saving a rule leaves the others alone. -/
theorem get?_save_of_ne (store : Store) {rule : Rule} {id : String} (h : rule.id ≠ id) :
    (store.save rule).get? id = store.get? id := by
  rw [save, Table.get?_insert, if_neg h]

/-- Deleting a rule leaves the others alone. -/
theorem get?_delete_of_ne (store : Store) {id other : String} (h : id ≠ other) :
    (store.delete id).get? other = store.get? other := by
  rw [delete, Table.get?_erase, if_neg h]

end Store

end Rulebook
