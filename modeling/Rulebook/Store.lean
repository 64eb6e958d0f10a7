import Rulebook.Failure
import Rulebook.Journal
import Rulebook.Rule

/-!
# The store of rules

The store keeps rules as documents under their ids and reads them back when
they are asked for. What comes back is therefore the rule as its document
tells it: a number that is not finite has become `null`, and an operator that
spells a known one has become that one.
-/

namespace Rulebook

/-- **The store**: documents under ids. -/
abbrev Store := Table Json

namespace Store

/-- The point in time that would stand for a missing one; every document in
the store tells its own. -/
def epoch : Instant := ⟨1970, 1, 1, 0, 0, 0, 0⟩

/-- The store with a rule put under its id. -/
def save (store : Store) (rule : Rule) : Store :=
  store.insert rule.id rule.toDocument.sorted

/-- A rule read back from its document. -/
def decode (id : String) (doc : Json) : Except RuleError Rule :=
  match Rule.ofDocument epoch doc with
  | .ok rule => .ok rule
  | .error mismatch => .error (.invalidDocument (id ++ ": " ++ mismatch.message))

/-- **The rule under an id**, if there is one. -/
def find (store : Store) (id : String) : Except RuleError (Option Rule) :=
  match store.get? id with
  | none => .ok none
  | some doc => (decode id doc).map some

/-- **All rules**, in the order of their creation. The service says nothing about the
order of rules that were created at the same point in time; here they stand in the
order of their ids. -/
def list (store : Store) : Except RuleError (List Rule) := do
  let rules ← store.entries.mapM fun e => decode e.1 e.2
  return rules.mergeSort fun a b => a.createdAt.notAfter b.createdAt

/-- The store without a rule. -/
def delete (store : Store) (id : String) : Store := store.erase id

/-- Whether there is a rule under an id. -/
def has (store : Store) (id : String) : Bool := (store.get? id).isSome

/-! ## The journal -/

/-- What the journal says when a rule is saved. -/
def saveJournal (id : String) : Journal :=
  [.enter .store "save" [("rule_id", .shown id)], .event .info .store "规则已保存" [], .leave]

/-- What the journal says when a rule is deleted, or is not there. -/
def deleteJournal (id : String) (found : Bool) : Journal :=
  [.enter .store "delete" [("id", .quoted id)],
    if found then .event .info .store "规则已删除" []
    else .event .warn .store "删除不存在的规则" [],
    .leave]

/-- What the journal says when the store is emptied. -/
def clearJournal (count : Nat) : Journal :=
  [.enter .store "clear" [], .event .info .store s!"已清空 {count} 条规则" [], .leave]

end Store

end Rulebook
