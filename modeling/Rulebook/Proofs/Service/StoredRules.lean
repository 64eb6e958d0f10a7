import Mathlib.Data.List.Induction
import Rulebook.Proofs.RuleText
import Rulebook.Proofs.Service.Runs
import Rulebook.Proofs.Shelf

/-!
# The rules that the service keeps

Whatever the service is asked, the rules that it keeps are those that it was told to
create and has not been told to delete. `exists_holds_stateAfter` says so for every
run: each rule stands under its own id, its text is not empty, and its formula is what
its text is parsed to. The status of a response tells what a request has done: with
201 one rule was created, with 204 one was deleted, and with any other status no rule
was touched. So the number of rules is known from the responses, and it is the total
that a list of all rules reports.

A visit has one of three effects (`serveSurrounded_effect`), and each changes the shelf
of the store in its own way (`Visit.exists_changes`). A run follows by induction: from
visit to visit an `Account` is kept of the rules and of the ids and the answers that
they come from.
-/

namespace Rulebook

/-- **The rules that a state holds**, in a store in memory. -/
def State.Holds (state : State) (shelf : Shelf) : Prop :=
  ∃ store, state.repository = .memory store ∧ store.Keeps shelf

/-- **A run in which ids are fresh** and the clock shows points in time. -/
structure Regular (visits : List Visit) : Prop where
  fresh : FreshIds visits
  clock : ∀ visit ∈ visits, visit.circumstances.stamp.now.isReal

/-- How many visits have been answered with a status. -/
def countAnswered (status : Nat) (served : List (Visit × Response)) : Nat :=
  served.countP fun visit => visit.2.status = status

/-- **What a visit has done to the rules**, as the status of its response tells. -/
structure Visit.Changes (visit : Visit) (status : Nat) (shelf after : Shelf) : Prop where
  /-- One rule was created from the text that was sent, under an id that was free. -/
  created : status = 201 → ∃ rule : Rule, visit.request.Creates rule.text ∧
    parse rule.text = .ok rule.formula ∧ rule.id = visit.newId ∧
    shelf.get? rule.id = none ∧ after = shelf.insert rule.id rule
  /-- One rule was deleted, the one that was asked for. -/
  deleted : status = 204 → ∃ id, visit.request.Erases id ∧ (shelf.get? id).isSome ∧
    after = shelf.erase id
  /-- No rule was touched. -/
  kept : status ≠ 201 → status ≠ 204 → after = shelf

section

variable {policy : OriginPolicy} {visits : List Visit} {visit : Visit} {state : State}
  {shelf after : Shelf} {status : Nat} {id : String} {rule : Rule}

/-! ## One visit -/

/-- No rule has an empty text. -/
theorem ne_empty_of_parse {text : String} {f : Formula} (h : parse text = .ok f) : text ≠ "" := by
  rintro rfl
  cases h

namespace Visit

/-- **A visit changes the rules as its status tells**, if its id is free and its clock
shows a point in time. -/
theorem exists_changes (policy : OriginPolicy) (h : state.Holds shelf)
    (hfree : shelf.get? visit.newId = none) (hclock : visit.circumstances.stamp.now.isReal) :
    ∃ after, (visit.next policy state).Holds after ∧
      visit.Changes (visit.response policy state).status shelf after := by
  obtain ⟨store, hstore, hkeeps⟩ := h
  obtain ⟨next, hnext, heffect⟩ :=
    serveSurrounded_effect policy visit.circumstances hstore visit.request
  change Effect _ _ _ (visit.response policy state).status _ at heffect
  generalize (visit.response policy state).status = status at heffect ⊢
  cases heffect with
  | @saved text f hrequest hparse =>
    have hnormal : (visit.circumstances.rule text f).normal = visit.circumstances.rule text f := by
      rw [Rule.normal]
      exact congrArg (Rule.mk _ _ · _) (normal_of_parse hparse)
    have hsaved : (store.save (visit.circumstances.rule text f)).Keeps
        (shelf.insert visit.newId (visit.circumstances.rule text f).normal) := hkeeps.save hclock
    rw [hnormal] at hsaved
    refine ⟨shelf.insert visit.newId (visit.circumstances.rule text f), ⟨_, hnext, hsaved⟩, {
      created := fun _ => ⟨visit.circumstances.rule text f, hrequest, hparse, rfl, hfree, rfl⟩
      deleted := fun h => absurd h (by decide)
      kept := fun h => absurd rfl h }⟩
  | @deleted id hrequest hhas =>
    exact ⟨shelf.erase id, ⟨_, hnext, hkeeps.delete id⟩, {
      created := fun h => absurd h (by decide)
      deleted := fun _ => ⟨id, hrequest, hkeeps.has_eq id ▸ hhas, rfl⟩
      kept := fun _ h => absurd rfl h }⟩
  | unchanged hresponse =>
    exact ⟨shelf, ⟨store, hnext, hkeeps⟩, {
      created := fun h => absurd h hresponse.1
      deleted := fun h => absurd h hresponse.2
      kept := fun _ _ => rfl }⟩

/-- **A list of all rules reports what the state holds.** -/
theorem listed (policy : OriginPolicy) (h : state.Holds shelf) (hasked : visit.request.Lists) :
    (visit.response policy state).status = 200 ∧
      (visit.response policy state).body = (listDocument shelf.rules).text := by
  obtain ⟨store, hstore, hkeeps⟩ := h
  have hserves : visit.ServesAs store store (.json 200 (listDocument shelf.rules).text) := by
    intro compiler
    rw [begin_of_lists hasked]
    have hserved : ServedAs (runStages visit.circumstances 2 ⟨compiler, .memory store⟩
      (.onward .listing)) store _ := servedAs_listing
    rwa [hkeeps.list] at hserved
  exact (hserves.served hstore (.inl hasked.method)).2

namespace Changes

/-- A rule that is there after a visit was there before, or has just been created. -/
theorem get? (h : visit.Changes status shelf after) (hrule : after.get? id = some rule) :
    shelf.get? id = some rule ∨ (visit.newId = id ∧ parse rule.text = .ok rule.formula) := by
  by_cases hcreated : status = 201
  · obtain ⟨rule, -, hparse, hid, -, rfl⟩ := h.created hcreated
    rw [Table.get?_insert] at hrule
    split at hrule
    · rename_i heq
      cases hrule
      exact .inr ⟨hid ▸ heq, hparse⟩
    · exact .inl hrule
  · by_cases hdeleted : status = 204
    · obtain ⟨id, -, -, rfl⟩ := h.deleted hdeleted
      rw [Table.get?_erase] at hrule
      split at hrule
      · cases hrule
      · exact .inl hrule
    · exact .inl (h.kept hcreated hdeleted ▸ hrule)

/-- **The number of rules changes as the status tells.** -/
theorem size (h : visit.Changes status shelf after) :
    after.size + (if status = 204 then 1 else 0) = shelf.size + if status = 201 then 1 else 0 := by
  by_cases hcreated : status = 201
  · obtain ⟨rule, -, -, -, hfree, rfl⟩ := h.created hcreated
    have hstatus : status ≠ 204 := by omega
    rw [Table.size_insert, hfree, if_neg hstatus, if_pos hcreated]
    rfl
  · rw [if_neg hcreated]
    by_cases hdeleted : status = 204
    · obtain ⟨id, -, hthere, rfl⟩ := h.deleted hdeleted
      rw [if_pos hdeleted]
      exact Table.size_erase_add_one hthere
    · rw [if_neg hdeleted, h.kept hcreated hdeleted]

end Changes

end Visit

/-! ## Runs -/

theorem stateAfter_append_singleton (policy : OriginPolicy) (state : State) (visits : List Visit)
    (visit : Visit) :
    stateAfter policy state (visits ++ [visit])
      = visit.next policy (stateAfter policy state visits) :=
  stateAfter_append visits [visit]

theorem Regular.of_append_singleton (h : Regular (visits ++ [visit])) : Regular visits :=
  ⟨(List.pairwise_append.mp h.fresh).1, fun v hv => h.clock v (List.mem_append_left _ hv)⟩

/-- The last id is a new one. -/
theorem Regular.newId_ne (h : Regular (visits ++ [visit])) {earlier : Visit}
    (hearlier : earlier ∈ visits) : earlier.newId ≠ visit.newId :=
  (List.pairwise_append.mp h.fresh).2.2 earlier hearlier visit List.mem_cons_self

theorem countAnswered_append_singleton (status : Nat) (served : List (Visit × Response))
    (visit : Visit) (response : Response) :
    countAnswered status (served ++ [(visit, response)])
      = countAnswered status served + if response.status = status then 1 else 0 := by
  rw [countAnswered, List.countP_append, List.countP_singleton]
  simp only [decide_eq_true_eq]
  rfl

/-- **The account of a run**: what there is after it, and how it came there. -/
structure Account (policy : OriginPolicy) (visits : List Visit) (shelf : Shelf) : Prop where
  /-- The state holds the rules. -/
  holds : (stateAfter policy .fresh visits).Holds shelf
  /-- A rule is what its text says. -/
  parsed : ∀ {id : String} {rule : Rule}, shelf.get? id = some rule →
    parse rule.text = .ok rule.formula
  /-- A rule has its id from a visit. -/
  given : ∀ {id : String} {rule : Rule}, shelf.get? id = some rule →
    ∃ visit ∈ visits, visit.newId = id
  /-- As many are there as were created and not deleted. -/
  count : shelf.size + countAnswered 204 (transcript policy .fresh visits)
    = countAnswered 201 (transcript policy .fresh visits)

theorem account_nil (policy : OriginPolicy) : Account policy [] .empty where
  holds := ⟨.empty, rfl, Store.keeps_empty⟩
  parsed h := by cases h
  given h := by cases h
  count := rfl

namespace Account

/-- **One more visit** changes the rules as its status tells. -/
theorem exists_changes (h : Account policy visits shelf) (hregular : Regular (visits ++ [visit])) :
    ∃ after, (visit.next policy (stateAfter policy .fresh visits)).Holds after ∧
      visit.Changes (visit.response policy (stateAfter policy .fresh visits)).status shelf
        after := by
  refine visit.exists_changes policy h.holds ?_
    (hregular.clock visit (List.mem_append_right _ List.mem_cons_self))
  -- a rule under the id of the visit would have it from an earlier one
  cases hrule : shelf.get? visit.newId with
  | none => rfl
  | some rule =>
    obtain ⟨earlier, hearlier, hid⟩ := h.given hrule
    exact (hregular.newId_ne hearlier hid).elim

/-- The account goes on by what a visit changes. -/
theorem append_singleton (h : Account policy visits shelf)
    (hholds : (visit.next policy (stateAfter policy .fresh visits)).Holds after)
    (hchanges : visit.Changes (visit.response policy (stateAfter policy .fresh visits)).status
      shelf after) : Account policy (visits ++ [visit]) after where
  holds := by
    rw [stateAfter_append_singleton]
    exact hholds
  parsed hrule := (hchanges.get? hrule).elim h.parsed And.right
  given hrule := by
    rcases hchanges.get? hrule with hrule | ⟨hid, -⟩
    · obtain ⟨earlier, hearlier, hid⟩ := h.given hrule
      exact ⟨earlier, List.mem_append_left _ hearlier, hid⟩
    · exact ⟨visit, List.mem_append_right _ List.mem_cons_self, hid⟩
  count := by
    have hcount := h.count
    have hsize := hchanges.size
    rw [transcript_append_singleton, countAnswered_append_singleton,
      countAnswered_append_singleton]
    omega

end Account

/-- Every run has an account. -/
theorem exists_account (policy : OriginPolicy) (h : Regular visits) :
    ∃ shelf, Account policy visits shelf := by
  induction visits using List.reverseRecOn with
  | nil => exact ⟨.empty, account_nil policy⟩
  | append_singleton visits visit ih =>
    obtain ⟨shelf, haccount⟩ := ih h.of_append_singleton
    obtain ⟨after, hholds, hchanges⟩ := haccount.exists_changes h
    exact ⟨after, haccount.append_singleton hholds hchanges⟩

/-- **The rules that the service keeps.** After every run each rule stands under its own
id, its text is not empty, and its formula is what its text is parsed to. A next visit
creates one rule if it is answered with 201, deletes one if it is answered with 204,
and otherwise leaves all rules as they are. A list of all rules reports their number,
which is that of the answers with 201 less that of the answers with 204. -/
theorem exists_holds_stateAfter (policy : OriginPolicy) (h : Regular visits) :
    ∃ shelf, (stateAfter policy .fresh visits).Holds shelf ∧
      (∀ id rule, shelf.get? id = some rule →
        rule.id = id ∧ rule.text ≠ "" ∧ parse rule.text = .ok rule.formula) ∧
      (∀ visit, Regular (visits ++ [visit]) →
        ∃ after, (visit.next policy (stateAfter policy .fresh visits)).Holds after ∧
          visit.Changes (visit.response policy (stateAfter policy .fresh visits)).status shelf
            after) ∧
      (∀ visit : Visit, visit.request.Lists →
        (visit.response policy (stateAfter policy .fresh visits)).status = 200 ∧
          (visit.response policy (stateAfter policy .fresh visits)).body
            = (listDocument shelf.rules).text) ∧
      shelf.rules.length + countAnswered 204 (transcript policy .fresh visits)
        = countAnswered 201 (transcript policy .fresh visits) := by
  obtain ⟨shelf, haccount⟩ := exists_account policy h
  have hown {id : String} {rule : Rule} (hrule : shelf.get? id = some rule) : rule.id = id := by
    obtain ⟨store, -, hkeeps⟩ := haccount.holds
    exact hkeeps.own hrule
  refine ⟨shelf, haccount.holds, fun id rule hrule => ?_,
    fun visit hregular => haccount.exists_changes hregular,
    fun visit hasked => visit.listed policy haccount.holds hasked, ?_⟩
  · exact ⟨hown hrule, ne_empty_of_parse (haccount.parsed hrule), haccount.parsed hrule⟩
  · rw [Shelf.length_rules]
    exact haccount.count

end

/-- The visit that deletes the rule `r`. -/
def sampleDeletion : Visit :=
  ⟨⟨⟨"s", ⟨2024, 1, 9, 12, 0, 1, 0⟩⟩, "q", 0⟩, ⟨"DELETE", "/rules/r", [], ""⟩⟩

/-- The run that creates a rule, deletes it, and creates it again under another id. -/
def sampleRun : List Visit :=
  [sampleCreation, sampleDeletion,
    ⟨⟨⟨"t", ⟨2024, 1, 9, 12, 0, 2, 0⟩⟩, "q", 0⟩, sampleCreation.request⟩]

theorem regular_sampleRun : Regular sampleRun where
  fresh := by simp [FreshIds, Visit.newId, sampleRun, sampleCreation, sampleDeletion]
  clock := by decide

/-- Of two creations with a deletion between them one rule is left. -/
theorem holds_sampleRun :
    ∃ shelf, (stateAfter .any .fresh sampleRun).Holds shelf ∧ shelf.rules.length = 1 := by
  obtain ⟨shelf, hholds, -, -, -, hcount⟩ := exists_holds_stateAfter .any regular_sampleRun
  have hdeleted : countAnswered 204 (transcript .any .fresh sampleRun) = 1 := by decide +kernel
  have hcreated : countAnswered 201 (transcript .any .fresh sampleRun) = 2 := by decide +kernel
  exact ⟨shelf, hholds, by omega⟩

end Rulebook
