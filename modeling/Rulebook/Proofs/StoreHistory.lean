import Mathlib.Data.List.Induction
import Rulebook.Proofs.Shelf

/-!
# What a store answers

A store saves rules, finds one, lists all, deletes one and is cleared. That it keeps
documents cannot be told from its answers: `Store.answers_eq` says that in the course
of any history they are the answers of a shelf, a finite map from ids to rules. So a
store that was new never fails, whatever rules it was given.

What a shelf holds is told by the history alone. A rule stands under an id if it was
saved there and the id has not been touched since (`Store.get?_after_iff`), so it is
the last one that was saved and neither deleted nor cleared. What stands there is the
normal form of that rule, which is what its document tells.

The history can be of any length, and both sides take it one operation at a time:
`Store.Keeps.perform` is the step, which keeps the shelf and gives the same answer.
-/

namespace Rulebook

namespace Store

/-! ## Operations -/

/-- **What a store is told or asked.** A rule that is saved bears a time that a clock
can show. -/
inductive Operation where
  /-- Save a rule under its id. -/
  | save (rule : Rule) (clock : rule.createdAt.isReal)
  /-- Find the rule under an id. -/
  | get (id : String)
  /-- List all rules. -/
  | list
  /-- Delete the rule under an id. -/
  | delete (id : String)
  /-- Delete all rules. -/
  | clear

/-- **What comes back.** -/
inductive Answer where
  /-- What was told is done. -/
  | done
  /-- The rule that was asked for, if there is one. -/
  | found (rule : Option Rule)
  /-- All rules. -/
  | listed (rules : List Rule)
  /-- Whether there was a rule to delete. -/
  | deleted (found : Bool)

/-- That an operation changes what stands under an id. -/
def Operation.Touches (id : String) : Operation → Prop
  | save rule _ => rule.id = id
  | delete other => other = id
  | clear => True
  | get _ | list => False

/-- **An operation on a store**: the store afterwards, and the answer or a failure. -/
def perform (store : Store) : Operation → Store × Except RuleError Answer
  | .save rule _ => (store.save rule, .ok .done)
  | .get id => (store, (store.find id).map .found)
  | .list => (store, store.list.map .listed)
  | .delete id => (store.delete id, .ok (.deleted (store.has id)))
  | .clear => (.empty, .ok .done)

end Store

/-- **An operation on a shelf**, which cannot fail. -/
def Shelf.perform (shelf : Shelf) : Store.Operation → Shelf × Store.Answer
  | .save rule _ => (shelf.insert rule.id rule.normal, .done)
  | .get id => (shelf, .found (shelf.get? id))
  | .list => (shelf, .listed shelf.rules)
  | .delete id => (shelf.erase id, .deleted (shelf.get? id).isSome)
  | .clear => (.empty, .done)

namespace Store

/-! ## Histories -/

section

variable {σ α : Type} (perform : σ → Operation → σ × α)

/-- What a history makes of a state. -/
def after (state : σ) (history : List Operation) : σ :=
  history.foldl (fun state op => (perform state op).1) state

/-- The answers in the course of a history. -/
def answers : σ → List Operation → List α
  | _, [] => []
  | state, op :: history => (perform state op).2 :: answers (perform state op).1 history

theorem after_append_singleton (state : σ) (history : List Operation) (op : Operation) :
    after perform state (history ++ [op]) = (perform (after perform state history) op).1 := by
  rw [after, List.foldl_append]
  rfl

end

/-- **A rule that a history leaves under an id**: it is the normal form of a rule that
was saved there, and the id has not been touched since. -/
def LeftBy (history : List Operation) (id : String) (rule : Rule) : Prop :=
  ∃ before saved clock later, history = before ++ .save saved clock :: later ∧
    saved.id = id ∧ saved.normal = rule ∧ ∀ op ∈ later, ¬ op.Touches id

/-! ## What is left -/

variable {id : String} {rule : Rule}

theorem not_leftBy_nil : ¬ LeftBy [] id rule := by
  rintro ⟨before, saved, clock, later, h, -⟩
  exact List.append_ne_nil_of_right_ne_nil before (List.cons_ne_nil _ _) h.symm

/-- What is left after one more operation was saved by it, or was left before and has not
been touched. -/
theorem leftBy_append_singleton (history : List Operation) (op : Operation) :
    LeftBy (history ++ [op]) id rule ↔
      (∃ saved clock, op = .save saved clock ∧ saved.id = id ∧ saved.normal = rule) ∨
        (LeftBy history id rule ∧ ¬ op.Touches id) := by
  constructor
  · rintro ⟨before, saved, clock, later, h, hid, hrule, hlater⟩
    obtain rfl | ⟨later, last, rfl⟩ := List.eq_nil_or_concat later
    · exact .inl ⟨saved, clock, (List.append_singleton_inj.mp h).2, hid, hrule⟩
    · rw [List.concat_eq_append] at h hlater
      rw [← List.cons_append, ← List.append_assoc] at h
      obtain ⟨rfl, rfl⟩ := List.append_singleton_inj.mp h
      exact .inr ⟨⟨before, saved, clock, later, rfl, hid, hrule,
        fun op hop => hlater op (List.mem_append_left _ hop)⟩,
        hlater op (List.mem_append_right _ List.mem_cons_self)⟩
  · rintro (⟨saved, clock, rfl, hid, hrule⟩ |
      ⟨⟨before, saved, clock, later, rfl, hid, hrule, hlater⟩, hop⟩)
    · exact ⟨history, saved, clock, [], rfl, hid, hrule, fun _ hop => nomatch hop⟩
    · refine ⟨before, saved, clock, later ++ [op], List.append_assoc .., hid, hrule, ?_⟩
      intro other hother
      rcases List.mem_append.mp hother with hother | hother
      · exact hlater other hother
      · exact List.mem_singleton.mp hother ▸ hop

/-- What stands on a shelf after an operation was put there by it, or stood there before
and has not been touched. -/
theorem get?_perform_iff (shelf : Shelf) (op : Operation) :
    (shelf.perform op).1.get? id = some rule ↔
      (∃ saved clock, op = .save saved clock ∧ saved.id = id ∧ saved.normal = rule) ∨
        (shelf.get? id = some rule ∧ ¬ op.Touches id) := by
  cases op with
  | save saved clock =>
    show (shelf.insert saved.id saved.normal).get? id = some rule ↔ _
    rw [Table.get?_insert]
    by_cases hid : saved.id = id
    · simp [hid, clock, Operation.Touches]
    · simp [hid, Operation.Touches]
  | get other => simp [Shelf.perform, Operation.Touches]
  | list => simp [Shelf.perform, Operation.Touches]
  | delete other =>
    show (shelf.erase other).get? id = some rule ↔ _
    rw [Table.get?_erase]
    by_cases hid : other = id
    · simp [hid, Operation.Touches]
    · simp [hid, Operation.Touches]
  | clear => simp [Shelf.perform, Operation.Touches]

/-- **What stands on a shelf is what the history has left there.** -/
theorem get?_after_iff (history : List Operation) :
    (after Shelf.perform .empty history).get? id = some rule ↔ LeftBy history id rule := by
  induction history using List.reverseRecOn generalizing rule with
  | nil => exact ⟨(nomatch ·), fun h => (not_leftBy_nil h).elim⟩
  | append_singleton history op ih =>
    rw [after_append_singleton, get?_perform_iff, leftBy_append_singleton, ih]

/-! ## What is answered -/

/-- **One operation gives the answer of the shelf**, and the store keeps what stands on
the shelf afterwards. -/
theorem Keeps.perform {store : Store} {shelf : Shelf} (h : store.Keeps shelf) (op : Operation) :
    (store.perform op).1.Keeps (shelf.perform op).1 ∧
      (store.perform op).2 = .ok (shelf.perform op).2 := by
  cases op with
  | save rule clock => exact ⟨h.save clock, rfl⟩
  | get id =>
    refine ⟨h, ?_⟩
    show (store.find id).map Answer.found = _
    rw [h.find]
    rfl
  | list =>
    refine ⟨h, ?_⟩
    show store.list.map Answer.listed = _
    rw [h.list]
    rfl
  | delete id =>
    refine ⟨h.delete id, ?_⟩
    show Except.ok (Answer.deleted (store.has id)) = _
    rw [h.has_eq]
    rfl
  | clear => exact ⟨keeps_empty, rfl⟩

/-- A whole history gives the answers of the shelf. -/
theorem Keeps.answers {store : Store} {shelf : Shelf} (h : store.Keeps shelf)
    (history : List Operation) :
    (after Store.perform store history).Keeps (after Shelf.perform shelf history) ∧
      Store.answers Store.perform store history
        = (Store.answers Shelf.perform shelf history).map .ok := by
  induction history generalizing store shelf with
  | nil => exact ⟨h, rfl⟩
  | cons op history ih =>
    obtain ⟨hkeeps, hanswer⟩ := h.perform op
    obtain ⟨hafter, hanswers⟩ := ih hkeeps
    refine ⟨hafter, ?_⟩
    rw [Store.answers, hanswer, hanswers]
    rfl

/-- An operation that does not touch an id does not change what is found there. -/
theorem find_perform {store : Store} {op : Operation} (h : ¬ op.Touches id) :
    (store.perform op).1.find id = store.find id := by
  have hget : (store.perform op).1.get? id = store.get? id := by
    cases op with
    | save rule clock => exact get?_save_of_ne store h
    | get other => rfl
    | list => rfl
    | delete other => exact get?_delete_of_ne store h
    | clear => exact (h trivial).elim
  unfold find
  rw [hget]

/-- **The answers of a store are those of a finite map.** In the course of any history of
a new store, with any rules, every answer is that of the shelf, and none is a failure.
Under an id there stands what the history has left there. The list of all rules has
each of them once, in the order of creation, and there are as many as the store counts.
One more rule is counted if it is saved where there was none. What is answered about an
id does not change by an operation that does not touch that id. -/
theorem answers_eq_answers_shelf (history : List Operation) :
    let store := after perform .empty history
    let shelf := after Shelf.perform .empty history
    answers perform .empty history = (answers Shelf.perform .empty history).map .ok ∧
      (∀ id rule, shelf.get? id = some rule ↔ LeftBy history id rule) ∧
      (∀ rule, rule ∈ shelf.rules ↔ LeftBy history rule.id rule) ∧
      (shelf.rules.map Rule.id).Nodup ∧
      (shelf.rules.Pairwise fun a b => a.createdAt.notAfter b.createdAt) ∧
      store.size = shelf.rules.length ∧
      (∀ rule clock, (store.perform (.save rule clock)).1.size
        = if (shelf.get? rule.id).isSome then store.size else store.size + 1) ∧
      ∀ op id, ¬ op.Touches id →
        ((store.perform op).1.perform (.get id)).2 = (store.perform (.get id)).2 := by
  obtain ⟨hkeeps, hanswers⟩ := keeps_empty.answers history
  refine ⟨hanswers, fun id rule => get?_after_iff history, fun rule => ?_, hkeeps.nodup_rules,
    Shelf.pairwise_rules _, ?_, fun rule clock => ?_, fun op id hid => ?_⟩
  · rw [hkeeps.mem_rules_iff, get?_after_iff]
  · rw [hkeeps.size_eq, Shelf.length_rules]
  · rw [← hkeeps.has_eq]
    exact Table.size_insert _ _ _
  · exact congrArg (Except.map Answer.found) (find_perform hid)

/-- A rule that no text stands for: its comparator spells a known one, and its value is
not a number. -/
def oddRule : Rule :=
  ⟨"r", "", .condition ⟨"a", .other "<", .number .nan⟩, ⟨2024, 1, 9, 12, 0, 0, 0⟩⟩

example :
    answers perform .empty [.save oddRule rfl, .get "r", .delete "r", .get "r", .delete "r"]
      = [.ok .done,
        .ok (.found (some { oddRule with formula := .condition ⟨"a", .lt, .null⟩ })),
        .ok (.deleted true), .ok (.found none), .ok (.deleted false)] :=
  rfl

end Store

end Rulebook
