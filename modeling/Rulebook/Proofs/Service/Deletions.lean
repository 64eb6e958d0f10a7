import Rulebook.Proofs.Service.Runs

/-!
# Deletions in a run

A rule that is there is deleted by the first visit that asks for it, and by no other: that
one is answered with 204, and all later ones find nothing (`deletedOnce_transcript`). What
is not there is not deleted at all (`not_deletes_of_absent`).
-/

namespace Rulebook

variable {policy : OriginPolicy} {state : State} {store : Store} {id : String}
  {visits : List Visit}

theorem transcript_append (policy : OriginPolicy) (state : State) (visits more : List Visit) :
    transcript policy state (visits ++ more)
      = transcript policy state visits
        ++ transcript policy (stateAfter policy state visits) more := by
  induction visits generalizing state with
  | nil => rfl
  | cons visit visits ih =>
    rw [List.cons_append, transcript, transcript, List.cons_append, ih]
    rfl

theorem length_transcript (policy : OriginPolicy) (state : State) (visits : List Visit) :
    (transcript policy state visits).length = visits.length := by
  induction visits generalizing state with
  | nil => rfl
  | cons visit visits ih => rw [transcript, List.length_cons, ih, List.length_cons]

/-! ## One deletion -/

/-- **A deletion is answered with 204 if the rule is there**, and with 404 if it is not. -/
theorem Visit.erased (policy : OriginPolicy) {visit : Visit}
    (hstore : state.repository = .memory store) (hasked : visit.request.Erases id) :
    (visit.next policy state).repository = .memory (store.delete id) ∧
      (visit.response policy state).status = if store.has id then 204 else 404 := by
  obtain ⟨compiler, repository⟩ := state
  cases hstore
  have hoptions : visit.request.method ≠ "OPTIONS" := by
    rw [hasked.method]
    decide
  obtain ⟨hnext, hstatus, -⟩ := serveSurrounded_eq_serve policy visit.circumstances
    ⟨compiler, .memory store⟩ hoptions
  have hserved : ServedAs (runStages visit.circumstances 2 ⟨compiler, .memory store⟩
      (begin visit.request)) (store.delete id)
      (if store.has id then .bare 204 else (Rejection.notFound id).response) := by
    rw [begin_of_erases hasked]
    exact servedAs_erasing id
  refine ⟨(congrArg State.repository hnext).trans hserved.1, hstatus.trans ?_⟩
  show (Response.forMethod _ _).status = _
  rw [Response.status_forMethod, hserved.2]
  cases store.has id <;> rfl

/-- What is not there is not deleted. -/
theorem Visit.not_deletes_of_absent {visit : Visit} (hstore : state.repository = .memory store)
    (habsent : store.has id = false) :
    ¬ Deletes id (visit, visit.response policy state) := by
  rintro ⟨hasked, hstatus⟩
  rw [(Visit.erased policy hstore hasked).2, habsent] at hstatus
  cases hstatus

/-- What is there is deleted by a visit that asks for it. -/
theorem Visit.deletes_of_present {visit : Visit} (hstore : state.repository = .memory store)
    (hpresent : store.has id = true) (hasked : visit.request.Erases id) :
    Deletes id (visit, visit.response policy state) := by
  refine ⟨hasked, ?_⟩
  rw [(Visit.erased policy hstore hasked).2, hpresent]
  rfl

/-! ## Runs -/

/-- **What is not there is not deleted by a run** that does not create it, and it is not
there afterwards. -/
theorem not_deletes_of_absent (hstore : state.repository = .memory store)
    (habsent : store.has id = false) (hids : ∀ visit ∈ visits, visit.newId ≠ id) :
    (∀ served ∈ transcript policy state visits, ¬ Deletes id served) ∧
      ∃ after, (stateAfter policy state visits).repository = .memory after ∧
        after.has id = false := by
  have hkept : ∀ served ∈ transcript policy state visits, ¬ Deletes id served := by
    induction visits generalizing state store with
    | nil =>
      intro served hserved
      cases hserved
    | cons visit visits ih =>
      have hkept : ¬ Deletes id (visit, visit.response policy state) :=
        Visit.not_deletes_of_absent hstore habsent
      obtain ⟨middle, hmiddle, hget⟩ :=
        Visit.get?_next hstore (hids visit List.mem_cons_self) hkept
      intro served hserved
      rcases List.mem_cons.mp hserved with rfl | hserved
      · exact hkept
      · refine ih hmiddle ?_ (fun v hv => hids v (List.mem_cons_of_mem _ hv)) served hserved
        rw [Store.has, hget]
        exact habsent
  obtain ⟨after, hafter, hget⟩ := get?_stateAfter hstore hids hkept
  refine ⟨hkept, after, hafter, ?_⟩
  rw [Store.has, hget]
  exact habsent

/-- That one of a row has a property, and no other. -/
def ExactlyOne {α : Type} (p : α → Prop) (row : List α) : Prop :=
  ∃ before x after, row = before ++ x :: after ∧ p x ∧ (∀ y ∈ before, ¬ p y) ∧ ∀ y ∈ after, ¬ p y

theorem ExactlyOne.append_left {α : Type} {p : α → Prop} {row before : List α}
    (h : ExactlyOne p row) (hbefore : ∀ y ∈ before, ¬ p y) : ExactlyOne p (before ++ row) := by
  obtain ⟨more, x, after, rfl, hx, hmore, hafter⟩ := h
  refine ⟨before ++ more, x, after, by simp, hx, fun y hy => ?_, hafter⟩
  rcases List.mem_append.mp hy with hy | hy
  · exact hbefore y hy
  · exact hmore y hy

/-- **A rule that is there is deleted once** by a run in which somebody asks for it. -/
theorem deletedOnce_transcript (hstore : state.repository = .memory store)
    (hpresent : store.has id = true) (hids : ∀ visit ∈ visits, visit.newId ≠ id)
    (hasked : ∃ visit ∈ visits, visit.request.Erases id) :
    ExactlyOne (Deletes id) (transcript policy state visits) := by
  induction visits generalizing state store with
  | nil =>
    obtain ⟨visit, hvisit, -⟩ := hasked
    cases hvisit
  | cons visit visits ih =>
    have hids' : ∀ v ∈ visits, v.newId ≠ id := fun v hv => hids v (List.mem_cons_of_mem _ hv)
    by_cases herases : visit.request.Erases id
    · -- the first one to ask deletes it, and the others find nothing
      have habsent : (store.delete id).has id = false := by
        rw [Store.has, Store.delete, Table.get?_erase, if_pos rfl]
        rfl
      refine ⟨[], _, _, rfl, Visit.deletes_of_present hstore hpresent herases, by simp, ?_⟩
      exact (not_deletes_of_absent (Visit.erased policy hstore herases).1 habsent hids').1
    · have hkept : ¬ Deletes id (visit, visit.response policy state) := fun h => herases h.1
      obtain ⟨middle, hmiddle, hget⟩ :=
        Visit.get?_next hstore (hids visit List.mem_cons_self) hkept
      have hrest : ExactlyOne (Deletes id)
          (transcript policy (visit.next policy state) visits) := by
        refine ih hmiddle ?_ hids' ?_
        · rw [Store.has, hget]
          exact hpresent
        · obtain ⟨v, hv, hv'⟩ := hasked
          rcases List.mem_cons.mp hv with rfl | hv
          · exact (herases hv').elim
          · exact ⟨v, hv, hv'⟩
      have hfirst : ∀ served ∈ [(visit, visit.response policy state)], ¬ Deletes id served := by
        simpa using hkept
      exact hrest.append_left hfirst

end Rulebook
