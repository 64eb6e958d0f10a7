import Mathlib.Data.Fintype.Card
import Mathlib.Data.List.Nodup
import Rulebook.Proofs.Service.Deletions
import Rulebook.Proofs.Service.Interleaving
import Rulebook.Proofs.Service.StoredRules

/-!
# Requests at the same time are requests in a row

However the steps of requests come one between the other, what all of them are answered
and what is kept in the end is what it would be if they had come one after the other, in
the order in which they asked the repository (`stateAfter_eq_run`). A request that does not
ask it may stand anywhere in that row, because it changes nothing and its answer depends on
nothing.

So what is known about runs holds here as well: `interleaved_requests` says of rules that
are created at the same time that none of them is lost, of a rule that many want to delete
that one of them is told so, and of compiled rules that their numbers differ.
-/

namespace Rulebook

variable {ι : Type} {policy : OriginPolicy} {visits : ι → Visit} {state : State}

/-! ## Rows of visits -/

/-- **A row of visits** in terms of what each of them comes to. -/
theorem row_eq_settled (policy : OriginPolicy) (visits : ι → Visit) (state : State)
    (order : List ι) :
    (stateAfter policy state (order.map visits)).repository
        = settledRepository visits state.repository order ∧
      transcript policy state (order.map visits)
        = (settledResponses visits state.repository order).map
            (fun served => (visits served.1, (visits served.1).finish policy served.2)) ∧
      (stateAfter policy state (order.map visits)).compiler.version
        = state.compiler.version + (order.filter fun i => (visits i).start.compiles).length := by
  induction order generalizing state with
  | nil => exact ⟨rfl, rfl, rfl⟩
  | cons i order ih =>
    obtain ⟨hrepository, hresponse, hversion⟩ := (visits i).served_settle policy state
    obtain ⟨hrest, hanswers, hversions⟩ := ih ((visits i).next policy state)
    rw [hrepository] at hrest hanswers
    refine ⟨hrest, ?_, ?_⟩
    · rw [List.map_cons, transcript, settledResponses, List.map_cons, hanswers, hresponse]
    · refine hversions.trans ?_
      rw [hversion, List.filter_cons]
      split <;> simp [Nat.add_assoc, Nat.add_comm]

/-- **Visits that ask nothing of the repository may stand anywhere in a row.** -/
theorem settled_of_filter {called : ι → Bool} {response : ι → Response} {repository : Repository}
    {order : List ι}
    (hquiet : ∀ i ∈ order, called i = false →
      ∀ repository, (visits i).settle repository = (repository, response i))
    (hcalled : ∀ served ∈ settledResponses visits repository (order.filter called),
      served.2 = response served.1) :
    settledRepository visits repository order
        = settledRepository visits repository (order.filter called) ∧
      settledResponses visits repository order = order.map fun i => (i, response i) := by
  induction order generalizing repository with
  | nil => exact ⟨rfl, rfl⟩
  | cons i order ih =>
    have hquiet' := fun j hj => hquiet j (List.mem_cons_of_mem i hj)
    rw [settledResponses, List.map_cons]
    cases hi : called i with
    | true =>
      rw [List.filter_cons_of_pos hi] at hcalled ⊢
      rw [settledResponses] at hcalled
      obtain ⟨hrepository, hresponses⟩ := ih hquiet'
        (fun served hserved => hcalled served (List.mem_cons_of_mem _ hserved))
      have hfirst : ((visits i).settle repository).2 = response i :=
        hcalled _ List.mem_cons_self
      exact ⟨hrepository, by rw [hresponses, hfirst]⟩
    | false =>
      rw [List.filter_cons_of_neg (by simp [hi])] at hcalled ⊢
      have hfirst := hquiet i List.mem_cons_self hi repository
      obtain ⟨hrepository, hresponses⟩ := ih hquiet' hcalled
      rw [hfirst, hresponses]
      refine ⟨?_, rfl⟩
      rw [← hrepository, settledRepository, List.foldl_cons, hfirst]
      rfl

/-! ## Rules in a row of visits -/

/-- **A visit that is answered with 201 has created its rule.** -/
theorem Visit.exists_saved {visit : Visit} {store : Store}
    (hstore : state.repository = .memory store)
    (hcreated : (visit.response policy state).status = 201) :
    ∃ text f, visit.request.Creates text ∧ parse text = .ok f ∧
      (visit.next policy state).repository
        = .memory (store.save (visit.circumstances.rule text f)) := by
  obtain ⟨after, hafter, heffect⟩ :=
    serveSurrounded_effect policy visit.circumstances hstore visit.request
  generalize hstatus : (serveSurrounded policy visit.circumstances state
    visit.request).2.response.status = status at heffect
  have hstatus' : status = 201 := hstatus.symm.trans hcreated
  cases heffect with
  | saved hrequest hparse => exact ⟨_, _, hrequest, hparse, hafter⟩
  | deleted hrequest hhas => cases hstatus'
  | unchanged h => exact (h.1 hstatus').elim

/-- **A row of visits with their answers**, which begins with a store in memory and gives new
ids only. -/
structure AnsweredRow (policy : OriginPolicy) (visits : ι → Visit) (state : State) (store : Store)
    (order : List ι) (answer : ι → Response) : Prop where
  /-- What the visits are answered. -/
  served : transcript policy state (order.map visits) = order.map fun i => (visits i, answer i)
  /-- Nobody stands in the row twice. -/
  nodup : order.Nodup
  /-- The store at the beginning. -/
  memory : state.repository = .memory store
  /-- No id is given twice. -/
  newIds : Function.Injective fun i => (visits i).newId
  /-- No id is given that is there. -/
  absent : ∀ i, store.has (visits i).newId = false

namespace AnsweredRow

variable {store : Store} {order before rest : List ι} {answer : ι → Response} {i j : ι}
  {id : String}

/-- A row at the place of one of its visits. -/
theorem split (h : AnsweredRow policy visits state store (before ++ i :: rest) answer) :
    transcript policy state (before.map visits) = before.map (fun i => (visits i, answer i)) ∧
      (visits i).response policy (stateAfter policy state (before.map visits)) = answer i ∧
      transcript policy ((visits i).next policy (stateAfter policy state (before.map visits)))
        (rest.map visits) = rest.map fun i => (visits i, answer i) := by
  have hserved := h.served
  rw [List.map_append, List.map_append, List.map_cons, List.map_cons, transcript_append,
    transcript] at hserved
  obtain ⟨hbefore, hafter⟩ := List.append_inj hserved
    (by rw [length_transcript, List.length_map, List.length_map])
  obtain ⟨hfirst, hrest⟩ := List.cons.inj hafter
  exact ⟨hbefore, congrArg Prod.snd hfirst, hrest⟩

/-- The visits around one of them give other ids. -/
theorem newId_ne (h : AnsweredRow policy visits state store (before ++ i :: rest) answer) :
    (∀ visit ∈ before.map visits, visit.newId ≠ (visits i).newId) ∧
      ∀ visit ∈ rest.map visits, visit.newId ≠ (visits i).newId := by
  obtain ⟨-, hnodup, hne⟩ := List.nodup_append.mp h.nodup
  refine ⟨fun visit hvisit hid => ?_, fun visit hvisit hid => ?_⟩
  · obtain ⟨k, hk, rfl⟩ := List.mem_map.mp hvisit
    exact hne k hk i List.mem_cons_self (h.newIds hid)
  · obtain ⟨k, hk, rfl⟩ := List.mem_map.mp hvisit
    exact (List.nodup_cons.mp hnodup).1 (h.newIds hid ▸ hk)

/-- **A rule that was created is in the store at the end**, unless it was deleted. -/
theorem kept_or_deleted (h : AnsweredRow policy visits state store order answer)
    (hi : i ∈ order) (hcreated : (answer i).status = 201) {final : Store}
    (hfinal : (stateAfter policy state (order.map visits)).repository = .memory final) :
    (∃ text f, (visits i).request.Creates text ∧ parse text = .ok f ∧
        final.get? (visits i).newId
          = some ((visits i).circumstances.rule text f).toDocument.sorted) ∨
      ∃ k, Deletes (visits i).newId (visits k, answer k) := by
  obtain ⟨before, rest, rfl⟩ := List.append_of_mem hi
  obtain ⟨-, hanswer, hrest⟩ := h.split
  obtain ⟨middle, hmiddle⟩ := exists_store_stateAfter policy (before.map visits) h.memory
  rw [← hanswer] at hcreated
  obtain ⟨text, f, hrequest, hparse, hsaved⟩ := Visit.exists_saved hmiddle hcreated
  by_cases hdeleted : ∃ k, Deletes (visits i).newId (visits k, answer k)
  · exact .inr hdeleted
  · refine .inl ⟨text, f, hrequest, hparse, ?_⟩
    have hkept : ∀ served ∈ transcript policy ((visits i).next policy
        (stateAfter policy state (before.map visits))) (rest.map visits),
        ¬ Deletes (visits i).newId served := by
      rw [hrest]
      intro served hserved hdeletes
      obtain ⟨k, -, rfl⟩ := List.mem_map.mp hserved
      exact hdeleted ⟨k, hdeletes⟩
    obtain ⟨after, hafter, hget⟩ := get?_stateAfter hsaved h.newId_ne.2 hkept
    rw [List.map_append, List.map_cons, stateAfter_append] at hfinal
    have hsame : Repository.memory final = .memory after := hfinal.symm.trans hafter
    injection hsame with hsame
    rw [hsame, hget]
    exact Store.get?_save middle ((visits i).circumstances.rule text f)

/-- What stands in a row once stands at one place. -/
theorem existsUnique {p : Visit × Response → Prop} (hcomplete : ∀ i, i ∈ order)
    (h : ExactlyOne p (order.map fun i => (visits i, answer i))) :
    ∃! i, p (visits i, answer i) := by
  obtain ⟨before, served, after, hrow, hserved, hbefore, hafter⟩ := h
  obtain ⟨first, others, rfl, rfl, hothers⟩ := List.map_eq_append_iff.mp hrow
  obtain ⟨i, last, rfl, rfl, rfl⟩ := List.map_eq_cons_iff.mp hothers
  refine ⟨i, hserved, fun j hj => ?_⟩
  rcases List.mem_append.mp (hcomplete j) with hfirst | hother
  · exact (hbefore _ (List.mem_map_of_mem hfirst) hj).elim
  · rcases List.mem_cons.mp hother with rfl | hlast
    · rfl
    · exact (hafter _ (List.mem_map_of_mem hlast) hj).elim

/-- **A rule that was there is deleted once**, if anybody asks for it. -/
theorem deletedOnce_of_has (h : AnsweredRow policy visits state store order answer)
    (hcomplete : ∀ i, i ∈ order) (hasked : (visits j).request.Erases id)
    (hpresent : store.has id = true) :
    ∃! k, Deletes id (visits k, answer k) := by
  refine existsUnique hcomplete (h.served ▸ deletedOnce_transcript h.memory hpresent ?_ ?_)
  · intro visit hvisit hid
    obtain ⟨k, -, rfl⟩ := List.mem_map.mp hvisit
    rw [← hid, h.absent k] at hpresent
    cases hpresent
  · exact ⟨visits j, List.mem_map_of_mem (hcomplete j), hasked⟩

/-- **A rule that was created is deleted once**, if anybody asks for it from then on. -/
theorem deletedOnce_of_created (h : AnsweredRow policy visits state store order answer)
    (hcomplete : ∀ i, i ∈ order) (hasked : (visits j).request.Erases (visits i).newId)
    (hcreated : (answer i).status = 201) (hafter : [i, j].Sublist order) :
    ∃! k, Deletes (visits i).newId (visits k, answer k) := by
  obtain ⟨start, later, rfl, hi, hj⟩ := List.cons_sublist_iff.mp hafter
  obtain ⟨before, between, rfl⟩ := List.append_of_mem hi
  rw [List.append_assoc, List.cons_append] at h hcomplete
  obtain ⟨hbefore, hanswer, hrest⟩ := h.split
  obtain ⟨hids, hids'⟩ := h.newId_ne
  -- it is not there before it is created
  have habsent : ∀ served ∈ before.map fun i => (visits i, answer i),
      ¬ Deletes (visits i).newId served := by
    rw [← hbefore]
    exact (not_deletes_of_absent h.memory (h.absent i) hids).1
  have hcreation : ¬ Deletes (visits i).newId (visits i, answer i) := by
    rintro ⟨-, hdeleted⟩
    rw [hcreated] at hdeleted
    cases hdeleted
  obtain ⟨middle, hmiddle⟩ := exists_store_stateAfter policy (before.map visits) h.memory
  rw [← hanswer] at hcreated
  obtain ⟨text, f, -, -, hsaved⟩ := Visit.exists_saved hmiddle hcreated
  have hpresent : (middle.save ((visits i).circumstances.rule text f)).has (visits i).newId
      = true := by
    rw [Store.has]
    exact congrArg Option.isSome (Store.get?_save middle ((visits i).circumstances.rule text f))
  have honce : ExactlyOne (Deletes (visits i).newId)
      ((between ++ later).map fun i => (visits i, answer i)) := by
    rw [← hrest]
    refine deletedOnce_transcript hsaved hpresent hids' ⟨visits j, ?_, hasked⟩
    exact List.mem_map_of_mem (List.mem_append_right _ (hj.subset List.mem_cons_self))
  refine existsUnique hcomplete ?_
  rw [List.map_append, List.map_cons]
  have hlater : ExactlyOne (Deletes (visits i).newId)
      ([(visits i, answer i)] ++ (between ++ later).map fun i => (visits i, answer i)) :=
    honce.append_left (by simpa using hcreation)
  exact hlater.append_left habsent

end AnsweredRow

/-! ## Requests under way -/

section Runs

variable [DecidableEq ι] {schedule order : List ι} {response : ι → Response}

/-- **That requests stand in a row as they called**: each of them once, and those who asked
the repository in the order in which they asked it. -/
structure InCallOrder (calls order : List ι) : Prop where
  /-- Nobody stands in the row twice. -/
  nodup : order.Nodup
  /-- Everybody stands in the row. -/
  complete : ∀ i, i ∈ order
  /-- Those who called stand in the order of their calls. -/
  calls : order.filter (· ∈ calls) = calls

/-- When all requests are answered, everyone who wanted a rule compiled has done so. -/
theorem length_compilations
    (hanswered : ∀ i, ((Traffic.opened visits state).run visits schedule).stages i
      = .answered (response i))
    (hnodup : order.Nodup) (hcomplete : ∀ i, i ∈ order) :
    ((Traffic.opened visits state).moments Stage.compiles visits schedule).length
      = (order.filter fun i => (visits i).start.compiles).length := by
  have h := (numbered_opened visits state).run schedule
  rw [List.nil_append] at h
  refine List.Perm.length_eq ?_
  refine (List.perm_ext_iff_of_nodup h.nodup (hnodup.filter _)).mpr fun i => ?_
  rw [h.mem_iff, hanswered, List.mem_filter]
  simp [hcomplete, Stage.compiles]

/-- **Requests under way at the same time come to what they come to in a row**, in the order
of their calls. -/
theorem stateAfter_eq_run
    (hanswered : ∀ i, ((Traffic.opened visits state).run visits schedule).stages i
      = .answered (response i))
    (horder : InCallOrder ((Traffic.opened visits state).calls visits schedule) order) :
    stateAfter policy state (order.map visits)
        = ((Traffic.opened visits state).run visits schedule).state ∧
      transcript policy state (order.map visits)
        = order.map fun i => (visits i, (visits i).finish policy (response i)) := by
  have h := (settled_opened visits state).run schedule
  rw [List.nil_append] at h
  -- who has not called was answered without the repository
  have hquiet : ∀ i ∈ order,
      decide (i ∈ (Traffic.opened visits state).calls visits schedule) = false →
      ∀ repository, (visits i).settle repository = (repository, response i) := by
    intro i _ hi repository
    rw [← h.waiting i (of_decide_eq_false hi), hanswered, settle_answered]
  have hcalled : ∀ served ∈ settledResponses visits state.repository
        (order.filter (· ∈ (Traffic.opened visits state).calls visits schedule)),
      served.2 = response served.1 := by
    intro served hserved
    rw [horder.calls] at hserved
    have hsame := (h.answered served hserved).symm.trans (hanswered served.1)
    injection hsame
  obtain ⟨hrepository, hresponses⟩ := settled_of_filter hquiet hcalled
  obtain ⟨hrow, htranscript, hversion⟩ := row_eq_settled policy visits state order
  rw [horder.calls, ← h.repository] at hrepository
  rw [← length_compilations hanswered horder.nodup horder.complete] at hversion
  have hnumbered := ((numbered_opened visits state).run schedule).version
  rw [List.nil_append, ← hversion] at hnumbered
  refine ⟨?_, ?_⟩
  · have hcompiler : (stateAfter policy state (order.map visits)).compiler
        = ((Traffic.opened visits state).run visits schedule).state.compiler :=
      congrArg Compiler.mk hnumbered.symm
    exact congr (congrArg State.mk hcompiler) (hrow.trans hrepository)
  · rw [htranscript, hresponses, List.map_map]
    rfl

/-- Requests of which none calls twice can be put in the order of their calls. -/
theorem exists_inCallOrder [Fintype ι] {calls : List ι} (hcalls : calls.Nodup) :
    ∃ order, InCallOrder calls order := by
  refine ⟨calls ++ Finset.univ.toList.filter (· ∉ calls), ?_, fun i => ?_, ?_⟩
  · refine List.nodup_append.mpr ⟨hcalls, (Finset.nodup_toList _).filter _, ?_⟩
    rintro i hi j hj rfl
    exact of_decide_eq_true (List.mem_filter.mp hj).2 hi
  · by_cases hi : i ∈ calls <;> simp [hi]
  · rw [List.filter_append, List.filter_filter]
    simp

/-- **Requests under way at the same time**, when all of them are answered:

* what they are answered, and what is kept, is what it would be in any row that keeps the
  order of their calls, and there is such a row;
* the numbers of compiled rules differ, and there are no more of them than requests;
* with a store in memory and new ids, a rule that was created is there in the end unless it
  was deleted;
* if a rule was there, or was created before one of those who want to delete it makes the
  call, then one of them is told that it is deleted, and no other. -/
theorem interleaved_requests [Fintype ι] (policy : OriginPolicy) (visits : ι → Visit)
    (state : State)
    (hanswered : ∀ i, ((Traffic.opened visits state).run visits schedule).stages i
      = .answered (response i)) :
    let traffic := (Traffic.opened visits state).run visits schedule
    let calls := (Traffic.opened visits state).calls visits schedule
    let versions := (Traffic.opened visits state).versions visits schedule
    let answer := fun i => (visits i).finish policy (response i)
    (∃ order, InCallOrder calls order) ∧
      (∀ order, InCallOrder calls order →
        stateAfter policy state (order.map visits) = traffic.state ∧
          transcript policy state (order.map visits)
            = order.map fun i => (visits i, answer i)) ∧
      (versions.Nodup ∧
        ∀ version ∈ versions, version ≤ state.compiler.version + Fintype.card ι) ∧
      ∀ store, state.repository = .memory store →
        Function.Injective (fun i => (visits i).newId) →
        (∀ i, store.has (visits i).newId = false) →
        ∃ final, traffic.state.repository = .memory final ∧
          (∀ i, (answer i).status = 201 →
            (∃ text f, (visits i).request.Creates text ∧ parse text = .ok f ∧
                final.get? (visits i).newId
                  = some ((visits i).circumstances.rule text f).toDocument.sorted) ∨
              ∃ k, Deletes (visits i).newId (visits k, answer k)) ∧
          ∀ id j, (visits j).request.Erases id →
            (store.has id = true ∨
              ∃ i, (visits i).newId = id ∧ (answer i).status = 201 ∧ [i, j].Sublist calls) →
            ∃! k, Deletes id (visits k, answer k) := by
  have hcalls : ((Traffic.opened visits state).calls visits schedule).Nodup :=
    ((settled_opened visits state).run schedule).nodup
  obtain ⟨order, horder⟩ := exists_inCallOrder hcalls
  refine ⟨⟨order, horder⟩, fun order horder => stateAfter_eq_run hanswered horder, ⟨?_, ?_⟩,
    fun store hstore hnewIds habsent => ?_⟩
  · rw [versions_eq_range']
    exact List.nodup_range' 1
  · have hcompiled : ((Traffic.opened visits state).moments Stage.compiles visits schedule).length
        ≤ Fintype.card ι := ((numbered_opened visits state).run schedule).nodup.length_le_card
    intro version hversion
    rw [versions_eq_range', List.mem_range'_1] at hversion
    show version ≤ (Traffic.opened visits state).state.compiler.version + _
    omega
  · obtain ⟨hstate, hserved⟩ : stateAfter policy state (order.map visits) = _ ∧ _ :=
      stateAfter_eq_run hanswered horder
    have hrow : AnsweredRow policy visits state store order
        fun i => (visits i).finish policy (response i) :=
      ⟨hserved, horder.nodup, hstore, hnewIds, habsent⟩
    obtain ⟨final, hfinal⟩ := exists_store_stateAfter policy (order.map visits) hstore
    refine ⟨final, hstate ▸ hfinal, fun i hcreated => ?_, ?_⟩
    · exact hrow.kept_or_deleted (horder.complete i) hcreated hfinal
    · rintro id j hasked (hpresent | ⟨i, rfl, hcreated, hafter⟩)
      · exact hrow.deletedOnce_of_has horder.complete hasked hpresent
      · refine hrow.deletedOnce_of_created horder.complete hasked hcreated (hafter.trans ?_)
        exact horder.calls ▸ List.filter_sublist

end Runs

/-- The response that a stage holds. -/
def Stage.response : Stage → Response
  | .answered response => response
  | _ => .bare 500

/-- Whether a stage is the last one. -/
def Stage.isAnswered : Stage → Bool
  | .answered _ => true
  | _ => false

/-- The last stage holds its response. -/
theorem Stage.eq_answered_response {stage : Stage} (h : stage.isAnswered) :
    stage = .answered stage.response := by
  cases stage with
  | answered response => rfl
  | _ => cases h

/-- Two creations of a rule and two deletions of the first of them. -/
def sampleCrowd : Fin 4 → Visit
  | 0 => sampleCreation
  | 1 => sampleDeletion
  | 2 => ⟨⟨⟨"t", ⟨2024, 1, 9, 12, 0, 2, 0⟩⟩, "q", 0⟩, sampleCreation.request⟩
  | 3 => ⟨⟨⟨"u", ⟨2024, 1, 9, 12, 0, 2, 0⟩⟩, "q", 0⟩, sampleDeletion.request⟩

/-- The rule that is compiled first is saved second. -/
def sampleSchedule : List (Fin 4) := [0, 2, 2, 0, 3, 1]

/-- The requests of the sample when all steps are taken. -/
def sampleTraffic : Traffic (Fin 4) :=
  (Traffic.opened sampleCrowd .fresh).run sampleCrowd sampleSchedule

/-- The four leave what they would leave in a row, and of the two deletions one is told that
it has deleted the rule. -/
theorem interleaved_sampleCrowd :
    ∃ response : Fin 4 → Response, (∀ i, sampleTraffic.stages i = .answered (response i)) ∧
      stateAfter .any .fresh ([2, 0, 3, 1].map sampleCrowd) = sampleTraffic.state ∧
      ∃! k, Deletes "r" (sampleCrowd k, (sampleCrowd k).finish .any (response k)) := by
  have hanswered : ∀ i, sampleTraffic.stages i = .answered (sampleTraffic.stages i).response := by
    intro i
    refine Stage.eq_answered_response ?_
    revert i
    decide +kernel
  have hcalls : (Traffic.opened sampleCrowd .fresh).calls sampleCrowd sampleSchedule
      = [2, 0, 3, 1] := by decide +kernel
  obtain ⟨-, hrow, -, hrules⟩ := interleaved_requests .any sampleCrowd .fresh hanswered
  rw [hcalls] at hrow hrules
  obtain ⟨final, -, -, honce⟩ := hrules .empty rfl (by decide) (fun i => rfl)
  refine ⟨_, hanswered, (hrow _ ⟨by decide, by decide, rfl⟩).1, honce "r" 3 ⟨rfl, ?_⟩ (.inr ?_)⟩
  · exact ⟨['r'], by decide +kernel, by decide +kernel⟩
  · exact ⟨0, rfl, by decide +kernel, by decide⟩

end Rulebook
