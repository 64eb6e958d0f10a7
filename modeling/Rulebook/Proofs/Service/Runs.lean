import Rulebook.Proofs.Service.Effects

/-!
# Runs of the service

A run is a row of visits, each a request with what serving it gets from outside.
The ids that new rules get are taken to be fresh (`FreshIds`). What happens to the
store in one visit is one of three effects, so a rule that was saved stays as it
is through every visit that does not delete it (`Visit.get?_next`), and through a
whole run (`get?_stateAfter`). A visit that gets or posts something is answered with
what its stages come to (`Visit.ServesAs.served`).
-/

namespace Rulebook

/-- **A visit**: a request, and what serving it gets from outside. -/
structure Visit where
  /-- What comes from outside. -/
  circumstances : Circumstances
  /-- The request. -/
  request : Request

namespace Visit

/-- The state after a visit. -/
def next (policy : OriginPolicy) (state : State) (visit : Visit) : State :=
  (serveSurrounded policy visit.circumstances state visit.request).1

/-- The response to a visit. -/
def response (policy : OriginPolicy) (state : State) (visit : Visit) : Response :=
  (serveSurrounded policy visit.circumstances state visit.request).2.response

/-- The id that a rule gets which is created by a visit. -/
def newId (visit : Visit) : String := visit.circumstances.stamp.id

end Visit

/-- **The state after a run.** -/
def stateAfter (policy : OriginPolicy) (state : State) (visits : List Visit) : State :=
  visits.foldl (Visit.next policy) state

/-- **The visits of a run with their responses.** -/
def transcript (policy : OriginPolicy) : State → List Visit → List (Visit × Response)
  | _, [] => []
  | state, visit :: visits =>
    (visit, visit.response policy state) :: transcript policy (visit.next policy state) visits

/-- That no id is given twice in a run. -/
def FreshIds (visits : List Visit) : Prop := visits.Pairwise fun a b => a.newId ≠ b.newId

/-- That a visit deletes a rule: it asks for it and is told so. -/
def Deletes (id : String) (served : Visit × Response) : Prop :=
  served.1.request.Erases id ∧ served.2.status = 204

variable {policy : OriginPolicy} {state : State} {store : Store} {id : String}

theorem stateAfter_append (visits more : List Visit) :
    stateAfter policy state (visits ++ more)
      = stateAfter policy (stateAfter policy state visits) more :=
  List.foldl_append

theorem transcript_append_singleton (policy : OriginPolicy) (state : State) (visits : List Visit)
    (visit : Visit) :
    transcript policy state (visits ++ [visit])
      = transcript policy state visits
        ++ [(visit, visit.response policy (stateAfter policy state visits))] := by
  induction visits generalizing state with
  | nil => rfl
  | cons first visits ih =>
    rw [List.cons_append, transcript, transcript, List.cons_append, ih]
    rfl

/-! ## What is kept -/

/-- **A visit leaves a rule alone** that it neither saves nor deletes. -/
theorem Visit.get?_next {visit : Visit} (hstore : state.repository = .memory store)
    (hid : visit.newId ≠ id) (hkept : ¬ Deletes id (visit, visit.response policy state)) :
    ∃ after, (visit.next policy state).repository = .memory after ∧
      after.get? id = store.get? id := by
  obtain ⟨after, hafter, heffect⟩ :=
    serveSurrounded_effect policy visit.circumstances hstore visit.request
  refine ⟨after, hafter, ?_⟩
  generalize hstatus : (serveSurrounded policy visit.circumstances state
    visit.request).2.response.status = status at heffect
  -- only a saved rule can take the place of another, and it has a new id
  cases heffect with
  | saved hrequest hparse => exact Store.get?_save_of_ne store hid
  | @deleted other hrequest hhas =>
    refine Store.get?_delete_of_ne store ?_
    rintro rfl
    exact hkept ⟨hrequest, hstatus⟩
  | unchanged h => rfl

/-- **A run leaves a rule alone** that none of its visits saves or deletes. -/
theorem get?_stateAfter {visits : List Visit} (hstore : state.repository = .memory store)
    (hids : ∀ visit ∈ visits, visit.newId ≠ id)
    (hkept : ∀ served ∈ transcript policy state visits, ¬ Deletes id served) :
    ∃ after, (stateAfter policy state visits).repository = .memory after ∧
      after.get? id = store.get? id := by
  induction visits generalizing state store with
  | nil => exact ⟨store, hstore, rfl⟩
  | cons visit visits ih =>
    obtain ⟨middle, hmiddle, hget⟩ := Visit.get?_next hstore (hids visit List.mem_cons_self)
      (hkept _ List.mem_cons_self)
    obtain ⟨after, hafter, hget'⟩ := ih hmiddle
      (fun v hv => hids v (List.mem_cons_of_mem _ hv))
      (fun served hserved => hkept served (List.mem_cons_of_mem _ hserved))
    exact ⟨after, hafter, hget'.trans hget⟩

/-- A run begins and ends with a store in memory. -/
theorem exists_store_stateAfter (policy : OriginPolicy) (visits : List Visit)
    (hstore : state.repository = .memory store) :
    ∃ after, (stateAfter policy state visits).repository = .memory after := by
  induction visits generalizing state store with
  | nil => exact ⟨store, hstore⟩
  | cons visit visits ih =>
    obtain ⟨middle, hmiddle, -⟩ :=
      serveSurrounded_effect policy visit.circumstances hstore visit.request
    exact ih hmiddle

/-! ## What a visit comes to -/

namespace Visit

variable {visit : Visit}

/-- What the stages of a visit come to with a store, whatever was compiled before. -/
def ServesAs (visit : Visit) (store after : Store) (answer : Response) : Prop :=
  ∀ compiler, ServedAs
    (runStages visit.circumstances 2 ⟨compiler, .memory store⟩ (begin visit.request)) after answer

/-- **What a visit comes to is what its stages come to**, if it asks to get or to
post something. -/
theorem ServesAs.served {after : Store} {answer : Response} (h : visit.ServesAs store after answer)
    (hstore : state.repository = .memory store)
    (hmethod : visit.request.method = "GET" ∨ visit.request.method = "POST") :
    (visit.next policy state).repository = .memory after ∧
      (visit.response policy state).status = answer.status ∧
      (visit.response policy state).body = answer.body := by
  obtain ⟨compiler, repository⟩ := state
  cases hstore
  have hoptions : visit.request.method ≠ "OPTIONS" := by
    obtain h | h := hmethod <;> rw [h] <;> decide
  have hhead : visit.request.method ≠ "HEAD" := by
    obtain h | h := hmethod <;> rw [h] <;> decide
  obtain ⟨hnext, hstatus, hbody⟩ := serveSurrounded_eq_serve policy visit.circumstances
    ⟨compiler, .memory store⟩ hoptions
  have hanswer : (serve visit.circumstances ⟨compiler, .memory store⟩
      visit.request).2.response = answer := by
    show Response.forMethod _ visit.request.method = answer
    rw [Response.forMethod, if_neg hhead]
    exact (h compiler).2
  refine ⟨(congrArg State.repository hnext).trans (h compiler).1, ?_, ?_⟩
  · rw [response, hstatus, hanswer]
  · rw [response, hbody, hanswer]

end Visit

/-- A request with a document as its body. -/
def documentRequest (target : String) (doc : Json) : Request :=
  ⟨"POST", target, [("content-type", "application/json")], doc.text⟩

theorem isJson_documentRequest (target : String) (doc : Json) :
    (documentRequest target doc).isJson := by
  have htext : (HeaderValue.ofText "application/json").text? = some "application/json" := by
    decide +kernel
  have hheader : ((documentRequest target doc).headers.first? "content-type").bind
      HeaderValue.text? = some "application/json" := htext
  rw [Request.isJson, hheader]
  decide +kernel

/-- The visit that creates the rule `a = 'x'`. -/
def sampleCreation : Visit :=
  ⟨⟨⟨"r", ⟨2024, 1, 9, 12, 0, 0, 0⟩⟩, "q", 0⟩,
    documentRequest "/create_rule" (.object [("rule_string", .string "a = 'x'")])⟩

end Rulebook
