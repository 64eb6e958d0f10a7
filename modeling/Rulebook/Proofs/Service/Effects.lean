import Rulebook.Proofs.RuleStorage
import Rulebook.Proofs.Service.Requests
import Rulebook.Service.Surroundings

/-!
# What a request does to the store

A request that is served by a store in memory has one of three effects: a rule is
saved, a rule is deleted, or nothing is changed. The status of the response tells
which: 201 and 204 are given for the first two and for nothing else
(`serve_effect`). What surrounds a request adds headers and answers some requests
itself, which leaves the effects as they are (`serveSurrounded_effect`).
-/

namespace Rulebook

/-- The rule that a creation saves. -/
def Circumstances.rule (c : Circumstances) (text : String) (f : Formula) : Rule :=
  ⟨c.stamp.id, text, f, c.stamp.now⟩

/-- **The effects of a request** on a store, each with its status. -/
inductive Effect (c : Circumstances) (request : Request) (store : Store) :
    (status : Nat) → (after : Store) → Prop where
  /-- A rule is saved. -/
  | saved {text : String} {f : Formula} (hrequest : request.Creates text)
      (hparse : parse text = .ok f) : Effect c request store 201 (store.save (c.rule text f))
  /-- A rule is deleted. -/
  | deleted {id : String} (hrequest : request.Erases id) (hhas : store.has id) :
    Effect c request store 204 (store.delete id)
  /-- Nothing is changed. -/
  | unchanged {response : Response} (h : response.Unchanged) :
    Effect c request store response.status store

/-! ## Steps -/

/-- What serving a request has come to: what is kept now, and the response. -/
def ServedAs (served : State × Outcome) (store : Store) (response : Response) : Prop :=
  served.1.repository = .memory store ∧ served.2.response = response

/-- The response about a rule that was looked for. -/
def lookupResponse (id : String) (answer : Rule → Response) :
    Except RuleError (Option Rule) → Response
  | .ok (some rule) => answer rule
  | .ok none => (Rejection.notFound id).response
  | .error error => (Rejection.ofError error).response

section Steps

variable {c : Circumstances} {compiler : Compiler} {store : Store} {steps : Nat}
  {journal : Journal} {tallies : List Tally}

/-- Behind the response nothing happens any more. -/
theorem servedAs_answered (response : Response) :
    ServedAs (runStages c steps ⟨compiler, .memory store⟩ ⟨.answered response, journal, tallies⟩)
      store response := by
  cases steps <;> exact ⟨rfl, rfl⟩

/-- A text that is no rule is rejected. -/
theorem servedAs_compiling_error {text : String} {fault : Malformed}
    (h : parse text = .error fault) :
    ServedAs (runStages c 2 ⟨compiler, .memory store⟩ ⟨.compiling text, journal, tallies⟩) store
      (Rejection.malformed fault.message).response := by
  have hcompile : compiler.compile c.stamp text = (compiler, .error fault) := by
    rw [Compiler.compile, h]
  show ServedAs (runStages c 1 (step c ⟨compiler, .memory store⟩ (.compiling text)).1
    ⟨(step c ⟨compiler, .memory store⟩ (.compiling text)).2.stage, _, _⟩) _ _
  unfold step
  dsimp only
  rw [hcompile]
  exact servedAs_answered _

/-- **A text that is a rule is compiled and saved.** -/
theorem servedAs_compiling_ok {text : String} {f : Formula} (h : parse text = .ok f) :
    ServedAs (runStages c 2 ⟨compiler, .memory store⟩ ⟨.compiling text, journal, tallies⟩)
      (store.save (c.rule text f)) (.json 201 (creationDocument (c.rule text f)).text) := by
  have hcompile : compiler.compile c.stamp text
      = (⟨compiler.version + 1⟩, .ok ⟨c.rule text f, f.fields, compiler.version + 1⟩) := by
    rw [Compiler.compile, h]
    rfl
  show ServedAs (runStages c 1 (step c ⟨compiler, .memory store⟩ (.compiling text)).1
    ⟨(step c ⟨compiler, .memory store⟩ (.compiling text)).2.stage, _, _⟩) _ _
  unfold step
  dsimp only
  rw [hcompile]
  exact ⟨rfl, rfl⟩

/-- The rules are listed, if they can be read. -/
theorem servedAs_listing :
    ServedAs (runStages c 2 ⟨compiler, .memory store⟩ ⟨.listing, journal, tallies⟩) store
      (match store.list with
        | .ok rules => .json 200 (listDocument rules).text
        | .error error => (Rejection.ofError error).response) := by
  show ServedAs (runStages c 1 ⟨compiler, .memory store⟩
    ⟨(afterReading store.list afterListing).stage, _, _⟩) _ _
  cases store.list with
  | ok rules => exact servedAs_answered _
  | error error => exact servedAs_answered _

/-- A rule is shown, if it is there and can be read. -/
theorem servedAs_finding (id : String) :
    ServedAs (runStages c 2 ⟨compiler, .memory store⟩ ⟨.finding id, journal, tallies⟩) store
      (lookupResponse id (fun rule => .json 200 rule.toDocument.text) (store.find id)) := by
  show ServedAs (runStages c 1 ⟨compiler, .memory store⟩
    ⟨(afterReading (store.find id) (afterFinding id)).stage, _, _⟩) _ _
  cases store.find id with
  | error error => exact servedAs_answered _
  | ok found => cases found <;> exact servedAs_answered _

/-- A rule is deleted, if it is there. -/
theorem servedAs_erasing (id : String) :
    ServedAs (runStages c 2 ⟨compiler, .memory store⟩ ⟨.erasing id, journal, tallies⟩)
      (store.delete id)
      (if store.has id then .bare 204 else (Rejection.notFound id).response) := by
  show ServedAs (runStages c 1 ⟨compiler, .memory (store.delete id)⟩
    ⟨(afterErasing id (store.has id)).stage, _, _⟩) _ _
  cases store.has id <;> exact servedAs_answered _

/-- A stored rule is evaluated, if it is there and can be read. -/
theorem servedAs_judging (id : String) (record : Record) (traced : Bool) :
    ServedAs (runStages c 2 ⟨compiler, .memory store⟩ ⟨.judging id record traced, journal, tallies⟩)
      store
      (lookupResponse id
        (fun rule => .json 200
          (reportDocument rule.id (rule.formula.run traced record rootPath) c.elapsed).text)
        (store.find id)) := by
  show ServedAs (runStages c 1 ⟨compiler, .memory store⟩
    ⟨(afterReading (store.find id) (afterJudging id record traced c.elapsed)).stage, _, _⟩) _ _
  cases store.find id with
  | error error => exact servedAs_answered _
  | ok found => cases found <;> exact servedAs_answered _

end Steps

/-! ## Effects -/

/-- Nothing is deleted where nothing is. -/
theorem Store.delete_eq_self {store : Store} {id : String} (h : store.has id = false) :
    store.delete id = store := by
  refine Table.ext_get? fun other => ?_
  rw [Store.delete, Table.get?_erase]
  by_cases hid : id = other
  · subst hid
    rw [if_pos rfl]
    exact (Option.isSome_eq_false_iff.mp h |> Option.isNone_iff_eq_none.mp).symm
  · rw [if_neg hid]

/-- A response about a rule that was looked for says that nothing was changed. -/
theorem unchanged_lookupResponse (id : String) {answer : Rule → Response}
    (h : ∀ rule, (answer rule).Unchanged) (found : Except RuleError (Option Rule)) :
    (lookupResponse id answer found).Unchanged := by
  cases found with
  | error error => exact Rejection.unchanged_response _
  | ok found =>
    cases found with
    | none => exact Rejection.unchanged_response _
    | some rule => exact h rule

/-- What a request asked for decides its effect. -/
theorem Asked.effect {request : Request} {stage : Stage} (h : Asked request stage)
    (c : Circumstances) (compiler : Compiler) (store : Store) (journal : Journal)
    (tallies : List Tally) :
    ∃ after response,
      ServedAs (runStages c 2 ⟨compiler, .memory store⟩ ⟨stage, journal, tallies⟩) after response ∧
      Effect c request store response.status after := by
  cases h with
  | answered h => exact ⟨store, _, servedAs_answered _, .unchanged h⟩
  | @compiling text h =>
    cases hparse : parse text with
    | error fault =>
      exact ⟨store, _, servedAs_compiling_error hparse,
        .unchanged (Rejection.unchanged_response _)⟩
    | ok f => exact ⟨_, _, servedAs_compiling_ok hparse, .saved h hparse⟩
  | listing =>
    refine ⟨store, _, servedAs_listing, .unchanged ?_⟩
    cases store.list with
    | ok rules => exact Response.unchanged_json _
    | error error => exact Rejection.unchanged_response _
  | finding id =>
    exact ⟨store, _, servedAs_finding id,
      .unchanged (unchanged_lookupResponse id (fun _ => Response.unchanged_json _) _)⟩
  | @erasing id h =>
    -- a rule that is not there is not deleted, and then the store stays as it is
    refine ⟨store.delete id, _, servedAs_erasing id, ?_⟩
    cases hhas : store.has id with
    | true => exact .deleted h hhas
    | false =>
      rw [Store.delete_eq_self hhas]
      exact .unchanged (Rejection.unchanged_response _)
  | judging id record traced =>
    exact ⟨store, _, servedAs_judging id record traced,
      .unchanged (unchanged_lookupResponse id (fun _ => Response.unchanged_json _) _)⟩

/-- The method of a request does not matter for the status of its response. -/
@[simp] theorem Response.status_forMethod (response : Response) (method : String) :
    (response.forMethod method).status = response.status := by
  unfold forMethod
  split <;> rfl

/-- **Every request has one of the three effects**, and its status tells which. -/
theorem serve_effect (c : Circumstances) {state : State} {store : Store}
    (h : state.repository = .memory store) (request : Request) :
    ∃ after, (serve c state request).1.repository = .memory after ∧
      Effect c request store (serve c state request).2.response.status after := by
  obtain ⟨compiler, repository⟩ := state
  cases h
  obtain ⟨after, response, ⟨hstore, hresponse⟩, heffect⟩ :=
    (asked_begin request).effect c compiler store (begin request).journal (begin request).tallies
  refine ⟨after, hstore, ?_⟩
  show Effect c request store (Response.forMethod _ request.method).status after
  rw [Response.status_forMethod, hresponse]
  exact heffect

/-! ## In the surroundings -/

@[simp] theorem OriginPolicy.status_mark (policy : OriginPolicy) (request : Request)
    (response : Response) : (policy.mark request response).status = response.status := by
  unfold mark
  dsimp only
  split <;> rfl

@[simp] theorem OriginPolicy.body_mark (policy : OriginPolicy) (request : Request)
    (response : Response) : (policy.mark request response).body = response.body := by
  unfold mark
  dsimp only
  split <;> rfl

/-- What is written and counted around a request changes neither what is kept nor
the status and the body of the response. -/
theorem serveSurrounded_eq_answerOrigins (policy : OriginPolicy) (c : Circumstances)
    (state : State) (request : Request) :
    let served := serveSurrounded policy c state request
    let inner := answerOrigins policy (Route.target? request) request state (serve c state request)
    served.1 = inner.1 ∧ served.2.response.status = inner.2.response.status ∧
      served.2.response.body = inner.2.response.body :=
  ⟨rfl, rfl, rfl⟩

/-- **What surrounds a request changes no status and no body**, unless the request
asks what is allowed. -/
theorem serveSurrounded_eq_serve (policy : OriginPolicy) (c : Circumstances) (state : State)
    {request : Request} (h : request.method ≠ "OPTIONS") :
    let served := serveSurrounded policy c state request
    let inner := serve c state request
    served.1 = inner.1 ∧ served.2.response.status = inner.2.response.status ∧
      served.2.response.body = inner.2.response.body := by
  obtain ⟨hstate, hstatus, hbody⟩ := serveSurrounded_eq_answerOrigins policy c state request
  unfold answerOrigins at hstate hstatus hbody
  rw [if_neg h] at hstate hstatus hbody
  exact ⟨hstate, hstatus.trans (policy.status_mark request _),
    hbody.trans (policy.body_mark request _)⟩

/-- A request that asks what is allowed changes nothing. -/
theorem serveSurrounded_options (policy : OriginPolicy) (c : Circumstances) (state : State)
    {request : Request} (h : request.method = "OPTIONS") :
    (serveSurrounded policy c state request).1 = state ∧
      (serveSurrounded policy c state request).2.response.status = 200 := by
  obtain ⟨hstate, hstatus, -⟩ := serveSurrounded_eq_answerOrigins policy c state request
  unfold answerOrigins at hstate hstatus
  rw [if_pos h] at hstate hstatus
  refine ⟨hstate, hstatus.trans ?_⟩
  dsimp only
  split
  · exact policy.status_mark request _
  · exact policy.status_mark request _

/-- **A request in its surroundings has one of the three effects**, and its status
tells which. -/
theorem serveSurrounded_effect (policy : OriginPolicy) (c : Circumstances) {state : State}
    {store : Store} (hstore : state.repository = .memory store) (request : Request) :
    ∃ after, (serveSurrounded policy c state request).1.repository = .memory after ∧
      Effect c request store (serveSurrounded policy c state request).2.response.status after := by
  by_cases h : request.method = "OPTIONS"
  · obtain ⟨hstate, hstatus⟩ := serveSurrounded_options policy c state h
    refine ⟨store, by rw [hstate, hstore], .unchanged ?_⟩
    show _ ≠ 201 ∧ _ ≠ 204
    rw [hstatus]
    decide
  · obtain ⟨hstate, hstatus, -⟩ := serveSurrounded_eq_serve policy c state h
    rw [hstate, hstatus]
    exact serve_effect c hstore request

end Rulebook
