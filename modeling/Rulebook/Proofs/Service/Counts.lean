import Rulebook.Proofs.Service.Stages
import Rulebook.Proofs.Service.StoredRules
import Rulebook.Proofs.Service.Verdicts
import Rulebook.Proofs.Tally

/-!
# What the service counts

Counters are raised in several places: where a text is compiled, where a rule is
evaluated, and around every request. `counted_occasions` says what they come to in the
end, in terms of the requests and their responses alone.

For this it is put down what a response tells about a rule (`ruleTally?`). Whatever turns
a request takes, it counts what its response tells (`Begun.tells`), and the surroundings
add the request itself (`Occasion.tallies_eq`). What each occasion counts is then added up
(`countP_flatMap_eq_countP`), and the counters say what was counted (`counted_countSeries`).
-/

namespace Rulebook

/-! ## What a response says about a rule -/

/-- The code that a response gives for a rejection. -/
def Response.code? (response : Response) : Option String :=
  (response.member? "code").bind Json.asText?

/-- The truth value that a response says under a key. -/
def Response.truth? (response : Response) (key : String) : Option Bool :=
  match response.member? key with
  | some (.bool b) => some b
  | _ => none

/-- Whether a request posts something to a route. -/
def Request.posts (request : Request) (route : Route) : Bool :=
  request.method == "POST" && (Route.ofPath? request.path).map Prod.fst == some route

/-- The evaluation that a response tells of, if it gives a verdict under a key. -/
def verdictTally? (stored : Bool) (key : String) (response : Response) : Option Tally :=
  if response.status = 200 then (response.truth? key).map (.evaluation stored) else none

/-- **What a response tells about a rule.** A creation tells that its text was parsed,
whether or not the rule could be saved, or that it was not; and of the two evaluations each
tells its verdict. -/
def ruleTally? (request : Request) (response : Response) : Option Tally :=
  if request.posts .create then
    if response.status = 201 ∨ response.status = 500 then some (.compilation true)
    else if response.status = 400 ∧ response.code? = some "MALFORMED_RULE" then
      some (.compilation false)
    else none
  else if request.posts .evaluate then verdictTally? false "result" response
  else if request.posts .judge then verdictTally? true "matched" response
  else none

/-- The evaluation that a response tells of is what its status and its verdict say. -/
theorem verdictTally?_eq_some_iff {stored : Bool} {key : String} {response : Response} {t : Tally} :
    verdictTally? stored key response = some t ↔
      response.status = 200 ∧ ∃ b, response.truth? key = some b ∧ t = .evaluation stored b := by
  unfold verdictTally?
  split
  · rename_i hstatus
    rw [Option.map_eq_some_iff]
    simp [hstatus, eq_comm]
  · rename_i hstatus
    simp [hstatus]

/-- A request posts to one route at most. -/
theorem Request.posts_inj {request : Request} {route other : Route} (h : request.posts route)
    (hother : request.posts other) : route = other := by
  simp only [posts, Bool.and_eq_true, beq_iff_eq] at h hother
  exact Option.some.inj (h.2.symm.trans hother.2)

section Telling

variable {request : Request} {response : Response}

/-- Only the status and the body of a response tell about rules. -/
theorem ruleTally?_congr {other : Response} (hstatus : response.status = other.status)
    (hbody : response.body = other.body) :
    ruleTally? request response = ruleTally? request other := by
  cases response
  cases other
  cases hstatus
  cases hbody
  rfl

/-- **A rejection tells nothing about rules**, unless a text is no rule or the service
failed. -/
theorem ruleTally?_of_rejected (h200 : response.status ≠ 200) (h201 : response.status ≠ 201)
    (h500 : response.status ≠ 500)
    (hcode : ¬ (response.status = 400 ∧ response.code? = some "MALFORMED_RULE")) :
    ruleTally? request response = none := by
  simp [ruleTally?, verdictTally?, h200, h201, h500, hcode]

/-- A request of another method tells nothing about rules. -/
theorem ruleTally?_of_method (h : request.method ≠ "POST") :
    ruleTally? request response = none := by
  simp [ruleTally?, Request.posts, h]

/-- A request for another route tells nothing about rules. -/
theorem ruleTally?_of_route {route : Route} {piece : List Char}
    (hroute : Route.ofPath? request.path = some (route, piece)) (hcreate : route ≠ .create)
    (hevaluate : route ≠ .evaluate) (hjudge : route ≠ .judge) :
    ruleTally? request response = none := by
  simp [ruleTally?, Request.posts, hroute, hcreate, hevaluate, hjudge]

theorem posts_of_route {route : Route} {piece : List Char} (hmethod : request.method = "POST")
    (hroute : Route.ofPath? request.path = some (route, piece)) (other : Route) :
    request.posts other = (route == other) := by
  simp [Request.posts, hmethod, hroute]

theorem ruleTally?_create (h : request.posts .create) :
    ruleTally? request response =
      if response.status = 201 ∨ response.status = 500 then some (.compilation true)
      else if response.status = 400 ∧ response.code? = some "MALFORMED_RULE" then
        some (.compilation false)
      else none := by
  rw [ruleTally?, if_pos h]

theorem ruleTally?_evaluate {piece : List Char} (hmethod : request.method = "POST")
    (hroute : Route.ofPath? request.path = some (.evaluate, piece)) :
    ruleTally? request response = verdictTally? false "result" response := by
  simp [ruleTally?, posts_of_route hmethod hroute]

theorem ruleTally?_judge {piece : List Char} (hmethod : request.method = "POST")
    (hroute : Route.ofPath? request.path = some (.judge, piece)) :
    ruleTally? request response = verdictTally? true "matched" response := by
  simp [ruleTally?, posts_of_route hmethod hroute]

/-- **What a response tells about a rule**, read off its request, its status and its
body. -/
theorem ruleTally?_eq_some_iff {t : Tally} :
    ruleTally? request response = some t ↔
      (request.posts .create ∧ (response.status = 201 ∨ response.status = 500) ∧
        t = .compilation true) ∨
      (request.posts .create ∧ (response.status = 400 ∧ response.code? = some "MALFORMED_RULE") ∧
        t = .compilation false) ∨
      (request.posts .evaluate ∧ response.status = 200 ∧
        ∃ b, response.truth? "result" = some b ∧ t = .evaluation false b) ∨
      (request.posts .judge ∧ response.status = 200 ∧
        ∃ b, response.truth? "matched" = some b ∧ t = .evaluation true b) := by
  have hother {route other : Route} (h : request.posts route) (hne : route ≠ other) :
      ¬ request.posts other := fun hother => hne (Request.posts_inj h hother)
  constructor
  · intro h
    unfold ruleTally? at h
    split at h
    · rename_i hposts
      split at h
      · rename_i hstatus
        exact .inl ⟨hposts, hstatus, (Option.some.inj h).symm⟩
      · split at h
        · rename_i hcode
          exact .inr (.inl ⟨hposts, hcode, (Option.some.inj h).symm⟩)
        · cases h
    · split at h
      · rename_i hposts
        exact .inr (.inr (.inl ⟨hposts, verdictTally?_eq_some_iff.mp h⟩))
      · split at h
        · rename_i hposts
          exact .inr (.inr (.inr ⟨hposts, verdictTally?_eq_some_iff.mp h⟩))
        · cases h
  · rintro (⟨hposts, hstatus, rfl⟩ | ⟨hposts, hcode, rfl⟩ | ⟨hposts, h⟩ | ⟨hposts, h⟩)
    · rw [ruleTally?_create hposts, if_pos hstatus]
    · rw [ruleTally?_create hposts, if_neg (by omega), if_pos hcode]
    · rw [ruleTally?, if_neg (hother hposts (by decide)), if_pos hposts]
      exact verdictTally?_eq_some_iff.mpr h
    · rw [ruleTally?, if_neg (hother hposts (by decide)), if_neg (hother hposts (by decide)),
        if_pos hposts]
      exact verdictTally?_eq_some_iff.mpr h

/-- The code of a rejection is in its response. -/
theorem code?_rejection (r : Rejection) : r.response.code? = some r.code := by
  have hmember : r.response.member? "code" = some (.string r.code) := by
    refine (Response.member?_of_body rfl rfl ?_ "code").trans rfl
    simp [Json.nesting, Json.membersNesting, Json.nestingLimit]
  rw [Response.code?, hmember]
  rfl

/-! ## Verdicts -/

/-- An answer with a verdict tells of an evaluation. -/
theorem verdictTally?_json {stored b : Bool} {key body : String}
    (h : (Response.json 200 body).truth? key = some b) :
    verdictTally? stored key (.json 200 body) = some (.evaluation stored b) := by
  have hstatus : (Response.json 200 body).status = 200 := rfl
  rw [verdictTally?, if_pos hstatus, h]
  rfl

theorem truth?_result (verdict : Bool) :
    (Response.json 200 (verdictDocument verdict).text).truth? "result" = some verdict := by
  rw [Response.truth?, Response.member?_result rfl]

theorem truth?_reportDocument (id : String) (report : Report) {elapsed : Nat}
    (h : elapsed < 2 ^ (64 : Nat)) :
    (Response.json 200 (reportDocument id report elapsed).text).truth? "matched"
      = some report.verdict := by
  have hmember : (Response.json 200 (reportDocument id report elapsed).text).member? "matched"
      = some (.bool report.verdict) := by
    refine (Response.member?_of_body rfl (isWritable_reportDocument _ _ h) ?_ "matched").trans rfl
    rw [nesting_reportDocument]
    decide
  rw [Response.truth?, hmember]

/-! ## The first turn -/

/-- **The turns that requests begin with**, and what they have counted so far. -/
inductive Begun (request : Request) : Turn → Prop where
  /-- The response is there, and what it tells is counted. -/
  | answered {response : Response} {journal : Journal} {tallies : List Tally}
      (h : tallies = (ruleTally? request response).toList) :
      Begun request ⟨.answered response, journal, tallies⟩
  /-- A text has to be compiled, and nothing is counted yet. -/
  | compiling {text : String} {journal : Journal} (h : request.posts .create) :
      Begun request ⟨.compiling text, journal, []⟩
  /-- A stored rule has to be evaluated, and nothing is counted yet. -/
  | judging {id : String} {record : Record} {traced : Bool} {journal : Journal}
      (h : ∀ response, ruleTally? request response = verdictTally? true "matched" response) :
      Begun request ⟨.judging id record traced, journal, []⟩
  /-- The repository is asked for something else, and no answer tells about rules. -/
  | asking {stage : Stage} {journal : Journal}
      (hstage : stage = .listing ∨ (∃ id, stage = .finding id) ∨ ∃ id, stage = .erasing id)
      (h : ∀ response, ruleTally? request response = none) : Begun request ⟨stage, journal, []⟩

/-- A response that tells nothing about rules is counted nowhere. -/
theorem begun_of_silent {journal : Journal} (h : ruleTally? request response = none) :
    Begun request ⟨.answered response, journal, []⟩ :=
  .answered (by rw [h]; rfl)

/-- A rejection that is none of a rule text is counted nowhere. -/
theorem begun_of_rejected {journal : Journal} (h200 : response.status ≠ 200)
    (h201 : response.status ≠ 201) (h500 : response.status ≠ 500)
    (hcode : ¬ (response.status = 400 ∧ response.code? = some "MALFORMED_RULE")) :
    Begun request ⟨.answered response, journal, []⟩ :=
  begun_of_silent (ruleTally?_of_rejected h200 h201 h500 hcode)

theorem begun_withBody {σ α : Type} {form : BodyForm σ α} {next : α → Turn}
    (h : ∀ asked, Begun request (next asked)) : Begun request (withBody form request next) := by
  unfold withBody
  split
  · exact h _
  · rename_i refusal _
    cases refusal <;>
      exact begun_of_rejected (by decide) (by decide) (by decide) (by decide +kernel)

theorem begun_withId {piece : List Char} {next : String → Turn}
    (h : ∀ id, Begun request (next id)) : Begun request (withId piece next) := by
  unfold withId
  split
  · exact h _
  · exact begun_of_rejected (by decide) (by decide) (by decide) (by decide +kernel)

/-- A text that is not empty is compiled. -/
theorem begun_beginCreation (text : String) (h : request.posts .create) :
    Begun request (beginCreation text) := by
  unfold beginCreation
  split
  · refine begun_of_rejected (by decide) (by decide) (by decide) (not_and_of_not_right _ ?_)
    rw [code?_rejection]
    decide
  · exact .compiling h

/-- An evaluation of a document counts the verdict that it answers. -/
theorem begun_documentEvaluation (asked : EvaluateRequest)
    (h : ∀ response, ruleTally? request response = verdictTally? false "result" response) :
    Begun request (documentEvaluation asked) := by
  refine .answered ?_
  rw [h, verdictTally?_json (truth?_result _)]
  rfl

/-- **Every request begins with one of the turns.** -/
theorem begun_begin (request : Request) : Begun request (begin request) := by
  unfold begin
  split
  · exact begun_of_rejected (by decide) (by decide) (by decide) (by decide +kernel)
  · rename_i route piece hroute
    unfold Route.begin?
    split
    · rename_i hmethod
      refine begun_withBody fun text => begun_beginCreation text ?_
      rw [posts_of_route hmethod hroute]
      rfl
    · have hnone (response : Response) : ruleTally? request response = none :=
        ruleTally?_of_route hroute (by decide) (by decide) (by decide)
      refine begun_withBody fun rules => ?_
      unfold combination
      split
      · exact begun_of_silent (hnone _)
      · exact begun_of_silent (hnone _)
    · rename_i hmethod
      exact begun_withBody fun asked =>
        begun_documentEvaluation asked fun _ => ruleTally?_evaluate hmethod hroute
    · exact .asking (.inl rfl) fun _ =>
        ruleTally?_of_route hroute (by decide) (by decide) (by decide)
    · exact .asking (.inl rfl) fun _ =>
        ruleTally?_of_route hroute (by decide) (by decide) (by decide)
    · exact begun_withId fun id => .asking (.inr (.inl ⟨id, rfl⟩)) fun _ =>
        ruleTally?_of_route hroute (by decide) (by decide) (by decide)
    · exact begun_withId fun id => .asking (.inr (.inl ⟨id, rfl⟩)) fun _ =>
        ruleTally?_of_route hroute (by decide) (by decide) (by decide)
    · exact begun_withId fun id => .asking (.inr (.inr ⟨id, rfl⟩)) fun _ =>
        ruleTally?_of_route hroute (by decide) (by decide) (by decide)
    · rename_i hmethod
      exact begun_withId fun id => begun_withBody fun asked =>
        .judging fun _ => ruleTally?_judge hmethod hroute
    · exact begun_of_silent (ruleTally?_of_route hroute (by decide) (by decide) (by decide))
    · exact begun_of_silent (ruleTally?_of_route hroute (by decide) (by decide) (by decide))
    · exact begun_of_rejected (Nat.ne_of_beq_eq_false rfl) (Nat.ne_of_beq_eq_false rfl)
        (Nat.ne_of_beq_eq_false rfl) (fun h => absurd h.1 (Nat.ne_of_beq_eq_false rfl))

/-! ## The other turns -/

/-- **That an outcome has counted what its response tells.** -/
def Outcome.Tells (request : Request) (outcome : Outcome) : Prop :=
  outcome.tallies = (ruleTally? request outcome.response).toList

section Turns

variable {c : Circumstances} {state : State} {journal : Journal}

/-- **A text is counted as what it is**, whether or not the rule can be saved. -/
theorem tells_compiling {text : String} (h : request.posts .create) :
    (runStages c 2 state ⟨.compiling text, journal, []⟩).2.Tells request := by
  rw [runStages_onward (by simp)]
  cases hparse : parse text with
  | error fault =>
    rw [step_compiling_error hparse, stage_afterCompiling_error, tallies_afterCompiling_error,
      runStages_answered, Outcome.Tells, ruleTally?_create h, code?_rejection]
    rfl
  | ok f =>
    rw [step_compiling_ok hparse, stage_afterCompiling_ok, tallies_afterCompiling_ok]
    cases state.repository with
    | memory store =>
      rw [runStages_last (by simp) rfl, Outcome.Tells, ruleTally?_create h]
      rfl
    | failing reason =>
      rw [runStages_last (by simp) rfl, Outcome.Tells, ruleTally?_create h]
      rfl

/-- A response about a rule that was not found tells no verdict. -/
theorem verdictTally?_ofError (stored : Bool) (key : String) (error : RuleError) :
    verdictTally? stored key (Rejection.ofError error).response = none := by
  cases error <;> rfl

/-- **An evaluation of a stored rule counts the verdict that it answers.** -/
theorem tells_judging {id : String} {record : Record} {traced : Bool}
    (h : ∀ response, ruleTally? request response = verdictTally? true "matched" response)
    (helapsed : c.elapsed < 2 ^ (64 : Nat)) :
    (runStages c 2 state ⟨.judging id record traced, journal, []⟩).2.Tells request := by
  obtain ⟨compiler, repository⟩ := state
  cases repository with
  | failing reason =>
    rw [runStages_last (by simp) rfl, Outcome.Tells, h]
    rfl
  | memory store =>
    rw [runStages_onward (by simp)]
    show Outcome.Tells request (runStages c 1 ⟨compiler, .memory store⟩
      ⟨(afterReading (store.find id) (afterJudging id record traced c.elapsed)).stage, _,
        [] ++ (afterReading (store.find id) (afterJudging id record traced c.elapsed)).tallies⟩).2
    cases store.find id with
    | error error =>
      show Outcome.Tells request (runStages c 1 _ ⟨.answered _, _, []⟩).2
      rw [runStages_answered, Outcome.Tells, h, verdictTally?_ofError]
      rfl
    | ok found =>
      cases found with
      | none =>
        show Outcome.Tells request (runStages c 1 _ ⟨.answered _, _, []⟩).2
        rw [runStages_answered, Outcome.Tells, h, verdictTally?_ofError]
        rfl
      | some rule =>
        have hverdict := truth?_reportDocument rule.id (rule.formula.run traced record rootPath)
          helapsed
        show Outcome.Tells request (runStages c 1 _ ⟨.answered (.json 200 (reportDocument rule.id
          (rule.formula.run traced record rootPath) c.elapsed).text), _,
          [.evaluation true (rule.formula.run traced record rootPath).verdict]⟩).2
        rw [runStages_answered, Outcome.Tells, h, verdictTally?_json hverdict]
        rfl

/-- Whatever is read, nothing is counted if nothing is counted of what is found. -/
theorem exists_afterReading {α : Type} {next : α → Turn}
    (h : ∀ found, ∃ response journal, next found = ⟨.answered response, journal, []⟩)
    (result : Except RuleError α) :
    ∃ response journal, afterReading result next = ⟨.answered response, journal, []⟩ := by
  cases result with
  | error error => exact ⟨_, _, rfl⟩
  | ok found => exact h found

/-- **Whatever else the repository is asked**, it is answered at once and nothing is
counted. -/
theorem exists_step_asking {stage : Stage}
    (h : stage = .listing ∨ (∃ id, stage = .finding id) ∨ ∃ id, stage = .erasing id) :
    ∃ response journal, (step c state stage).2 = ⟨.answered response, journal, []⟩ := by
  obtain ⟨compiler, repository⟩ := state
  cases repository with
  | failing reason => obtain rfl | ⟨id, rfl⟩ | ⟨id, rfl⟩ := h <;> exact ⟨_, _, rfl⟩
  | memory store =>
    obtain rfl | ⟨id, rfl⟩ | ⟨id, rfl⟩ := h
    · exact exists_afterReading (fun rules => ⟨_, _, rfl⟩) store.list
    · refine exists_afterReading (fun found => ?_) (store.find id)
      cases found <;> exact ⟨_, _, rfl⟩
    · show ∃ response journal, afterErasing id (store.has id) = _
      cases store.has id <;> exact ⟨_, _, rfl⟩

theorem tells_asking {stage : Stage}
    (hstage : stage = .listing ∨ (∃ id, stage = .finding id) ∨ ∃ id, stage = .erasing id)
    (h : ∀ response, ruleTally? request response = none) :
    (runStages c 2 state ⟨stage, journal, []⟩).2.Tells request := by
  have hstep : ∃ response journal, (step c state stage).2 = ⟨.answered response, journal, []⟩ :=
    exists_step_asking hstage
  obtain ⟨response, entries, hstep⟩ := hstep
  have hasked : ∀ response, stage ≠ .answered response := by
    obtain rfl | ⟨id, rfl⟩ | ⟨id, rfl⟩ := hstage <;> simp
  rw [runStages_last hasked (by rw [hstep]), Outcome.Tells, h, hstep]
  rfl

/-- **A request counts what its response tells about rules**, and nothing else. -/
theorem Begun.tells {turn : Turn} (h : Begun request turn) (helapsed : c.elapsed < 2 ^ (64 : Nat)) :
    (runStages c 2 state turn).2.Tells request := by
  cases h with
  | answered h =>
    rw [runStages_answered]
    exact h
  | compiling h => exact tells_compiling h
  | judging h => exact tells_judging h helapsed
  | asking hstage h => exact tells_asking hstage h

end Turns

end Telling

/-! ## In the surroundings -/

/-- **A visit with what it finds.** What was kept before is a state of any kind; it can be
that of a run, or the repository can fail every now and then. -/
structure Occasion where
  /-- What is kept. -/
  state : State
  /-- The visit. -/
  visit : Visit

namespace Occasion

/-- The response to the visit. -/
def response (policy : OriginPolicy) (occasion : Occasion) : Response :=
  occasion.visit.response policy occasion.state

/-- What is counted. -/
def tallies (policy : OriginPolicy) (occasion : Occasion) : List Tally :=
  (serveSurrounded policy occasion.visit.circumstances occasion.state
    occasion.visit.request).2.tallies

/-- The path under which the visit is counted: that of its route, if it has one. -/
def label (occasion : Occasion) : String :=
  match Route.ofPath? occasion.visit.request.path with
  | some (route, _) => route.template
  | none => "unmatched"

end Occasion

theorem tallies_serve (c : Circumstances) (state : State) (request : Request)
    (helapsed : c.elapsed < 2 ^ (64 : Nat)) : (serve c state request).2.Tells request := by
  have htells : (runStages c 2 state (begin request)).2.Tells request :=
    (begun_begin request).tells helapsed
  by_cases hmethod : request.method = "HEAD"
  · rw [Outcome.Tells, ruleTally?_of_method (by rw [hmethod]; decide)] at htells ⊢
    exact htells
  · show Outcome.tallies _ = (ruleTally? request (Response.forMethod _ request.method)).toList
    rw [Response.forMethod, if_neg hmethod]
    exact htells

/-- **A visit counts what its response tells about rules, and then itself**: its method,
its route and the status of its response. -/
theorem Occasion.tallies_eq (policy : OriginPolicy) (occasion : Occasion)
    (helapsed : occasion.visit.circumstances.elapsed < 2 ^ (64 : Nat)) :
    occasion.tallies policy = (ruleTally? occasion.visit.request (occasion.response policy)).toList
      ++ [.request occasion.visit.request.method occasion.label
        (occasion.response policy).status] := by
  obtain ⟨state, c, request⟩ := occasion
  have hlabel : targetName (Route.target? request) = label ⟨state, c, request⟩ := by
    unfold targetName Route.target? label
    cases Route.ofPath? request.path <;> rfl
  have hrecorded : tallies policy ⟨state, c, request⟩
      = (answerOrigins policy (Route.target? request) request state
          (serve c state request)).2.tallies
        ++ [.request request.method (targetName (Route.target? request))
          (response policy ⟨state, c, request⟩).status] := rfl
  rw [hrecorded, hlabel]
  congr 1
  by_cases hoptions : request.method = "OPTIONS"
  · rw [answerOrigins, if_pos hoptions, ruleTally?_of_method (by rw [hoptions]; decide)]
    rfl
  · obtain ⟨-, hstatus, hbody⟩ := serveSurrounded_eq_serve policy c state hoptions
    rw [answerOrigins, if_neg hoptions]
    exact (tallies_serve c state request helapsed).trans
      (congrArg Option.toList (ruleTally?_congr hstatus.symm hbody.symm))

/-! ## Which texts are compiled -/

/-- **A request that posts a rule**: the text that it brings is parsed. -/
def Request.PostsRule (request : Request) : Prop :=
  ∃ text f, request.Creates text ∧ parse text = .ok f

theorem status_serve (c : Circumstances) (state : State) (request : Request) :
    (serve c state request).2.response.status
      = (runStages c 2 state (begin request)).2.response.status :=
  Response.status_forMethod _ _

/-- The text of a rule that is posted is parsed, and the rule is saved if the repository
does not fail. -/
theorem status_serve_of_parse {c : Circumstances} {state : State} {request : Request}
    {text : String} {f : Formula} (h : request.Creates text) (hparse : parse text = .ok f) :
    (serve c state request).2.response.status =
      match state.repository with
      | .memory _ => 201
      | .failing _ => 500 := by
  have hbegin : begin request = .onward (.compiling text) := by
    rw [begin_of_creates h, beginCreation, if_neg (by simp [ne_empty_of_parse hparse])]
  rw [status_serve, hbegin, Turn.onward, runStages_onward (by simp), step_compiling_ok hparse]
  rw [stage_afterCompiling_ok]
  cases state.repository with
  | memory store => rw [runStages_last (by simp) rfl]; rfl
  | failing reason => rw [runStages_last (by simp) rfl]; rfl

/-- **A request that posts something else is rejected.** -/
theorem status_serve_of_not_postsRule {c : Circumstances} {state : State} {request : Request}
    (hposts : request.posts .create) (h : ¬ request.PostsRule) :
    (serve c state request).2.response.status ∈ [400, 413, 415, 422] := by
  have hanswered {response : Response} {journal : Journal} {tallies : List Tally}
      (hstatus : response.status ∈ [400, 413, 415, 422]) :
      (runStages c 2 state ⟨.answered response, journal, tallies⟩).2.response.status
        ∈ [400, 413, 415, 422] := by
    rw [runStages_answered]
    exact hstatus
  obtain ⟨hmethod, piece, hroute⟩ : request.method = "POST" ∧
      ∃ piece, Route.ofPath? request.path = some (.create, piece) := by
    simpa [Request.posts, Prod.exists] using hposts
  have hbegin : begin request = withBody createBody request beginCreation := by
    unfold begin Route.begin?
    rw [hroute, hmethod]
    rfl
  rw [status_serve, hbegin]
  unfold withBody
  split
  · rename_i text hask
    obtain ⟨hjson, hfits, hread⟩ := BodyForm.ask_eq_ok_iff.mp hask
    have hcreates : request.Creates text := ⟨hmethod, ⟨piece, hroute⟩, hjson, hfits, hread⟩
    unfold beginCreation
    split
    · exact hanswered (by decide)
    · cases hparse : parse text with
      | ok f => exact (h ⟨text, f, hcreates, hparse⟩).elim
      | error fault =>
        have hstatus :
            (Rejection.malformed fault.message).response.status ∈ [400, 413, 415, 422] :=
          List.mem_cons_self
        rw [Turn.onward, runStages_onward (by simp), step_compiling_error hparse]
        exact hanswered hstatus
  · rename_i refusal _
    cases refusal <;> exact hanswered (by decide)

/-- **The status of an answer to a creation** tells whether a rule was posted, and whether
the repository failed. -/
theorem Occasion.status_of_posts_create (policy : OriginPolicy) {occasion : Occasion}
    (hposts : occasion.visit.request.posts .create) :
    ((occasion.response policy).status = 201 ↔ occasion.visit.request.PostsRule ∧
      ∃ store, occasion.state.repository = .memory store) ∧
    ((occasion.response policy).status = 500 ↔ occasion.visit.request.PostsRule ∧
      ∃ reason, occasion.state.repository = .failing reason) := by
  obtain ⟨state, c, request⟩ := occasion
  have hoptions : request.method ≠ "OPTIONS" := by
    have hmethod : request.method = "POST" := by
      simpa using (Bool.and_eq_true_iff.mp hposts).1
    rw [hmethod]
    decide
  have hstatus : (response policy ⟨state, c, request⟩).status
      = (serve c state request).2.response.status :=
    (serveSurrounded_eq_serve policy c state hoptions).2.1
  rw [hstatus]
  by_cases hrule : request.PostsRule
  · obtain ⟨text, f, hcreates, hparse⟩ := hrule
    rw [status_serve_of_parse hcreates hparse]
    have hrule : request.PostsRule := ⟨text, f, hcreates, hparse⟩
    cases state.repository <;> simp [hrule]
  · have hrejected : (serve c state request).2.response.status ∈ [400, 413, 415, 422] :=
      status_serve_of_not_postsRule hposts hrule
    simp only [List.mem_cons, List.not_mem_nil, or_false] at hrejected
    simp only [hrule, false_and, iff_false]
    omega

/-! ## Conservation -/

section Totals

variable {policy : OriginPolicy} {occasions : List Occasion}

/-- What an occasion counts of a kind: what its response tells about a rule, and itself. -/
theorem Occasion.countP_tallies (policy : OriginPolicy) (p : Tally → Bool) (occasion : Occasion)
    (helapsed : occasion.visit.circumstances.elapsed < 2 ^ (64 : Nat)) :
    (occasion.tallies policy).countP p =
      (if (ruleTally? occasion.visit.request (occasion.response policy)).any p then 1 else 0)
        + if p (.request occasion.visit.request.method occasion.label
            (occasion.response policy).status) then 1 else 0 := by
  rw [occasion.tallies_eq policy helapsed, List.countP_append, List.countP_singleton]
  cases ruleTally? occasion.visit.request (occasion.response policy) with
  | none => rfl
  | some t => rw [Option.toList_some, List.countP_singleton, Option.any_some]

/-- What each occasion counts is counted in all. -/
theorem countP_flatMap_eq_countP {p : Tally → Bool} {test : Occasion → Bool}
    (h : ∀ occasion ∈ occasions,
      (occasion.tallies policy).countP p = if test occasion then 1 else 0) :
    (occasions.flatMap (Occasion.tallies policy)).countP p = occasions.countP test := by
  induction occasions with
  | nil => rfl
  | cons first occasions ih =>
    rw [List.flatMap_cons, List.countP_append, h first List.mem_cons_self,
      ih fun occasion hoccasion => h occasion (List.mem_cons_of_mem _ hoccasion), List.countP_cons,
      Nat.add_comm]

/-- What is told about a rule is no request. -/
theorem not_isRequest_of_ruleTally? {request : Request} {response : Response} {t : Tally}
    (h : ruleTally? request response = some t) : t.isRequest = false := by
  obtain ⟨-, -, rfl⟩ | ⟨-, -, rfl⟩ | ⟨-, -, b, -, rfl⟩ | ⟨-, -, b, -, rfl⟩ :=
    ruleTally?_eq_some_iff.mp h <;> rfl

variable (helapsed : ∀ occasion ∈ occasions, occasion.visit.circumstances.elapsed < 2 ^ (64 : Nat))
include helapsed

/-- **As many requests are counted as were served.** -/
theorem countP_isRequest :
    (occasions.flatMap (Occasion.tallies policy)).countP Tally.isRequest = occasions.length := by
  refine (countP_flatMap_eq_countP fun occasion hoccasion => ?_).trans
    (List.countP_eq_length.mpr fun _ _ => rfl)
  rw [occasion.countP_tallies policy _ (helapsed occasion hoccasion)]
  have hrule : (ruleTally? occasion.visit.request (occasion.response policy)).any Tally.isRequest
      = false := by
    cases h : ruleTally? occasion.visit.request (occasion.response policy) with
    | none => rfl
    | some t => exact not_isRequest_of_ruleTally? h
  rw [hrule]
  rfl

/-- **A request is counted by its method, its route and the status of its response.** -/
theorem count_request (method path : String) (status : Nat) :
    (occasions.flatMap (Occasion.tallies policy)).count (.request method path status)
      = occasions.countP fun occasion => occasion.visit.request.method = method ∧
          occasion.label = path ∧ (occasion.response policy).status = status := by
  refine countP_flatMap_eq_countP fun occasion hoccasion => ?_
  rw [occasion.countP_tallies policy _ (helapsed occasion hoccasion)]
  have hrule : (ruleTally? occasion.visit.request (occasion.response policy)).any
      (· == .request method path status) = false := by
    cases h : ruleTally? occasion.visit.request (occasion.response policy) with
    | none => rfl
    | some t =>
      rw [Option.any_some, beq_eq_false_iff_ne]
      rintro rfl
      cases not_isRequest_of_ruleTally? h
  rw [hrule]
  simp

/-- **What is counted about rules is what the responses tell.** -/
theorem count_rule {t : Tally} (ht : t.isRequest = false) :
    (occasions.flatMap (Occasion.tallies policy)).count t
      = occasions.countP fun occasion =>
          ruleTally? occasion.visit.request (occasion.response policy) = some t := by
  refine countP_flatMap_eq_countP fun occasion hoccasion => ?_
  rw [occasion.countP_tallies policy _ (helapsed occasion hoccasion)]
  have hrequest : (Tally.request occasion.visit.request.method occasion.label
      (occasion.response policy).status == t) = false := by
    rw [beq_eq_false_iff_ne]
    rintro rfl
    cases ht
  rw [hrequest]
  cases ruleTally? occasion.visit.request (occasion.response policy) <;> simp

end Totals

/-- **The counters tell what was served.** Whatever was asked, and whether or not the
repository failed in between:

* all request counters together say how many requests there were, and each says how many
  there were of its method, its route and its status;
* the compilations that succeeded are the creations answered with 201 or with 500, those
  that failed the creations answered with the code of a text that is no rule;
* the evaluations of each verdict are the answers with that verdict;
* a creation is answered with 201 or with 500 exactly if its text is a rule, with 500 only
  if the repository fails;
* a request that is rejected for another reason is counted as a request and nowhere
  else. -/
theorem counted_occasions (policy : OriginPolicy) (occasions : List Occasion)
    (helapsed : ∀ occasion ∈ occasions, occasion.visit.circumstances.elapsed < 2 ^ (64 : Nat)) :
    let counts := countSeries (occasions.flatMap (Occasion.tallies policy))
    (requestTotal counts = occasions.length ∧
      ∀ method path status, counted counts (.request method path status)
        = occasions.countP fun occasion => occasion.visit.request.method = method ∧
            occasion.label = path ∧ (occasion.response policy).status = status) ∧
    (counted counts (.compilation true)
        = occasions.countP fun occasion => occasion.visit.request.posts .create ∧
            ((occasion.response policy).status = 201 ∨ (occasion.response policy).status = 500)) ∧
    (counted counts (.compilation false)
        = occasions.countP fun occasion => occasion.visit.request.posts .create ∧
            (occasion.response policy).status = 400 ∧
            (occasion.response policy).code? = some "MALFORMED_RULE") ∧
    (∀ b, counted counts (.evaluation false b)
        = occasions.countP fun occasion => occasion.visit.request.posts .evaluate ∧
            (occasion.response policy).status = 200 ∧
            (occasion.response policy).truth? "result" = some b) ∧
    (∀ b, counted counts (.evaluation true b)
        = occasions.countP fun occasion => occasion.visit.request.posts .judge ∧
            (occasion.response policy).status = 200 ∧
            (occasion.response policy).truth? "matched" = some b) ∧
    ∀ occasion ∈ occasions,
      (occasion.visit.request.posts .create →
        ((occasion.response policy).status = 201 ↔ occasion.visit.request.PostsRule ∧
          ∃ store, occasion.state.repository = .memory store) ∧
        ((occasion.response policy).status = 500 ↔ occasion.visit.request.PostsRule ∧
          ∃ reason, occasion.state.repository = .failing reason)) ∧
      ((occasion.response policy).status ∉ [200, 201, 500] →
        (occasion.response policy).code? ≠ some "MALFORMED_RULE" →
        occasion.tallies policy = [.request occasion.visit.request.method occasion.label
          (occasion.response policy).status]) := by
  refine ⟨⟨?_, fun method path status => ?_⟩, ?_, ?_, fun b => ?_, fun b => ?_,
    fun occasion hoccasion => ⟨fun hposts => ?_, fun hstatus hcode => ?_⟩⟩
  · rw [requestTotal_countSeries, countP_isRequest helapsed]
  · rw [counted_countSeries, count_request helapsed]
  · rw [counted_countSeries, count_rule helapsed rfl]
    simp [ruleTally?_eq_some_iff]
  · rw [counted_countSeries, count_rule helapsed rfl]
    simp [ruleTally?_eq_some_iff]
  · rw [counted_countSeries, count_rule helapsed rfl]
    simp [ruleTally?_eq_some_iff]
  · rw [counted_countSeries, count_rule helapsed rfl]
    simp [ruleTally?_eq_some_iff]
  · exact occasion.status_of_posts_create policy hposts
  · simp only [List.mem_cons, List.not_mem_nil, or_false, not_or] at hstatus
    rw [occasion.tallies_eq policy (helapsed occasion hoccasion), ruleTally?_of_rejected hstatus.1
      hstatus.2.1 hstatus.2.2 (fun h => hcode h.2)]
    rfl

/-- A rule that is created, one that cannot be saved, and a path that leads nowhere. -/
def sampleOccasions : List Occasion :=
  [⟨.fresh, sampleCreation⟩, ⟨⟨.fresh, .failing "full"⟩, sampleCreation⟩,
    ⟨.fresh, ⟨sampleCreation.circumstances, ⟨"GET", "/rule/r", [], ""⟩⟩⟩]

/-- Both rules were compiled, and all three requests were served. -/
theorem counted_sampleOccasions :
    let counts := countSeries (sampleOccasions.flatMap (Occasion.tallies .any))
    requestTotal counts = 3 ∧ counted counts (.compilation true) = 2 ∧
      counted counts (.request "GET" "unmatched" 404) = 1 := by
  obtain ⟨⟨htotal, hrequest⟩, hcompiled, -⟩ := counted_occasions .any sampleOccasions (by decide)
  refine ⟨htotal, hcompiled.trans ?_, (hrequest "GET" "unmatched" 404).trans ?_⟩
  · decide +kernel
  · decide +kernel

end Rulebook
