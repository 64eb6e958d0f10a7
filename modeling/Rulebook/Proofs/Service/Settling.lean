import Rulebook.Proofs.Service.Runs
import Rulebook.Proofs.Service.Stages

/-!
# What a request comes to

At any stage of a request it is settled what it will do to the repository and what it will
be answered, given what the repository holds when it is asked (`Stage.settle`). A step that
asks the repository is the last one and does just that (`step_of_isCall`). Any other step
leaves the repository alone and settles nothing new (`step_of_not_isCall`); only that a text
that is a rule gets the next number (`step_of_compiles`). So a visit is what its first stage
comes to, whatever was compiled before (`Visit.served_settle`).
-/

namespace Rulebook

/-! ## What a stage comes to -/

namespace Stage

/-- Whether the next step asks the repository. -/
def isCall : Stage → Bool
  | .compiling _ => false
  | .answered _ => false
  | _ => true

/-- Whether the next step compiles a text that is a rule. -/
def compiles : Stage → Bool
  | .compiling text => (parse text).toBool
  | _ => false

/-- What a stage comes to if nothing comes in between. -/
def alone (c : Circumstances) (state : State) (stage : Stage) : State × Response :=
  ((runStages c 2 state ⟨stage, [], []⟩).1, (runStages c 2 state ⟨stage, [], []⟩).2.response)

/-- **What a stage makes of the repository**, and its response. -/
def settle (c : Circumstances) (repository : Repository) (stage : Stage) : Repository × Response :=
  ((stage.alone c ⟨.fresh, repository⟩).1.repository, (stage.alone c ⟨.fresh, repository⟩).2)

end Stage

section Stages

variable {c : Circumstances} {state : State} {repository : Repository} {stage : Stage}

@[simp] theorem settle_answered (response : Response) :
    (Stage.answered response).settle c repository = (repository, response) := rfl

/-! ### Calls -/

theorem ne_answered_of_isCall (h : stage.isCall) (response : Response) :
    stage ≠ .answered response := by
  rintro rfl
  cases h

/-- A call does not look at the compiler. -/
theorem step_call (h : stage.isCall) (compiler : Compiler) :
    step c ⟨compiler, repository⟩ stage
      = (⟨compiler, (step c ⟨.fresh, repository⟩ stage).1.repository⟩,
        (step c ⟨.fresh, repository⟩ stage).2) := by
  cases repository <;> cases stage with
  | compiling text => cases h
  | answered response => cases h
  | _ => rfl

theorem exists_answered_afterReading {α : Type} {next : α → Turn}
    (h : ∀ found, ∃ response, (next found).stage = .answered response)
    (result : Except RuleError α) :
    ∃ response, (afterReading result next).stage = .answered response := by
  cases result with
  | error error => exact ⟨_, rfl⟩
  | ok found => exact h found

/-- The repository answers every call. -/
theorem exists_answered_of_isCall (h : stage.isCall) :
    ∃ response, (step c state stage).2.stage = .answered response := by
  obtain ⟨compiler, repository⟩ := state
  cases repository with
  | failing reason =>
    cases stage with
    | compiling text => cases h
    | answered response => cases h
    | _ => exact ⟨_, rfl⟩
  | memory store =>
    cases stage with
    | compiling text => cases h
    | answered response => cases h
    | saving compiled => exact ⟨_, rfl⟩
    | listing => exact exists_answered_afterReading (fun rules => ⟨_, rfl⟩) store.list
    | finding id =>
      refine exists_answered_afterReading (fun found => ?_) (store.find id)
      cases found <;> exact ⟨_, rfl⟩
    | erasing id =>
      show ∃ response, (afterErasing id (store.has id)).stage = .answered response
      cases store.has id <;> exact ⟨_, rfl⟩
    | judging id record traced =>
      refine exists_answered_afterReading (fun found => ?_) (store.find id)
      cases found <;> exact ⟨_, rfl⟩

/-- **A call is the last step**, and it does what the stage comes to. -/
theorem step_of_isCall (h : stage.isCall) :
    (step c state stage).1 = ⟨state.compiler, (stage.settle c state.repository).1⟩ ∧
      (step c state stage).2.stage = .answered (stage.settle c state.repository).2 := by
  obtain ⟨compiler, repository⟩ := state
  obtain ⟨response, hresponse⟩ : ∃ response, (step c ⟨.fresh, repository⟩ stage).2.stage
      = .answered response := exists_answered_of_isCall h
  have hsettle : stage.settle c repository
      = ((step c ⟨.fresh, repository⟩ stage).1.repository, response) := by
    unfold Stage.settle Stage.alone
    rw [runStages_last (ne_answered_of_isCall h) hresponse]
  rw [step_call h compiler, hsettle]
  exact ⟨rfl, hresponse⟩

/-! ### Steps before a call -/

/-- **A step that is no call leaves the repository alone**, and what the request comes to
does not change. -/
theorem step_of_not_isCall (h : stage.isCall = false) :
    (step c state stage).1.repository = state.repository ∧
      ∀ repository,
        (step c state stage).2.stage.settle c repository = stage.settle c repository := by
  cases stage with
  | answered response => exact ⟨rfl, fun repository => rfl⟩
  | compiling text =>
    cases hparse : parse text with
    | error fault =>
      rw [step_compiling_error hparse]
      refine ⟨rfl, fun repository => ?_⟩
      rw [stage_afterCompiling_error, settle_answered]
      unfold Stage.settle Stage.alone
      rw [runStages_onward (by simp), step_compiling_error hparse, stage_afterCompiling_error,
        runStages_answered]
    | ok f =>
      rw [step_compiling_ok hparse]
      refine ⟨rfl, fun repository => ?_⟩
      -- the number of the compiled rule goes into the journal only
      rw [stage_afterCompiling_ok]
      have hcompiling : (Stage.compiling text).alone c ⟨.fresh, repository⟩ = _ :=
        congrArg (fun served : State × Outcome => (served.1, served.2.response))
          (runStages_onward (by simp))
      unfold Stage.settle
      rw [hcompiling, step_compiling_ok hparse, stage_afterCompiling_ok]
      cases repository <;> rfl
  | _ => cases h

/-! ### Numbers of compiled rules -/

theorem exists_text_of_compiles (h : stage.compiles) : ∃ text, stage = .compiling text := by
  cases stage with
  | compiling text => exact ⟨text, rfl⟩
  | _ => cases h

/-- **A text that is a rule gets the next number**, and then it has to be saved. -/
theorem step_of_compiles (h : stage.compiles) :
    (step c state stage).1.compiler.version = state.compiler.version + 1 ∧
      ∃ compiled, (step c state stage).2.stage = .saving compiled ∧
        compiled.version = state.compiler.version + 1 := by
  cases stage with
  | compiling text =>
    cases hparse : parse text with
    | error fault =>
      rw [Stage.compiles, hparse] at h
      cases h
    | ok f =>
      rw [step_compiling_ok hparse]
      exact ⟨rfl, _, rfl, rfl⟩
  | _ => cases h

/-- No other step gives a number, and none but the compilation of a rule leads to
another. -/
theorem step_of_not_compiles (h : stage.compiles = false) :
    (step c state stage).1.compiler = state.compiler ∧
      ∃ response, (step c state stage).2.stage = .answered response := by
  by_cases hcall : stage.isCall
  · have hstep : (step c state stage).1 = _ ∧ (step c state stage).2.stage = _ :=
      step_of_isCall hcall
    exact ⟨by rw [hstep.1], _, hstep.2⟩
  · cases stage with
    | answered response => exact ⟨rfl, response, rfl⟩
    | compiling text =>
      cases hparse : parse text with
      | ok f =>
        rw [Stage.compiles, hparse] at h
        cases h
      | error fault =>
        rw [step_compiling_error hparse]
        exact ⟨rfl, _, rfl⟩
    | _ => exact (hcall rfl).elim

theorem compiles_step : (step c state stage).2.stage.compiles = false := by
  cases h : stage.compiles with
  | true =>
    have hstep : (step c state stage).1.compiler.version = _ ∧
        ∃ compiled, (step c state stage).2.stage = .saving compiled ∧ _ := step_of_compiles h
    obtain ⟨-, compiled, hstage, -⟩ := hstep
    rw [hstage]
    rfl
  | false =>
    have hstep : (step c state stage).1.compiler = _ ∧
        ∃ response, (step c state stage).2.stage = .answered response := step_of_not_compiles h
    obtain ⟨-, response, hstage⟩ := hstep
    rw [hstage]
    rfl

theorem compiles_of_isCall (h : stage.isCall) : stage.compiles = false := by
  cases stage with
  | compiling text => cases h
  | _ => rfl

/-- A call that has come to its response has done what the stage comes to. -/
theorem runStages_of_isCall (h : stage.isCall) (steps : Nat) (journal : Journal)
    (tallies : List Tally) :
    (runStages c (steps + 1) state ⟨stage, journal, tallies⟩).1
        = ⟨state.compiler, (stage.settle c state.repository).1⟩ ∧
      (runStages c (steps + 1) state ⟨stage, journal, tallies⟩).2.response
        = (stage.settle c state.repository).2 := by
  obtain ⟨hstate, hresponse⟩ := step_of_isCall h
  rw [runStages_last (ne_answered_of_isCall h) hresponse]
  exact ⟨hstate, rfl⟩

/-- **What a stage comes to**: for the repository and the response that does not depend on
what was compiled before, and one more rule is compiled if the text is one. -/
theorem alone_eq_settle (c : Circumstances) (state : State) (stage : Stage) :
    (stage.alone c state).1.repository = (stage.settle c state.repository).1 ∧
      (stage.alone c state).2 = (stage.settle c state.repository).2 ∧
      (stage.alone c state).1.compiler.version
        = state.compiler.version + if stage.compiles then 1 else 0 := by
  by_cases hcall : stage.isCall
  · obtain ⟨hstate, hresponse⟩ := runStages_of_isCall hcall 1 [] []
    rw [compiles_of_isCall hcall]
    unfold Stage.alone
    rw [hstate, hresponse]
    exact ⟨rfl, rfl, rfl⟩
  cases stage with
  | answered response => exact ⟨rfl, rfl, rfl⟩
  | compiling text =>
    have hsettle : (step c state (.compiling text)).1.repository = state.repository ∧
        ∀ repository, (step c state (.compiling text)).2.stage.settle c repository
          = (Stage.compiling text).settle c repository := step_of_not_isCall rfl
    unfold Stage.alone
    rw [runStages_onward (by simp)]
    cases hparse : parse text with
    | error fault =>
      have hcompiles : (Stage.compiling text).compiles = false := by
        rw [Stage.compiles, hparse]
        rfl
      rw [step_compiling_error hparse, stage_afterCompiling_error] at hsettle ⊢
      rw [runStages_answered, ← hsettle.2, settle_answered, hcompiles]
      exact ⟨rfl, rfl, rfl⟩
    | ok f =>
      have hcompiles : (Stage.compiling text).compiles = true := by
        rw [Stage.compiles, hparse]
        rfl
      rw [step_compiling_ok hparse, stage_afterCompiling_ok] at hsettle ⊢
      have hsaving (compiled : CompiledRule) : (Stage.saving compiled).isCall := rfl
      obtain ⟨hstate, hresponse⟩ := runStages_of_isCall (hsaving _) 0 _ _
      rw [hstate, hresponse, ← hsettle.2, hcompiles]
      exact ⟨rfl, rfl, rfl⟩
  | _ => exact (hcall rfl).elim

end Stages

/-! ## Visits -/

namespace Visit

/-- **The stage at which a visit begins.** A question about what is allowed is answered
outside. -/
def start (visit : Visit) : Stage :=
  if visit.request.method = "OPTIONS" then .answered (.bare 200) else (begin visit.request).stage

/-- The response to a visit, in its surroundings, when the service has answered. -/
def finish (policy : OriginPolicy) (visit : Visit) (response : Response) : Response :=
  (surround policy visit.circumstances (Route.target? visit.request) visit.request () fun _ =>
    ((), ⟨response.forMethod visit.request.method, [], []⟩)).2.response

end Visit

/-- What was written and counted does not matter for what comes next. -/
theorem runStages_turn (c : Circumstances) (steps : Nat) (state : State) (turn : Turn) :
    (runStages c steps state turn).1 = (runStages c steps state ⟨turn.stage, [], []⟩).1 ∧
      (runStages c steps state turn).2.response
        = (runStages c steps state ⟨turn.stage, [], []⟩).2.response := by
  induction steps generalizing state turn with
  | zero =>
    obtain ⟨stage, journal, tallies⟩ := turn
    cases stage <;> exact ⟨rfl, rfl⟩
  | succ steps ih =>
    obtain ⟨stage, journal, tallies⟩ := turn
    by_cases hanswered : ∃ response, stage = .answered response
    · obtain ⟨response, rfl⟩ := hanswered
      exact ⟨rfl, rfl⟩
    · rw [not_exists] at hanswered
      rw [runStages_onward hanswered, runStages_onward hanswered]
      obtain ⟨hstate, hresponse⟩ := ih (step c state stage).1
        ⟨(step c state stage).2.stage, journal ++ (step c state stage).2.journal,
          tallies ++ (step c state stage).2.tallies⟩
      obtain ⟨hstate', hresponse'⟩ := ih (step c state stage).1
        ⟨(step c state stage).2.stage, [] ++ (step c state stage).2.journal,
          [] ++ (step c state stage).2.tallies⟩
      exact ⟨hstate.trans hstate'.symm, hresponse.trans hresponse'.symm⟩

namespace Visit

variable {policy : OriginPolicy} {state : State} {visit : Visit}

/-- **A visit comes to what its first stage comes to**, in its surroundings. -/
theorem served_alone (policy : OriginPolicy) (state : State) (visit : Visit) :
    visit.next policy state = (visit.start.alone visit.circumstances state).1 ∧
      visit.response policy state
        = visit.finish policy (visit.start.alone visit.circumstances state).2 := by
  obtain ⟨c, request⟩ := visit
  by_cases hoptions : request.method = "OPTIONS"
  · have hstart : start ⟨c, request⟩ = .answered (.bare 200) := if_pos hoptions
    rw [hstart]
    unfold next response finish serveSurrounded surround answerOrigins
    refine ⟨?_, ?_⟩
    · simp only [if_pos hoptions]
      rfl
    · simp only [if_pos hoptions]
  · have hstart : start ⟨c, request⟩ = (begin request).stage := if_neg hoptions
    obtain ⟨hstate, hresponse⟩ := runStages_turn c 2 state (begin request)
    rw [hstart]
    unfold next response finish serveSurrounded surround answerOrigins Stage.alone serve
    refine ⟨?_, ?_⟩
    · simp only [if_neg hoptions, hstate]
    · simp only [if_neg hoptions, hresponse]
      rfl

/-- What a visit comes to for the repository. -/
def settle (visit : Visit) (repository : Repository) : Repository × Response :=
  visit.start.settle visit.circumstances repository

/-- **A visit in terms of the repository**: what is kept, and the response. -/
theorem served_settle (policy : OriginPolicy) (state : State) (visit : Visit) :
    (visit.next policy state).repository = (visit.settle state.repository).1 ∧
      visit.response policy state = visit.finish policy (visit.settle state.repository).2 ∧
      (visit.next policy state).compiler.version
        = state.compiler.version + if visit.start.compiles then 1 else 0 := by
  obtain ⟨hnext, hresponse⟩ := visit.served_alone policy state
  obtain ⟨hrepository, hanswer, hversion⟩ := alone_eq_settle visit.circumstances state visit.start
  rw [hnext, hresponse, hanswer]
  exact ⟨hrepository, rfl, hversion⟩

end Visit

end Rulebook
