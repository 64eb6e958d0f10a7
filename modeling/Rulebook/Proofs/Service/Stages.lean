import Rulebook.Service

/-!
# From stage to stage

Serving a request goes from stage to stage until the response is there. A turn that has
come to its response stays as it is (`runStages_answered`), and every other turn goes on
with the next step (`runStages_onward`).
-/

namespace Rulebook

variable {c : Circumstances} {state : State} {journal : Journal} {tallies : List Tally}

theorem runStages_answered (steps : Nat) (response : Response) :
    runStages c steps state ⟨.answered response, journal, tallies⟩
      = (state, ⟨response, journal, tallies⟩) := by
  cases steps <;> rfl

/-- **A turn goes on with the next step.** -/
theorem runStages_onward {steps : Nat} {stage : Stage}
    (h : ∀ response, stage ≠ .answered response) :
    runStages c (steps + 1) state ⟨stage, journal, tallies⟩
      = runStages c steps (step c state stage).1
          ⟨(step c state stage).2.stage, journal ++ (step c state stage).2.journal,
            tallies ++ (step c state stage).2.tallies⟩ := by
  cases stage with
  | answered response => exact (h response rfl).elim
  | _ => rfl

/-- A step that leads to a response is the last one. -/
theorem runStages_last {steps : Nat} {stage : Stage} {response : Response}
    (h : ∀ response, stage ≠ .answered response)
    (hstep : (step c state stage).2.stage = .answered response) :
    runStages c (steps + 1) state ⟨stage, journal, tallies⟩
      = ((step c state stage).1, ⟨response, journal ++ (step c state stage).2.journal,
          tallies ++ (step c state stage).2.tallies⟩) := by
  rw [runStages_onward h, hstep, runStages_answered]

/-! ## Compiling -/

section Compiling

variable {text : String}

@[simp] theorem stage_afterCompiling_error (fault : Malformed) :
    (afterCompiling text (.error fault)).stage
      = .answered (Rejection.malformed fault.message).response := rfl

@[simp] theorem tallies_afterCompiling_error (fault : Malformed) :
    (afterCompiling text (.error fault)).tallies = [.compilation false] := rfl

@[simp] theorem stage_afterCompiling_ok (compiled : CompiledRule) :
    (afterCompiling text (.ok compiled)).stage = .saving compiled := rfl

@[simp] theorem tallies_afterCompiling_ok (compiled : CompiledRule) :
    (afterCompiling text (.ok compiled)).tallies = [.compilation true] := rfl

/-- A text that is no rule leaves everything as it is. -/
theorem step_compiling_error {fault : Malformed} (h : parse text = .error fault) :
    step c state (.compiling text) = (state, afterCompiling text (.error fault)) := by
  have hcompile : state.compiler.compile c.stamp text = (state.compiler, .error fault) := by
    rw [Compiler.compile, h]
  rw [step, hcompile]

/-- A text that is a rule gets the next number. -/
theorem step_compiling_ok {f : Formula} (h : parse text = .ok f) :
    step c state (.compiling text) =
      (⟨⟨state.compiler.version + 1⟩, state.repository⟩, afterCompiling text (.ok
        ⟨⟨c.stamp.id, text, f, c.stamp.now⟩, f.fields, state.compiler.version + 1⟩)) := by
  have hcompile : state.compiler.compile c.stamp text = (⟨state.compiler.version + 1⟩,
      .ok ⟨⟨c.stamp.id, text, f, c.stamp.now⟩, f.fields, state.compiler.version + 1⟩) := by
    rw [Compiler.compile, h]
    rfl
  rw [step, hcompile]

end Compiling

end Rulebook
