import Mathlib.Data.List.Nodup
import Mathlib.Logic.Function.Basic
import Rulebook.Proofs.Service.Settling

/-!
# Requests under way at the same time

Between two steps of one request others can take theirs. `Traffic` is what there is then:
the state that all share, and the stage of each request. One step of one request is
`Traffic.advance`, and any row of steps is a schedule.

Two accounts are kept of a schedule, each by one lemma about a single step. Requests that
have made their call are answered as in a row of visits, in the order of the calls, and
the others will still do what they set out to do (`Settled.run`). Each request that has a
rule compiled does it once (`Numbered.run`), and the numbers are counted up by one
(`versions_eq_range'`).
-/

namespace Rulebook

/-- **Requests under way**: what they share, and how far each of them has come. -/
structure Traffic (ι : Type) where
  /-- What all requests share. -/
  state : State
  /-- The stage of each request. -/
  stages : ι → Stage

section Traffic

variable {ι : Type}

/-! ## One after the other -/

/-- What a row of visits, one after the other, leaves in the repository. -/
def settledRepository (visits : ι → Visit) (repository : Repository) (order : List ι) :
    Repository :=
  order.foldl (fun repository i => ((visits i).settle repository).1) repository

/-- What a row of visits, one after the other, is answered. -/
def settledResponses (visits : ι → Visit) : Repository → List ι → List (ι × Response)
  | _, [] => []
  | repository, i :: order =>
    (i, ((visits i).settle repository).2)
      :: settledResponses visits ((visits i).settle repository).1 order

section Rows

variable {visits : ι → Visit} {repository : Repository}

theorem map_fst_settledResponses (visits : ι → Visit) (repository : Repository)
    (order : List ι) : (settledResponses visits repository order).map Prod.fst = order := by
  induction order generalizing repository with
  | nil => rfl
  | cons i order ih => rw [settledResponses, List.map_cons, ih]

theorem mem_of_mem_settledResponses {order : List ι} {served : ι × Response}
    (h : served ∈ settledResponses visits repository order) : served.1 ∈ order := by
  rw [← map_fst_settledResponses visits repository order]
  exact List.mem_map_of_mem h

theorem settledRepository_append_singleton (order : List ι) (i : ι) :
    settledRepository visits repository (order ++ [i])
      = ((visits i).settle (settledRepository visits repository order)).1 := by
  rw [settledRepository, List.foldl_append]
  rfl

theorem settledResponses_append_singleton (order : List ι) (i : ι) :
    settledResponses visits repository (order ++ [i]) = settledResponses visits repository order
      ++ [(i, ((visits i).settle (settledRepository visits repository order)).2)] := by
  induction order generalizing repository with
  | nil => rfl
  | cons first order ih =>
    rw [List.cons_append, settledResponses, settledResponses, ih]
    rfl

end Rows

/-! ## Step by step -/

namespace Traffic

variable [DecidableEq ι]

/-- All requests at their beginning. -/
def opened (visits : ι → Visit) (state : State) : Traffic ι :=
  ⟨state, fun i => (visits i).start⟩

/-- **One step of one request.** -/
def advance (visits : ι → Visit) (traffic : Traffic ι) (i : ι) : Traffic ι :=
  let taken := step (visits i).circumstances traffic.state (traffic.stages i)
  ⟨taken.1, Function.update traffic.stages i taken.2.stage⟩

/-- **The traffic after some steps**, each of the request that it names. -/
def run (visits : ι → Visit) (traffic : Traffic ι) (schedule : List ι) : Traffic ι :=
  schedule.foldl (advance visits) traffic

/-- The steps that are taken from stages of one kind, by their requests. -/
def moments (kind : Stage → Bool) (visits : ι → Visit) : Traffic ι → List ι → List ι
  | _, [] => []
  | traffic, i :: schedule =>
    (if kind (traffic.stages i) then [i] else [])
      ++ moments kind visits (traffic.advance visits i) schedule

/-- **The calls of the repository** in their order, by the requests that make them. -/
def calls (visits : ι → Visit) (traffic : Traffic ι) (schedule : List ι) : List ι :=
  moments Stage.isCall visits traffic schedule

/-- **The numbers that compiled rules get**, in the order of the compilations. -/
def versions (visits : ι → Visit) : Traffic ι → List ι → List Nat
  | _, [] => []
  | traffic, i :: schedule =>
    (match traffic.stages i, (traffic.advance visits i).stages i with
      | .compiling _, .saving compiled => [compiled.version]
      | _, _ => [])
      ++ versions visits (traffic.advance visits i) schedule

section Steps

variable {visits : ι → Visit} {traffic : Traffic ι} {i j : ι}

theorem stages_advance_self : (traffic.advance visits i).stages i
    = (step (visits i).circumstances traffic.state (traffic.stages i)).2.stage :=
  Function.update_self ..

theorem stages_advance_of_ne (h : j ≠ i) :
    (traffic.advance visits i).stages j = traffic.stages j :=
  Function.update_of_ne h ..

end Steps

end Traffic

/-! ## Calls -/

/-- **How far requests under way have come.** Those that have made their call are answered
as in a row of visits in the order of the calls, and all others will still do what they
set out to do. -/
structure Settled (visits : ι → Visit) (state : State) (traffic : Traffic ι)
    (called : List ι) : Prop where
  /-- The repository has seen the calls. -/
  repository : traffic.state.repository = settledRepository visits state.repository called
  /-- Those who called are answered. -/
  answered : ∀ served ∈ settledResponses visits state.repository called,
    traffic.stages served.1 = .answered served.2
  /-- The others have done nothing yet. -/
  waiting : ∀ i ∉ called, ∀ repository,
    (traffic.stages i).settle (visits i).circumstances repository = (visits i).settle repository
  /-- Nobody calls twice. -/
  nodup : called.Nodup

section Calls

variable {visits : ι → Visit} {state : State} {traffic : Traffic ι} {called : List ι}

theorem settled_opened (visits : ι → Visit) (state : State) :
    Settled visits state (.opened visits state) [] where
  repository := rfl
  answered served hserved := by cases hserved
  waiting i _ repository := rfl
  nodup := List.nodup_nil

namespace Settled

/-- Who has called is answered. -/
theorem exists_answered (h : Settled visits state traffic called) {i : ι} (hi : i ∈ called) :
    ∃ response, traffic.stages i = .answered response := by
  rw [← map_fst_settledResponses visits state.repository called] at hi
  obtain ⟨served, hserved, rfl⟩ := List.mem_map.mp hi
  exact ⟨served.2, h.answered served hserved⟩

variable [DecidableEq ι]

/-- A call is the next visit of the row. -/
theorem advance_of_isCall (h : Settled visits state traffic called) {i : ι}
    (hcall : (traffic.stages i).isCall) :
    Settled visits state (traffic.advance visits i) (called ++ [i]) := by
  have hi : i ∉ called := by
    intro hi
    obtain ⟨response, hanswered⟩ := h.exists_answered hi
    rw [hanswered] at hcall
    cases hcall
  have hstep : (traffic.advance visits i).state = _ ∧ (step (visits i).circumstances traffic.state
      (traffic.stages i)).2.stage = _ := step_of_isCall hcall
  rw [h.waiting i hi, h.repository] at hstep
  refine ⟨?_, fun served hserved => ?_, fun j hj repository => ?_, ?_⟩
  · rw [hstep.1, settledRepository_append_singleton]
  · rw [settledResponses_append_singleton, List.mem_append, List.mem_singleton] at hserved
    rcases hserved with hserved | rfl
    · have hne : served.1 ≠ i := by
        rintro rfl
        exact hi (mem_of_mem_settledResponses hserved)
      rw [Traffic.stages_advance_of_ne hne, h.answered served hserved]
    · rw [Traffic.stages_advance_self, hstep.2]
  · rw [List.mem_append, List.mem_singleton, not_or] at hj
    rw [Traffic.stages_advance_of_ne hj.2, h.waiting j hj.1]
  · rw [← List.concat_eq_append]
    exact h.nodup.concat hi

/-- Any other step leaves the row as it is. -/
theorem advance_of_not_isCall (h : Settled visits state traffic called) {i : ι}
    (hcall : (traffic.stages i).isCall = false) :
    Settled visits state (traffic.advance visits i) called := by
  have hstep : (traffic.advance visits i).state.repository = _ ∧ ∀ repository,
      (step (visits i).circumstances traffic.state (traffic.stages i)).2.stage.settle
        (visits i).circumstances repository = _ := step_of_not_isCall hcall
  refine ⟨?_, fun served hserved => ?_, fun j hj repository => ?_, h.nodup⟩
  · rw [hstep.1, h.repository]
  · by_cases hi : served.1 = i
    · subst hi
      rw [Traffic.stages_advance_self, h.answered served hserved]
      rfl
    · rw [Traffic.stages_advance_of_ne hi, h.answered served hserved]
  · by_cases hi : j = i
    · subst hi
      rw [Traffic.stages_advance_self, hstep.2, h.waiting j hj]
    · rw [Traffic.stages_advance_of_ne hi, h.waiting j hj]

/-- **The account is kept through every run.** -/
theorem run (h : Settled visits state traffic called) (schedule : List ι) :
    Settled visits state (traffic.run visits schedule)
      (called ++ traffic.calls visits schedule) := by
  induction schedule generalizing traffic called with
  | nil =>
    rw [Traffic.calls, Traffic.moments, List.append_nil]
    exact h
  | cons i schedule ih =>
    unfold Traffic.calls Traffic.moments
    rw [← List.append_assoc]
    cases hcall : (traffic.stages i).isCall with
    | true => exact ih (h.advance_of_isCall hcall)
    | false =>
      rw [if_neg Bool.false_ne_true, List.append_nil]
      exact ih (h.advance_of_not_isCall hcall)

end Settled

end Calls

/-! ## Numbers -/

/-- **How far the compilations of requests under way have come.** Each request that has a
rule compiled does it once. -/
structure Numbered (visits : ι → Visit) (state : State) (traffic : Traffic ι)
    (compiled : List ι) : Prop where
  /-- The numbers are counted up. -/
  version : traffic.state.compiler.version = state.compiler.version + compiled.length
  /-- Nobody compiles twice. -/
  nodup : compiled.Nodup
  /-- Who has compiled a rule set out to do it, and does not do it again. -/
  mem_iff : ∀ i, i ∈ compiled ↔
    (visits i).start.compiles = true ∧ (traffic.stages i).compiles = false
  /-- Nobody compiles a rule who did not set out to do it. -/
  start : ∀ i, (traffic.stages i).compiles = true → (visits i).start.compiles = true

section Numbers

variable {visits : ι → Visit} {state : State} {traffic : Traffic ι} {compiled : List ι}

theorem numbered_opened (visits : ι → Visit) (state : State) :
    Numbered visits state (.opened visits state) [] where
  version := rfl
  nodup := List.nodup_nil
  mem_iff i := by simp [Traffic.opened]
  start i h := h

variable [DecidableEq ι]

namespace Numbered

/-- A compilation of a rule gets the next number. -/
theorem advance_of_compiles (h : Numbered visits state traffic compiled) {i : ι}
    (hcompiles : (traffic.stages i).compiles) :
    Numbered visits state (traffic.advance visits i) (compiled ++ [i]) := by
  have hstep : (traffic.advance visits i).state.compiler.version = _ ∧ _ :=
    step_of_compiles hcompiles
  have hafter : ((traffic.advance visits i).stages i).compiles = false := by
    rw [Traffic.stages_advance_self, compiles_step]
  have hi : i ∉ compiled := by
    rw [h.mem_iff, hcompiles]
    simp
  refine ⟨?_, ?_, fun j => ?_, fun j hj => ?_⟩
  · rw [hstep.1, h.version, List.length_append, List.length_singleton, Nat.add_assoc]
  · rw [← List.concat_eq_append]
    exact h.nodup.concat hi
  · rw [List.mem_append, List.mem_singleton]
    by_cases hij : j = i
    · subst hij
      simp [hafter, h.start j hcompiles]
    · rw [Traffic.stages_advance_of_ne hij, ← h.mem_iff]
      simp [hij]
  · by_cases hij : j = i
    · subst hij
      rw [hafter] at hj
      cases hj
    · rw [Traffic.stages_advance_of_ne hij] at hj
      exact h.start j hj

/-- Any other step gives no number. -/
theorem advance_of_not_compiles (h : Numbered visits state traffic compiled) {i : ι}
    (hcompiles : (traffic.stages i).compiles = false) :
    Numbered visits state (traffic.advance visits i) compiled := by
  have hstep : (traffic.advance visits i).state.compiler = _ ∧ _ :=
    step_of_not_compiles hcompiles
  have hsame (j : ι) : ((traffic.advance visits i).stages j).compiles
      = (traffic.stages j).compiles := by
    by_cases hij : j = i
    · subst hij
      rw [Traffic.stages_advance_self, compiles_step, hcompiles]
    · rw [Traffic.stages_advance_of_ne hij]
  refine ⟨?_, h.nodup, fun j => ?_, fun j hj => ?_⟩
  · rw [hstep.1, h.version]
  · rw [hsame, h.mem_iff]
  · exact h.start j (hsame j ▸ hj)

theorem run (h : Numbered visits state traffic compiled) (schedule : List ι) :
    Numbered visits state (traffic.run visits schedule)
      (compiled ++ traffic.moments Stage.compiles visits schedule) := by
  induction schedule generalizing traffic compiled with
  | nil =>
    rw [Traffic.moments, List.append_nil]
    exact h
  | cons i schedule ih =>
    unfold Traffic.moments
    rw [← List.append_assoc]
    cases hcompiles : (traffic.stages i).compiles with
    | true => exact ih (h.advance_of_compiles hcompiles)
    | false =>
      rw [if_neg Bool.false_ne_true, List.append_nil]
      exact ih (h.advance_of_not_compiles hcompiles)

end Numbered

/-- **The numbers of compiled rules are counted up by one**, in the order of the
compilations. -/
theorem versions_eq_range' (visits : ι → Visit) (traffic : Traffic ι) (schedule : List ι) :
    traffic.versions visits schedule = List.range' (traffic.state.compiler.version + 1)
      (traffic.moments Stage.compiles visits schedule).length := by
  induction schedule generalizing traffic with
  | nil => rfl
  | cons i schedule ih =>
    unfold Traffic.versions Traffic.moments
    rw [ih, Traffic.stages_advance_self]
    cases hcompiles : (traffic.stages i).compiles with
    | true =>
      obtain ⟨text, htext⟩ := exists_text_of_compiles hcompiles
      have hstep : (traffic.advance visits i).state.compiler.version = _ ∧ _ :=
        step_of_compiles hcompiles
      obtain ⟨hversion, compiled, hsaving, hcompiled⟩ := hstep
      rw [hversion, hsaving, htext, if_pos rfl, List.length_append, List.length_singleton,
        Nat.add_comm 1, List.range'_succ, ← hcompiled]
      rfl
    | false =>
      have hstep : (traffic.advance visits i).state.compiler = _ ∧ _ :=
        step_of_not_compiles hcompiles
      obtain ⟨hcompiler, response, hanswered⟩ := hstep
      rw [hcompiler, hanswered, if_neg Bool.false_ne_true, List.nil_append]
      cases traffic.stages i <;> rfl

end Numbers

end Traffic

end Rulebook
