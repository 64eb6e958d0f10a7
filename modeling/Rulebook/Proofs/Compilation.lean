import Rulebook.Proofs.RequiredFields
import Rulebook.Proofs.Text.Order

/-!
# What a compiler answers

A compiler can be asked for a text, and for a rule that has been read already, and all it
keeps is a count that both ways of asking share. `Compiler.answers_numbered` tells its
answers in the course of any row of calls. Only a text that is no rule is refused, and
being refused leaves no trace: the rules that are compiled are numbered from one, without
a gap, whatever is refused between them. Each has the text and the formula that was asked
for, and lists the fields of its formula in the order of their bytes.

Both ways of asking are one step (`Compiler.call_eq`): a call asks for a rule, or its text
is none.
-/

namespace Rulebook

/-! ## The list of fields -/

/-- **A list of the fields of a formula**: all of them and no others, each once, in ascending
order of their UTF-8 bytes. -/
structure ListsFields (names : List String) (f : Formula) : Prop where
  /-- The list has the fields of the conditions. -/
  mem_iff : ∀ name, name ∈ names ↔ ∃ c ∈ f.conditions, c.field = name
  /-- Each is listed once. -/
  nodup : names.Nodup
  /-- Their bytes ascend. -/
  ascending : names.Pairwise fun a b => a.toUTF8.data.toList < b.toUTF8.data.toList

/-- **The fields that are found are listed.** -/
theorem Formula.listsFields (f : Formula) : ListsFields f.fields f where
  mem_iff _ := mem_fields_iff
  nodup := Table.nodup_keys _
  ascending := (Table.pairwise_keys _).imp utf8_lt_utf8_iff.mpr

namespace Compiler

/-! ## Calls -/

/-- **What a compiler is asked for.** -/
inductive Call where
  /-- A text, with what a rule that is made from it is given from outside. -/
  | ofText (stamp : Stamp) (text : String)
  /-- A rule that has been read already. -/
  | ofRule (rule : Rule)

/-- **A call**: the compiler afterwards, and what it returns. -/
def call (compiler : Compiler) : Call → Compiler × Except Malformed CompiledRule
  | .ofText stamp text => compiler.compile stamp text
  | .ofRule rule => ((compiler.compileRule rule).1, .ok (compiler.compileRule rule).2)

/-- **The rule that a call asks for**, or why its text is none. -/
def Call.asked : Call → Except Malformed Rule
  | .ofText stamp text => (parse text).map fun formula => ⟨stamp.id, text, formula, stamp.now⟩
  | .ofRule rule => .ok rule

/-- **Both ways of asking are one step**, which counts if there is a rule. -/
theorem call_eq (compiler : Compiler) (c : Call) :
    compiler.call c = match c.asked with
      | .ok rule => (⟨compiler.version + 1⟩,
          .ok ⟨rule, rule.formula.fields, compiler.version + 1⟩)
      | .error fault => (compiler, .error fault) := by
  cases c with
  | ofText stamp text =>
    rw [call, compile, Call.asked]
    cases parse text <;> rfl
  | ofRule rule => rfl

/-- What a row of calls makes of a compiler. -/
def after (compiler : Compiler) (calls : List Call) : Compiler :=
  calls.foldl (fun compiler c => (compiler.call c).1) compiler

/-- The answers in the course of a row of calls. -/
def answers : Compiler → List Call → List (Except Malformed CompiledRule)
  | _, [] => []
  | compiler, c :: calls => (compiler.call c).2 :: answers (compiler.call c).1 calls

/-- The rules that were compiled, in their order. -/
def compiledRules (answers : List (Except Malformed CompiledRule)) : List CompiledRule :=
  answers.filterMap Except.toOption

@[simp] theorem compiledRules_error (fault : Malformed)
    (answers : List (Except Malformed CompiledRule)) :
    compiledRules (.error fault :: answers) = compiledRules answers := rfl

@[simp] theorem compiledRules_ok (compiled : CompiledRule)
    (answers : List (Except Malformed CompiledRule)) :
    compiledRules (.ok compiled :: answers) = compiled :: compiledRules answers := rfl

/-- **What answers a call.** -/
structure Answers (c : Call) (answer : Except Malformed CompiledRule) : Prop where
  /-- Only a text that is no rule is refused. -/
  error_iff : ∀ fault, answer = .error fault ↔
    ∃ stamp text, c = .ofText stamp text ∧ parse text = .error fault
  /-- The rule of a text has that text, and the formula that it is read as. -/
  of_text : ∀ {stamp text compiled}, c = .ofText stamp text → answer = .ok compiled →
    ∃ formula, parse text = .ok formula ∧ compiled.rule = ⟨stamp.id, text, formula, stamp.now⟩
  /-- A rule that has been read already stays as it is. -/
  of_rule : ∀ {rule compiled}, c = .ofRule rule → answer = .ok compiled → compiled.rule = rule
  /-- A compiled rule lists the fields of its formula. -/
  fields : ∀ {compiled}, answer = .ok compiled →
    ListsFields compiled.requiredFields compiled.rule.formula

theorem answers_call (compiler : Compiler) (c : Call) : Answers c (compiler.call c).2 := by
  cases c with
  | ofRule rule =>
    refine ⟨fun fault => iff_of_false nofun nofun, nofun, ?_, ?_⟩
    · rintro _ _ ⟨⟩ ⟨⟩
      rfl
    · rintro _ ⟨⟩
      exact rule.formula.listsFields
  | ofText stamp text =>
    rw [call_eq, Call.asked]
    cases hparse : parse text with
    | error fault =>
      refine ⟨fun fault' => ⟨?_, ?_⟩, nofun, nofun, nofun⟩
      · rintro ⟨⟩
        exact ⟨stamp, text, rfl, hparse⟩
      · rintro ⟨_, _, ⟨⟩, hfault⟩
        cases hparse.symm.trans hfault
        rfl
    | ok formula =>
      refine ⟨fun fault => iff_of_false nofun ?_, ?_, nofun, ?_⟩
      · rintro ⟨_, _, ⟨⟩, hfault⟩
        cases hparse.symm.trans hfault
      · rintro _ _ _ ⟨⟩ ⟨⟩
        exact ⟨formula, hparse, rfl⟩
      · rintro _ ⟨⟩
        exact formula.listsFields

/-! ## Rows of calls -/

/-- Every call is answered. -/
theorem forall₂_answers (compiler : Compiler) (calls : List Call) :
    List.Forall₂ Answers calls (compiler.answers calls) := by
  induction calls generalizing compiler with
  | nil => exact .nil
  | cons c calls ih => exact .cons (answers_call compiler c) (ih _)

theorem after_append (compiler : Compiler) (earlier later : List Call) :
    compiler.after (earlier ++ later) = (compiler.after earlier).after later :=
  List.foldl_append

theorem answers_append (compiler : Compiler) (earlier later : List Call) :
    compiler.answers (earlier ++ later)
      = compiler.answers earlier ++ (compiler.after earlier).answers later := by
  induction earlier generalizing compiler with
  | nil => rfl
  | cons c earlier ih => exact congrArg (List.cons _) (ih _)

/-- **A text that is no rule changes nothing.** -/
theorem call_of_parse_error (compiler : Compiler) (stamp : Stamp) {text : String}
    {fault : Malformed} (h : parse text = .error fault) :
    compiler.call (.ofText stamp text) = (compiler, .error fault) := by
  rw [call_eq, Call.asked, h]
  rfl

/-- **The rules are numbered** from the count of the compiler on, one after the other. -/
theorem versions_answers (compiler : Compiler) (calls : List Call) :
    (compiledRules (compiler.answers calls)).map CompiledRule.version
      = List.range' (compiler.version + 1) (compiledRules (compiler.answers calls)).length := by
  induction calls generalizing compiler with
  | nil => rfl
  | cons c calls ih =>
    rw [answers, call_eq]
    cases c.asked with
    | error fault => exact ih compiler
    | ok rule =>
      rw [compiledRules_ok, List.map_cons, List.length_cons, List.range'_succ, ih]

/-- **The count** goes up with each rule that is compiled. -/
theorem version_after (compiler : Compiler) (calls : List Call) :
    (compiler.after calls).version
      = compiler.version + (compiledRules (compiler.answers calls)).length := by
  induction calls generalizing compiler with
  | nil => rfl
  | cons c calls ih =>
    rw [after, List.foldl_cons, ← after, ih, answers, call_eq]
    cases c.asked with
    | error fault => rfl
    | ok rule => rw [compiledRules_ok, List.length_cons, Nat.add_assoc, Nat.add_comm 1]

/-- **What a new compiler answers** in the course of any row of calls. Every call is answered
as `Answers` tells, and the rules that are compiled are numbered from one on in their order.
A text that is no rule leaves the compiler as it was, so all that comes later is answered as
without it. The count is never above the number of calls: sixty-four bits are enough for it
in a row of fewer than `2 ^ 64`. -/
theorem answers_numbered (calls : List Call) :
    List.Forall₂ Answers calls (fresh.answers calls) ∧
      (compiledRules (fresh.answers calls)).map CompiledRule.version
        = List.range' 1 (compiledRules (fresh.answers calls)).length ∧
      (∀ earlier stamp text later fault, calls = earlier ++ .ofText stamp text :: later →
        parse text = .error fault →
        fresh.after (earlier ++ [.ofText stamp text]) = fresh.after earlier ∧
          fresh.answers calls
            = fresh.answers earlier ++ .error fault :: (fresh.after earlier).answers later) ∧
      (fresh.after calls).version ≤ calls.length := by
  have hanswers : List.Forall₂ Answers calls (fresh.answers calls) := forall₂_answers fresh calls
  refine ⟨hanswers, versions_answers fresh calls, ?_, ?_⟩
  · rintro earlier stamp text later fault rfl hfault
    have hcall := call_of_parse_error (fresh.after earlier) stamp hfault
    constructor
    · rw [after_append]
      exact congrArg Prod.fst hcall
    · rw [answers_append, answers, hcall]
  · calc (fresh.after calls).version
        = (compiledRules (fresh.answers calls)).length :=
          (version_after fresh calls).trans (Nat.zero_add _)
      _ ≤ (fresh.answers calls).length := List.length_filterMap_le _ _
      _ = calls.length := hanswers.length_eq.symm

end Compiler

end Rulebook
