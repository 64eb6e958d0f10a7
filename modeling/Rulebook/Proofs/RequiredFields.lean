import Rulebook.Compiler
import Rulebook.Proofs.DocumentEvaluation
import Rulebook.Proofs.EvaluationReport
import Rulebook.Proofs.Table

/-!
# The fields that a rule asks for

A compiled rule tells which fields it asks for. They are found by a walk of its own through
the formula, which does not look at what an evaluation does. `evaluation_eq_of_sameFields` says
that they are enough: on two records that give the same values for these fields every
evaluation comes out the same, with all that it reports, and whether it goes over the formula
or over its document. So a record can be cut down to these fields, and whatever else it holds
is not found out.

Below a connective that is not known the verdicts of the sides do not count, but they are
reported, so the fields of these sides are asked for as well.

An evaluation sees a record only through the verdicts of conditions (`Formula.run_congr`,
`Formula.holds_congr`), and a condition sees it only through its field
(`Condition.holds_congr`).
-/

namespace Rulebook

/-! ## The fields of a formula -/

/-- A row of fields put into a table is found there, with what was there before. -/
theorem isSome_get?_foldl_insert (conditions : List Condition) (t : Table Unit) (name : String) :
    ((conditions.foldl (fun t c => t.insert c.field ()) t).get? name).isSome ↔
      (∃ c ∈ conditions, c.field = name) ∨ (t.get? name).isSome := by
  induction conditions generalizing t with
  | nil => simp
  | cons c conditions ih =>
    rw [List.foldl_cons, ih, Table.get?_insert, List.exists_mem_cons_iff]
    by_cases hname : c.field = name
    · simp [hname]
    · simp [hname]

/-- **The fields of a formula** are those of its conditions. -/
theorem Formula.mem_fields_iff {f : Formula} {name : String} :
    name ∈ f.fields ↔ ∃ c ∈ f.conditions, c.field = name := by
  rw [fields, Table.mem_keys_iff, isSome_get?_foldl_insert]
  simp

/-- **What a compiler makes** of a rule that has been read, or of a text. -/
inductive IsCompiled : CompiledRule → Prop where
  /-- A rule, which may have been put together by hand. -/
  | ofRule (compiler : Compiler) (rule : Rule) : IsCompiled (compiler.compileRule rule).2
  /-- A text that is a rule. -/
  | ofText {compiler : Compiler} {stamp : Compiler.Stamp} {text : String} {compiled : CompiledRule}
    (h : (compiler.compile stamp text).2 = .ok compiled) : IsCompiled compiled

/-- **A compiled rule asks for the fields of its formula.** -/
theorem IsCompiled.requiredFields_eq {compiled : CompiledRule} (h : IsCompiled compiled) :
    compiled.requiredFields = compiled.rule.formula.fields := by
  cases h with
  | ofRule compiler rule => rfl
  | @ofText compiler stamp text _ h =>
    rw [Compiler.compile] at h
    cases hparse : parse text with
    | error fault => rw [hparse] at h; cases h
    | ok f =>
      rw [hparse] at h
      cases h
      rfl

/-! ## The same value -/

/-- **Whether a field gives the same value twice**: it is missing both times, or it has the
same value, or two that are equal as numbers. -/
inductive SameField : Option Value → Option Value → Prop where
  /-- Missing, or the same value. -/
  | refl (field : Option Value) : SameField field field
  /-- Values that are equal, as the two zeros are. -/
  | same {v w : Value} (h : v.same w) : SameField (some v) (some w)

/-- Numbers that are equal stand at one place. -/
theorem Binary64.position_eq_of_same {x y : Binary64} (h : x.same y) :
    x.position = y.position := by
  rw [same, beq_iff_eq, order] at h
  cases hx : x.position with
  | none => rw [hx] at h; cases h
  | some p =>
    cases hy : y.position with
    | none => rw [hx, hy] at h; cases h
    | some q =>
      rw [hx, hy, Option.some_inj, Std.compare_eq_iff_eq] at h
      rw [h]

/-- Values that are equal are the same, or numbers that stand at one place. -/
theorem Value.cases_of_same {v w : Value} (h : v.same w) :
    v = w ∨ ∃ x y, v = .number x ∧ w = .number y ∧ x.position = y.position := by
  cases v with
  | number x =>
    cases w with
    | number y => exact .inr ⟨x, y, rfl, rfl, Binary64.position_eq_of_same h⟩
    | _ => cases h
  | text s =>
    cases w with
    | text t => exact .inl (congrArg text (beq_iff_eq.mp h))
    | _ => cases h
  | truth a =>
    cases w with
    | truth b => exact .inl (congrArg truth (beq_iff_eq.mp h))
    | _ => cases h
  | null =>
    cases w with
    | null => exact .inl rfl
    | _ => cases h

/-- Numbers that stand at one place compare alike with every value. -/
theorem Comparator.holds_of_position {x y : Binary64} (h : x.position = y.position)
    (c : Comparator) (literal : Value) :
    c.holds (some (.number x)) literal = c.holds (some (.number y)) literal := by
  have horder (z : Binary64) : x.order z = y.order z := by
    rw [Binary64.order, Binary64.order, h]
  have hsame (z : Binary64) : x.same z = y.same z := by
    rw [Binary64.same, Binary64.same, horder]
  refine c.holds_congr ?_ ?_
  · cases literal with
    | null => rfl
    | _ => exact hsame _
  · cases literal <;> exact horder _

/-- **No comparator tells apart fields that give the same value.** -/
theorem SameField.holds_eq {field field' : Option Value} (h : SameField field field')
    (c : Comparator) (literal : Value) : c.holds field literal = c.holds field' literal := by
  cases h with
  | refl => rfl
  | same h =>
    obtain rfl | ⟨x, y, rfl, rfl, hposition⟩ := Value.cases_of_same h
    · rfl
    · exact c.holds_of_position hposition literal

/-! ## The same evaluation -/

section Congr

variable {record record' : Record}

/-- **A condition sees nothing of a record but its field.** -/
theorem Condition.holds_congr {c : Condition}
    (h : SameField (record.get? c.field) (record'.get? c.field)) :
    c.holds record = c.holds record' :=
  h.holds_eq c.comparator c.literal

namespace Formula

/-- **An evaluation sees nothing of a record but the verdicts of the conditions.** -/
theorem run_congr {f : Formula} (h : ∀ c ∈ f.conditions, c.holds record = c.holds record')
    (traced : Bool) (path : String) : f.run traced record path = f.run traced record' path := by
  induction f generalizing path with
  | condition c =>
    have hc : c.holds record = c.holds record' := h c List.mem_cons_self
    rw [run, run, Condition.report, Condition.report, hc]
  | join op left right ihleft ihright =>
    rw [conditions, List.forall_mem_append] at h
    rw [run, run, ihleft h.1, ihright h.2]

theorem holds_congr {f : Formula} (h : ∀ c ∈ f.conditions, c.holds record = c.holds record') :
    f.holds record = f.holds record' := by
  have hverdict := congrArg Report.verdict (run_congr h false rootPath)
  rwa [verdict_run, verdict_run] at hverdict

/-- The conditions of the normal form are the normal forms of the conditions. -/
theorem conditions_normal (f : Formula) :
    f.normal.conditions = f.conditions.map Condition.normal := by
  induction f with
  | condition c => rfl
  | join op left right ihleft ihright =>
    rw [normal, conditions, conditions, List.map_append, ihleft, ihright]

end Formula

end Congr

/-- **Nothing but the required fields counts.** On two records that give the same values for
the fields that a compiled rule asks for, its evaluation reports the same verdict, the same
conditions and the same trace, its verdict alone is the same, and so is the verdict on the
document of its formula. -/
theorem evaluation_eq_of_sameFields {compiled : CompiledRule} (hcompiled : IsCompiled compiled)
    {record record' : Record}
    (h : ∀ name ∈ compiled.requiredFields, SameField (record.get? name) (record'.get? name)) :
    (∀ traced, runRule traced (some compiled.rule.formula) record
      = runRule traced (some compiled.rule.formula) record') ∧
    ruleHolds (some compiled.rule.formula) record
      = ruleHolds (some compiled.rule.formula) record' ∧
    documentHolds record compiled.rule.formula.toDocument.sorted
      = documentHolds record' compiled.rule.formula.toDocument.sorted := by
  have hfield : ∀ c ∈ compiled.rule.formula.conditions,
      SameField (record.get? c.field) (record'.get? c.field) := by
    intro c hc
    refine h c.field ?_
    rw [hcompiled.requiredFields_eq]
    exact Formula.mem_fields_iff.mpr ⟨c, hc, rfl⟩
  have hholds : ∀ c ∈ compiled.rule.formula.conditions, c.holds record = c.holds record' :=
    fun c hc => Condition.holds_congr (hfield c hc)
  -- the document is evaluated as the normal form, which has the same fields
  have hnormal : ∀ c ∈ compiled.rule.formula.normal.conditions,
      c.holds record = c.holds record' := by
    rw [Formula.conditions_normal, List.forall_mem_map]
    exact fun c hc => Condition.holds_congr (hfield c hc)
  refine ⟨fun traced => Formula.run_congr hholds traced rootPath, Formula.holds_congr hholds, ?_⟩
  rw [documentHolds_sorted, documentHolds_sorted, documentHolds_toDocument,
    documentHolds_toDocument]
  exact Formula.holds_congr hnormal

/-- A rule with a field that is only asked for below a connective that is not known. -/
def halfBlindRule : Rule :=
  ⟨"1", "", .join .or (.condition ⟨"a", .le, .text "0"⟩)
    (.join (.other "XOR") (.condition ⟨"b", .ne, .number .nan⟩) (.condition ⟨"a", .gt, .null⟩)),
    ⟨1970, 1, 1, 0, 0, 0, 0⟩⟩

/-- A record with a zero. -/
def shortRecord : Record := Table.empty.insert "a" (.number .zero)

/-- A record with the other zero, and a field that the rule does not ask for. -/
def longRecord : Record :=
  (Table.empty.insert "a" (.number (.finite true .zero))).insert "c" (.text "b")

/-- Neither the sign of a zero nor another field is found out. -/
theorem evaluation_eq_halfBlindRule :
    IsCompiled (Compiler.fresh.compileRule halfBlindRule).2 ∧
      (∀ name ∈ (Compiler.fresh.compileRule halfBlindRule).2.requiredFields,
        SameField (shortRecord.get? name) (longRecord.get? name)) ∧
      runRule true (some halfBlindRule.formula) shortRecord
        = runRule true (some halfBlindRule.formula) longRecord ∧
      documentHolds shortRecord halfBlindRule.formula.toDocument.sorted
        = documentHolds longRecord halfBlindRule.formula.toDocument.sorted := by
  have hcompiled := IsCompiled.ofRule Compiler.fresh halfBlindRule
  have hfields : (Compiler.fresh.compileRule halfBlindRule).2.requiredFields = ["a", "b"] := by
    decide
  have hsame : ∀ name ∈ (Compiler.fresh.compileRule halfBlindRule).2.requiredFields,
      SameField (shortRecord.get? name) (longRecord.get? name) := by
    rw [hfields, List.forall_mem_cons, List.forall_mem_singleton]
    exact ⟨.same (by decide), .refl none⟩
  obtain ⟨hrun, -, hdocument⟩ := evaluation_eq_of_sameFields hcompiled hsame
  exact ⟨hcompiled, hsame, hrun true, hdocument⟩

end Rulebook
