import Rulebook.Evaluation.Document
import Rulebook.Proofs.DocumentRoundTrip
import Rulebook.Proofs.Json.Sorted
import Rulebook.Proofs.Combination

/-!
# Evaluating a document is evaluating its formula

A document is evaluated as it stands: the evaluator looks up a type, tells
apart what to do by its name, looks up sides, a connective or the parts of a
condition, and lets a node fail where anything is missing. The evaluator of
formulas does none of this. `documentHolds_eq_ruleHolds` says that on the
document of a storable formula the two give the same verdict, for every
record, and that every formula of a text or of several texts is storable.

What the evaluator of documents does is put down once for each type of node
(`documentHolds_operator`, `documentHolds_operand`, `documentHolds_of_type`).
From these follow that it does not matter whether a document is sorted
(`documentHolds_sorted`), by induction on the size of the document, and what
the verdict on the document of any formula is (`documentHolds_toDocument`), by
induction on the formula.
-/

namespace Rulebook

variable {record : Record}

/-! ## One node at a time -/

/-- The verdict on a side of a node; one that is missing does not hold. -/
def sideHolds (record : Record) (side : Option Json) : Bool :=
  side.elim false (documentHolds record)

@[simp] theorem sideHolds_some (side : Json) :
    sideHolds record (some side) = documentHolds record side := rfl

@[simp] theorem sideHolds_none : sideHolds record none = false := rfl

/-- **The verdict on an operator** is that of its connective on its sides. -/
theorem documentHolds_operator {doc : Json} (h : typeOfNode? doc = some "operator") :
    documentHolds record doc = (connectiveOfNode? doc).elim false fun op =>
      op.verdict (sideHolds record (doc.get? "left")) (sideHolds record (doc.get? "right")) := by
  have hnull : doc ≠ .null := by
    rintro rfl
    cases h
  rw [documentHolds]
  · simp only [h]
    cases connectiveOfNode? doc with
    | none => rfl
    | some op =>
      show op.verdict _ _ = op.verdict _ _
      congr 1
      · split
        · rename_i side hget
          rw [hget, sideHolds_some]
        · rename_i hget
          rw [hget, sideHolds_none]
      · split
        · rename_i side hget
          rw [hget, sideHolds_some]
        · rename_i hget
          rw [hget, sideHolds_none]
  · exact hnull

/-- **The verdict on an operand** is that of its condition, if it has one. -/
theorem documentHolds_operand {doc : Json} (h : typeOfNode? doc = some "operand") :
    documentHolds record doc = (conditionOfNode? doc).elim false fun c => c.holds record := by
  have hnull : doc ≠ .null := by
    rintro rfl
    cases h
  rw [documentHolds]
  · simp only [h]
    cases conditionOfNode? doc <;> rfl
  · exact hnull

/-- A node of another type does not hold. -/
theorem documentHolds_of_type {doc : Json} (hnull : doc ≠ .null)
    (hoperator : typeOfNode? doc ≠ some "operator") (hoperand : typeOfNode? doc ≠ some "operand") :
    documentHolds record doc = false := by
  rw [documentHolds]
  · split
    · rename_i h
      exact absurd h hoperator
    · rename_i h
      exact absurd h hoperand
    · rfl
  · exact hnull

/-! ## Sorting does not matter -/

theorem typeOfNode?_sorted (doc : Json) : typeOfNode? doc.sorted = typeOfNode? doc := by
  rw [typeOfNode?, typeOfNode?, Json.get?_sorted]
  cases doc.get? "type" with
  | none => rfl
  | some type => exact type.asText?_sorted

theorem connectiveOfNode?_sorted (doc : Json) :
    connectiveOfNode? doc.sorted = connectiveOfNode? doc := by
  rw [connectiveOfNode?, connectiveOfNode?, Json.get?_sorted]
  cases doc.get? "value" with
  | none => rfl
  | some value =>
    show (value.sorted.asText?.bind fun text => some (Connective.ofText text)) = _
    rw [value.asText?_sorted]
    rfl

/-- A single value is sorted already, and nothing else becomes one. -/
theorem toOption_ofDocument_sorted (doc : Json) :
    (Value.ofDocument doc.sorted).toOption = (Value.ofDocument doc).toOption := by
  cases doc <;> rw [Json.sorted] <;> rfl

theorem conditionOfNode?_sorted (doc : Json) :
    conditionOfNode? doc.sorted = conditionOfNode? doc := by
  unfold conditionOfNode?
  rw [Json.get?_sorted]
  cases doc.get? "value" with
  | none => rfl
  | some value =>
    simp only [Option.map_some, Option.bind_eq_bind, Option.bind_some, Json.get?_sorted,
      Option.bind_map, Function.comp_def, Json.asText?_sorted, toOption_ofDocument_sorted]

/-- **A document holds where its sorted form holds.** -/
theorem documentHolds_sorted (record : Record) (doc : Json) :
    documentHolds record doc.sorted = documentHolds record doc := by
  -- the sides of a node are smaller than the node
  induction hn : sizeOf doc using Nat.strongRecOn generalizing doc with
  | ind n ih =>
    have hside (key : String) :
        sideHolds record (doc.sorted.get? key) = sideHolds record (doc.get? key) := by
      rw [Json.get?_sorted]
      cases hget : doc.get? key with
      | none => rfl
      | some side => exact ih _ (hn ▸ Json.sizeOf_lt_of_get? hget) side rfl
    by_cases hnull : doc = .null
    · rw [hnull, Json.sorted]
    by_cases hoperator : typeOfNode? doc = some "operator"
    · rw [documentHolds_operator hoperator,
        documentHolds_operator ((typeOfNode?_sorted doc).trans hoperator),
        connectiveOfNode?_sorted, hside, hside]
    by_cases hoperand : typeOfNode? doc = some "operand"
    · rw [documentHolds_operand hoperand,
        documentHolds_operand ((typeOfNode?_sorted doc).trans hoperand), conditionOfNode?_sorted]
    · have htype := typeOfNode?_sorted doc
      rw [documentHolds_of_type hnull hoperator hoperand,
        documentHolds_of_type (fun h => hnull (Json.sorted_eq_null_iff.mp h))
          (htype ▸ hoperator) (htype ▸ hoperand)]

/-! ## The document of a formula -/

/-- **The document of a formula holds where the normal form of the formula
holds.** -/
theorem documentHolds_toDocument (record : Record) (f : Formula) :
    documentHolds record f.toDocument = f.normal.holds record := by
  induction f with
  | condition c =>
    have htype : typeOfNode? (Formula.condition c).toDocument = some "operand" := by
      simp [Formula.toDocument, typeOfNode?, Json.get?, Json.lookupLast, Json.asText?]
    have hcondition : conditionOfNode? (Formula.condition c).toDocument = some c.normal := by
      simp [Formula.toDocument, Condition.toDocument, conditionOfNode?, Json.get?,
        Json.lookupLast, Json.asText?, Value.ofDocument_toDocument, Except.toOption,
        Condition.normal]
    rw [documentHolds_operand htype, hcondition]
    rfl
  | join op left right ihleft ihright =>
    have htype : typeOfNode? (Formula.join op left right).toDocument = some "operator" := by
      simp [Formula.toDocument, typeOfNode?, Json.get?, Json.lookupLast, Json.asText?]
    have hop : connectiveOfNode? (Formula.join op left right).toDocument = some op.normal := by
      simp [Formula.toDocument, connectiveOfNode?, Json.get?, Json.lookupLast, Json.asText?]
    have hleft : (Formula.join op left right).toDocument.get? "left" = some left.toDocument := by
      simp [Formula.toDocument, Json.get?, Json.lookupLast]
    have hright :
        (Formula.join op left right).toDocument.get? "right" = some right.toDocument := by
      simp [Formula.toDocument, Json.get?, Json.lookupLast]
    rw [documentHolds_operator htype, hop, hleft, hright, sideHolds_some, sideHolds_some, ihleft,
      ihright]
    rfl

/-- **Evaluating the document of a formula is evaluating the formula**, on
every record, if the formula is storable. The formulas of texts are, one by one
or combined. -/
theorem documentHolds_eq_ruleHolds :
    (∀ (f : Formula) (record : Record), f.isStorable = true →
      documentHolds record f.toDocument.sorted = ruleHolds (some f) record) ∧
    (∀ text f, parse text = .ok f → f.isStorable = true) ∧
    ∀ rules f, combine rules = .ok (some f) → f.isStorable = true := by
  refine ⟨fun f record hf => ?_, fun _ _ => isStorable_of_parse, fun _ _ => isStorable_of_combine⟩
  rw [documentHolds_sorted, documentHolds_toDocument]
  exact Formula.holds_normal hf record

/-- A comparator that is not known fails alone, in the document as in the
formula. -/
theorem documentHolds_unknown_comparator :
    documentHolds (Table.empty.insert "a" (.text "y"))
      (Formula.join .or (.condition ⟨"a", .other "==", .text "y"⟩)
        (.condition ⟨"a", .ne, .text "x"⟩)).toDocument.sorted = true := by
  rw [documentHolds_eq_ruleHolds.1 _ _ rfl]
  decide

end Rulebook
