import Rulebook.Formula.Document
import Rulebook.Proofs.Json.RoundTrip
import Rulebook.Proofs.Normal
import Rulebook.Proofs.Parsing

/-!
# The document of a formula as text

Every formula has a document that can be written: a number that is not finite is
`null` there, and a whole number is only written as an integer if it is small
enough. How deep the document is nested follows from the levels of the formula,
one object for each and one more for the conditions at the bottom, so the
document of a formula that is parsed is far from being nested too deep.
-/

namespace Rulebook

namespace Value

theorem isWritable_numberDocument (x : Binary64) : (numberDocument x).isWritable := by
  unfold numberDocument
  cases h : x.toInt? with
  | some n =>
    dsimp only
    by_cases hn : -integerLimit < n ∧ n < integerLimit
    · rw [if_pos hn]
      unfold integerLimit at hn
      rw [Json.isWritable]
      exact decide_eq_true (by omega)
    · rw [if_neg hn, Json.isWritable]
      exact Binary64.isFinite_of_toInt? h
  | none =>
    dsimp only
    by_cases hx : x.isFinite
    · rw [if_pos hx, Json.isWritable]
      exact hx
    · rw [if_neg hx, Json.isWritable]

theorem isWritable_toDocument (v : Value) : v.toDocument.isWritable := by
  cases v with
  | number x => exact isWritable_numberDocument x
  | text s => rw [toDocument, Json.isWritable]
  | truth b => rw [toDocument, Json.isWritable]
  | null => rw [toDocument, Json.isWritable]

theorem nesting_toDocument (v : Value) : v.toDocument.nesting = 0 := by
  cases v with
  | number x =>
    show (numberDocument x).nesting = 0
    obtain ⟨n, -, hdoc⟩ | ⟨-, -, hdoc⟩ | ⟨-, hdoc⟩ := numberDocument_cases x
    all_goals rw [hdoc, Json.nesting]
  | text s => rw [toDocument, Json.nesting]
  | truth b => rw [toDocument, Json.nesting]
  | null => rw [toDocument, Json.nesting]

end Value

namespace Formula

/-- **The document of a formula can be written.** -/
theorem isWritable_toDocument (f : Formula) : f.toDocument.isWritable := by
  induction f with
  | condition c =>
    simp [toDocument, Condition.toDocument, Json.isWritable, Json.membersWritable,
      Value.isWritable_toDocument]
  | join op left right ihleft ihright =>
    simp [toDocument, Json.isWritable, Json.membersWritable, ihleft, ihright]

/-- **Each level of a formula is one object**, and a condition is one more. -/
theorem nesting_toDocument (f : Formula) : f.toDocument.nesting = f.depth + 1 := by
  induction f with
  | condition c =>
    simp [toDocument, Condition.toDocument, Json.nesting, Json.membersNesting,
      Value.nesting_toDocument, depth]
  | join op left right ihleft ihright =>
    simp [toDocument, Json.nesting, Json.membersNesting, ihleft, ihright, depth]

/-- A formula that is parsed has at most `depthLimit` levels. -/
theorem depth_le_of_parse {text : String} {f : Formula} (h : parse text = .ok f) :
    f.depth ≤ depthLimit :=
  (derives_of_parseTokens h).2

end Formula

end Rulebook
