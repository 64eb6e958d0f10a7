import Rulebook.Formula.Document
import Rulebook.Proofs.Normal

/-!
# A document gives back the normal form

A formula is kept as a document whose members are sorted, and read back from
it. The writer and the reader share no code: the writer puts down one form,
the reader goes through members in any order and accepts rows of items too.
`ofDocument_sorted_toDocument` says what the way there and back does, for
formulas of any depth: it gives the normal form of the formula, so the formula
itself exactly if it is storable, and the normal form has the document of the
formula again.

Only the sorted form of a node matters to the reader, so the two shapes of node
are put down once (`sorted_toDocument_condition`, `sorted_toDocument_join`),
and everything else is read off them.
-/

namespace Rulebook

namespace Condition

/-- The document of a condition is sorted already. -/
theorem sorted_toDocument (c : Condition) : c.toDocument.sorted = c.toDocument := by
  have hliteral : c.literal.toDocument.sorted = c.literal.toDocument := by
    cases hv : c.literal with
    | number x =>
      show (Value.numberDocument x).sorted = Value.numberDocument x
      obtain ⟨n, -, hdoc⟩ | ⟨-, -, hdoc⟩ | ⟨-, hdoc⟩ := Value.numberDocument_cases x
      all_goals rw [hdoc, Json.sorted]
    | text s => exact Json.sorted.eq_def _
    | truth b => exact Json.sorted.eq_def _
    | null => exact Json.sorted.eq_def _
  show Json.object [("condition", .string c.field), ("operator", .string c.comparator.text),
    ("value", c.literal.toDocument.sorted)] = c.toDocument
  rw [hliteral, toDocument]

/-- **What is read from the document of a condition is its normal form.** -/
theorem ofDocument_toDocument (c : Condition) : ofDocument c.toDocument = .ok c.normal := by
  simp [toDocument, ofDocument, ofMembers, Json.readText, Comparator.ofDocument,
    Value.ofDocument_toDocument, ConditionParts.whole, normal, bind, Except.bind, pure, Except.pure]

end Condition

namespace Formula

/-- The sorted document of a single condition. -/
theorem sorted_toDocument_condition (c : Condition) :
    (condition c).toDocument.sorted = .object [("left", .null), ("right", .null),
      ("type", .string "operand"), ("value", c.toDocument)] := by
  show Json.object [("left", .null), ("right", .null), ("type", .string "operand"),
    ("value", c.toDocument.sorted)] = _
  rw [c.sorted_toDocument]

/-- The sorted document of two formulas that are joined. -/
theorem sorted_toDocument_join (op : Connective) (left right : Formula) :
    (join op left right).toDocument.sorted = .object [("left", left.toDocument.sorted),
      ("right", right.toDocument.sorted), ("type", .string "operator"),
      ("value", .string op.text)] :=
  rfl

/-- The node of a formula is read as its normal form, wherever it stands. -/
theorem ofNode_sorted_toDocument (outermost : Bool) (f : Formula) :
    ofNode outermost f.toDocument.sorted = .ok f.normal := by
  -- the sides of a node are not outermost, whatever the node is
  induction f generalizing outermost with
  | condition c =>
    rw [sorted_toDocument_condition]
    simp [ofNode, NodeKind.ofMembers, NodeKind.ofDocument, NodeKind.ofName, operandOfMembers,
      c.ofDocument_toDocument, normal, bind, Except.bind]
  | join op left right ihleft ihright =>
    rw [sorted_toDocument_join]
    simp [ofNode, NodeKind.ofMembers, NodeKind.ofDocument, NodeKind.ofName, operatorOfMembers,
      ihleft, ihright, Connective.ofDocument, Json.readText, OperatorParts.whole, normal, bind,
      Except.bind, pure, Except.pure]

/-- A formula and its normal form have the same document. -/
theorem toDocument_normal (f : Formula) : f.normal.toDocument = f.toDocument := by
  induction f with
  | condition c =>
    simp only [normal, toDocument, Condition.toDocument, Condition.normal, Comparator.text_normal,
      Value.toDocument_normal]
  | join op left right ihleft ihright =>
    rw [normal, toDocument, toDocument, ihleft, ihright, Connective.text_normal]

/-- **A document gives back the normal form of its formula**, of any depth. So
it gives back a formula that equals the one it was made from exactly if that
one is storable, and what it gives back has the same document again. -/
theorem ofDocument_sorted_toDocument (f : Formula) :
    ofDocument f.toDocument.sorted = .ok f.normal ∧
      ((∃ g, ofDocument f.toDocument.sorted = .ok g ∧ g.same f = true) ↔ f.isStorable = true) ∧
      f.normal.toDocument.sorted = f.toDocument.sorted := by
  have hread : ofDocument f.toDocument.sorted = .ok f.normal := ofNode_sorted_toDocument true f
  refine ⟨hread, ?_, ?_⟩
  · rw [hread, ← same_normal_iff]
    constructor
    · rintro ⟨g, hg, hsame⟩
      cases hg
      exact hsame
    · intro hsame
      exact ⟨f.normal, rfl, hsame⟩
  · rw [toDocument_normal]

end Formula

end Rulebook
