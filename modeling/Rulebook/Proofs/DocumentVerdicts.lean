import Rulebook.Proofs.DocumentEvaluation
import Rulebook.Proofs.DocumentForms
import Rulebook.Proofs.Monotonicity

/-!
# Verdicts on what is decoded

The decoder takes more forms than the evaluator of documents looks at. It takes nodes and
conditions that are rows of items, and inside another node a type that is a number
(`Formula.Written`). The evaluator knows objects with a type that is a text, and of the
operands those with a condition that is an object (`isKnownNode`). To it any other node
is one that does not hold, which is less than the formula of the node may say
(`not_forall_documentHolds_eq_ruleHolds`).

`documentHolds_of_ofDocument` says how far the two agree. On a document that is decoded
the verdict is that of the formula, if every node that is not known is taken for one that
does not hold (`Formula.holdsIn`). So a document holds only where its formula holds, and
where all nodes are known the two verdicts are the same.
-/

namespace Rulebook

variable {record : Record} {doc : Json} {f : Formula}

/-! ## Known nodes -/

/-- Whether a document is an object. -/
def Json.isObject : Json → Bool
  | .object _ => true
  | _ => false

/-- **Whether the evaluator of documents knows a node**: it has a type that is a text, and
if it is an operand a condition that is an object. -/
def isKnownNode (doc : Json) : Bool :=
  match typeOfNode? doc with
  | some "operator" => true
  | some "operand" => (doc.get? "value").any Json.isObject
  | _ => false

theorem isKnownNode_operator (h : typeOfNode? doc = some "operator") : isKnownNode doc = true := by
  simp [isKnownNode, h]

theorem isKnownNode_operand (h : typeOfNode? doc = some "operand") :
    isKnownNode doc = (doc.get? "value").any Json.isObject := by
  simp [isKnownNode, h]

theorem isKnownNode_of_type (h : typeOfNode? doc = none) : isKnownNode doc = false := by
  simp [isKnownNode, h]

namespace Formula

/-- **The verdict on a formula of a document** if every node that is not known is taken
for one that does not hold. -/
def holdsIn (record : Record) : Formula → Json → Bool
  | .condition c, doc => isKnownNode doc && c.holds record
  | .join op f g, doc => isKnownNode doc && op.verdict
      ((doc.get? "left").any (f.holdsIn record)) ((doc.get? "right").any (g.holdsIn record))

/-- **Whether all nodes of a formula are known** in its document. -/
def isKnownIn : Formula → Json → Bool
  | .condition _, doc => isKnownNode doc
  | .join _ f g, doc =>
    isKnownNode doc && (doc.get? "left").any f.isKnownIn && (doc.get? "right").any g.isKnownIn

end Formula

namespace Formula

theorem holds_of_holdsIn (h : f.holdsIn record doc = true) : f.holds record = true := by
  induction f generalizing doc with
  | condition c =>
    rw [holdsIn, Bool.and_eq_true] at h
    exact h.2
  | join op f g ihf ihg =>
    rw [holdsIn, Bool.and_eq_true] at h
    refine Connective.verdict_mono ?_ ?_ h.2
    · intro hleft
      obtain ⟨left, -, hleft⟩ := (Option.any_eq_true ..).mp hleft
      exact ihf hleft
    · intro hright
      obtain ⟨right, -, hright⟩ := (Option.any_eq_true ..).mp hright
      exact ihg hright

theorem holdsIn_of_isKnownIn (h : f.isKnownIn doc = true) :
    f.holdsIn record doc = f.holds record := by
  induction f generalizing doc with
  | condition c =>
    rw [isKnownIn] at h
    rw [holdsIn, h, Bool.true_and]
    rfl
  | join op f g ihf ihg =>
    rw [isKnownIn, Bool.and_eq_true, Bool.and_eq_true] at h
    obtain ⟨⟨hnode, hleft⟩, hright⟩ := h
    obtain ⟨left, hgetLeft, hleft⟩ := (Option.any_eq_true ..).mp hleft
    obtain ⟨right, hgetRight, hright⟩ := (Option.any_eq_true ..).mp hright
    rw [holdsIn, hnode, hgetLeft, hgetRight, Option.any_some, Option.any_some, ihf hleft,
      ihg hright, Bool.true_and]
    rfl

end Formula

/-! ## The two verdicts -/

/-- A node whose type is not a text does not hold. -/
theorem documentHolds_of_typeOfNode?_none (hnull : doc ≠ .null) (h : typeOfNode? doc = none) :
    documentHolds record doc = false :=
  documentHolds_of_type hnull (by simp [h]) (by simp [h])

/-- The condition of a node is found, if it is an object. -/
theorem conditionOfNode?_of_written {value : Json} {c : Condition}
    (hvalue : doc.get? "value" = some value) (h : Condition.Written value c) :
    conditionOfNode? doc = if value.isObject then some c else none := by
  cases h with
  | members hfield hcomparator hget hliteral =>
    cases value with
    | object members =>
      simp [conditionOfNode?, hvalue, hfield, hcomparator, hget, hliteral, Json.asText?,
        Except.toOption, Json.isObject]
    | _ => cases hfield
  | items hliteral =>
    rw [conditionOfNode?, hvalue]
    rfl

/-- **What a written document says is what its known nodes say.** -/
theorem documentHolds_of_written {outermost : Bool} (h : Formula.Written outermost doc f) :
    documentHolds record doc = f.holdsIn record doc := by
  induction h with
  | @operator outermost doc kind left right op f g htype hkind hleft hright hop _ _ ihf ihg =>
    have hnull : doc ≠ .null := by
      rintro rfl
      cases htype
    cases hkind with
    | operator =>
      have hname : typeOfNode? doc = some "operator" := by rw [typeOfNode?, htype]; rfl
      have hconnective : connectiveOfNode? doc = some (.ofText op) := by
        rw [connectiveOfNode?, hop]
        rfl
      rw [documentHolds_operator hname, hconnective, hleft, hright, sideHolds_some, sideHolds_some,
        ihf, ihg, Formula.holdsIn, isKnownNode_operator hname, hleft, hright]
      rfl
    | zero =>
      have hname : typeOfNode? doc = none := by rw [typeOfNode?, htype]; rfl
      rw [documentHolds_of_typeOfNode?_none hnull hname, Formula.holdsIn, isKnownNode_of_type hname,
        Bool.false_and]
  | @operand outermost doc kind value c htype hkind hvalue hc =>
    have hnull : doc ≠ .null := by
      rintro rfl
      cases htype
    cases hkind with
    | operand =>
      have hname : typeOfNode? doc = some "operand" := by rw [typeOfNode?, htype]; rfl
      rw [documentHolds_operand hname, conditionOfNode?_of_written hvalue hc, Formula.holdsIn,
        isKnownNode_operand hname, hvalue, Option.any_some]
      cases value.isObject <;> rfl
    | one =>
      have hname : typeOfNode? doc = none := by rw [typeOfNode?, htype]; rfl
      rw [documentHolds_of_typeOfNode?_none hnull hname, Formula.holdsIn, isKnownNode_of_type hname,
        Bool.false_and]
  | operatorRow => exact documentHolds_of_typeOfNode?_none (by simp) rfl
  | operandRow => exact documentHolds_of_typeOfNode?_none (by simp) rfl

/-- **A document that is decoded holds where the known nodes of its formula let it hold.**
So its verdict is that of the formula if all nodes are known, and it holds only where the
formula holds. -/
theorem documentHolds_of_ofDocument (h : Formula.ofDocument doc = .ok f) (record : Record) :
    documentHolds record doc = f.holdsIn record doc ∧
      (f.isKnownIn doc = true → documentHolds record doc = ruleHolds (some f) record) ∧
      (documentHolds record doc = true → ruleHolds (some f) record = true) := by
  have hverdict : documentHolds record doc = f.holdsIn record doc :=
    documentHolds_of_written (Formula.written_of_ofNode h)
  refine ⟨hverdict, fun hknown => ?_, fun hholds => ?_⟩
  · rw [hverdict]
    exact Formula.holdsIn_of_isKnownIn hknown
  · exact Formula.holds_of_holdsIn (hverdict ▸ hholds)

/-- A document of two operands, the second one a row of items. -/
def halfKnownDocument : Json :=
  .object [("type", .string "operator"), ("value", .string "OR"),
    ("left", .object [("type", .string "operand"), ("value",
      .object [("condition", .string "a"), ("operator", .string "="), ("value", .string "x")])]),
    ("right", .array [.string "operand", .null, .null,
      .object [("condition", .string "b"), ("operator", .string "="), ("value", .string "y")]])]

/-- The formula of that document. -/
def halfKnownFormula : Formula :=
  .join .or (.condition ⟨"a", .eq, .text "x"⟩) (.condition ⟨"b", .eq, .text "y"⟩)

/-- An operand that is known decides alone, if the other one is not. -/
theorem documentHolds_halfKnownDocument :
    Formula.ofDocument halfKnownDocument = .ok halfKnownFormula ∧
      documentHolds (Table.empty.insert "a" (.text "x")) halfKnownDocument = true ∧
      documentHolds (Table.empty.insert "b" (.text "y")) halfKnownDocument = false := by
  have hdecoded : Formula.ofDocument halfKnownDocument = .ok halfKnownFormula := by rfl
  refine ⟨hdecoded, ?_, ?_⟩
  · rw [(documentHolds_of_ofDocument hdecoded _).1]
    decide
  · rw [(documentHolds_of_ofDocument hdecoded _).1]
    decide

/-- The row of an operand. -/
def operandRow : Json :=
  .array [.string "operand", .null, .null,
    .object [("condition", .string "a"), ("operator", .string "="), ("value", .string "x")]]

/-- **What is decoded need not be evaluated as its formula is**: the row of an operand is
decoded, but no node to the evaluator of documents. -/
theorem not_forall_documentHolds_eq_ruleHolds :
    ¬ ∀ (doc : Json) (f : Formula) (record : Record), Formula.ofDocument doc = .ok f →
      documentHolds record doc = ruleHolds (some f) record := by
  intro hagree
  have hrow := hagree operandRow (.condition ⟨"a", .eq, .text "x"⟩)
    (Table.empty.insert "a" (.text "x")) rfl
  rw [documentHolds_of_typeOfNode?_none (by simp [operandRow]) rfl] at hrow
  exact absurd hrow (by decide)

end Rulebook
