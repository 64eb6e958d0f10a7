import Rulebook.Evaluation

/-!
# Evaluating a document

A document can be evaluated as it stands, without being read as a formula
first. Evaluation is forgiving: `null` holds, and whatever is not recognised
does not hold, but only that node fails, not the document around it. Only the
form with members is looked at, and of members of one name the last counts.
-/

namespace Rulebook

/-- The three parts of a condition, if the document of a node has them all. -/
def conditionOfNode? (doc : Json) : Option Condition := do
  let value ← doc.get? "value"
  let field ← (← value.get? "condition").asText?
  let comparator ← (← value.get? "operator").asText?
  let literal ← (Value.ofDocument (← value.get? "value")).toOption
  return ⟨field, .ofText comparator, literal⟩

/-- The connective a node names, if it names one. -/
def connectiveOfNode? (doc : Json) : Option Connective := do
  return .ofText (← (← doc.get? "value").asText?)

/-- The type a node names, if it names one. -/
def typeOfNode? (doc : Json) : Option String := do (← doc.get? "type").asText?

/-- **Whether a document holds on a record.** -/
def documentHolds (record : Record) (doc : Json) : Bool :=
  match doc with
  | .null => true
  | doc =>
    match typeOfNode? doc with
    | some "operator" =>
      let left :=
        match _h : doc.get? "left" with
        | some side => documentHolds record side
        | none => false
      let right :=
        match _h : doc.get? "right" with
        | some side => documentHolds record side
        | none => false
      match connectiveOfNode? doc with
      | some op => op.verdict left right
      | none => false
    | some "operand" =>
      match conditionOfNode? doc with
      | some c => c.holds record
      | none => false
    | _ => false
termination_by sizeOf doc
decreasing_by
  · exact Json.sizeOf_lt_of_get? _h
  · exact Json.sizeOf_lt_of_get? _h

/-- What the journal says about a type that is not recognised. -/
def unknownTypeJournal (type : Option String) : Journal :=
  let shown :=
    match type with
    | some name => "Some(" ++ quoted name ++ ")"
    | none => "None"
  [.event .debug .evaluation "无法识别的 AST 节点，视为不满足" [("node_type", .shown shown)]]

/-- **The journal of an evaluation of a document.** A condition that lacks a
part is told, but not one that is missing altogether. -/
def documentJournal (doc : Json) : Journal :=
  match doc with
  | .null => []
  | doc =>
    match typeOfNode? doc with
    | some "operator" =>
      let left :=
        match _h : doc.get? "left" with
        | some side => documentJournal side
        | none => []
      let right :=
        match _h : doc.get? "right" with
        | some side => documentJournal side
        | none => []
      left ++ right
    | some "operand" =>
      match doc.get? "value" with
      | none => []
      | some _ =>
        match conditionOfNode? doc with
        | some c => c.comparator.journal
        | none =>
          [.event .debug .evaluation "条件节点缺少字段、操作符或比较值，视为不满足" []]
    | type => unknownTypeJournal type
termination_by sizeOf doc
decreasing_by
  · exact Json.sizeOf_lt_of_get? _h
  · exact Json.sizeOf_lt_of_get? _h

end Rulebook
