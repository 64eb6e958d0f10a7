import Rulebook.Failure
import Rulebook.Formula
import Rulebook.Json.Printer

/-!
# Formulas as documents

A formula is kept as a nested document: a node is an object with the members
`type`, `left`, `right` and `value`. Of an operator the sides are nodes and
the value is the connective; of an operand the sides are `null` and the value
is the condition. A node and a condition can also be written as a row of
items, the type first.

`Formula.toDocument` writes the one form with members. `Formula.ofDocument`
reads both, goes through the members in the order in which they stand, and
reports the first thing that is wrong: the type is looked at before anything
else, and a missing member is noticed when all others have been read.
-/

namespace Rulebook

/-- The document of a condition. -/
def Condition.toDocument (c : Condition) : Json :=
  .object [("condition", .string c.field), ("operator", .string c.comparator.text),
    ("value", c.literal.toDocument)]

/-- **The document of a formula.** -/
def Formula.toDocument : Formula → Json
  | .condition c =>
    .object [("type", .string "operand"), ("left", .null), ("right", .null),
      ("value", c.toDocument)]
  | .join op left right =>
    .object [("type", .string "operator"), ("left", left.toDocument),
      ("right", right.toDocument), ("value", .string op.text)]

/-! ## Reading conditions -/

/-- The members of a condition that have been read so far. -/
structure ConditionParts where
  /-- The field. -/
  field : Option String
  /-- The comparator. -/
  comparator : Option Comparator
  /-- The value. -/
  literal : Option Value

/-- A condition of which all members have been read. -/
def ConditionParts.whole (parts : ConditionParts) : Except Mismatch Condition :=
  match parts.field with
  | none => .error (.missing "condition")
  | some field =>
    match parts.comparator with
    | none => .error (.missing "operator")
    | some comparator =>
      match parts.literal with
      | none => .error (.missing "value")
      | some literal => .ok ⟨field, comparator, literal⟩

/-- A condition from its members; members of other names do not matter. -/
def Condition.ofMembers (parts : ConditionParts) :
    List (String × Json) → Except Mismatch Condition
  | [] => parts.whole
  | (key, doc) :: members =>
    if key = "condition" then
      if parts.field.isSome then .error (.repeated key)
      else do
        let field ← doc.readText
        ofMembers { parts with field := some field } members
    else if key = "operator" then
      if parts.comparator.isSome then .error (.repeated key)
      else do
        let comparator ← Comparator.ofDocument doc
        ofMembers { parts with comparator := some comparator } members
    else if key = "value" then
      if parts.literal.isSome then .error (.repeated key)
      else do
        let literal ← Value.ofDocument doc
        ofMembers { parts with literal := some literal } members
    else ofMembers parts members

/-- A condition from a row of items. -/
def Condition.ofItems : List Json → Except Mismatch Condition
  | [] => .error (.tooFewItems 0 .condition)
  | field :: items => do
    let field ← field.readText
    match items with
    | [] => .error (.tooFewItems 1 .condition)
    | comparator :: items => do
      let comparator ← Comparator.ofDocument comparator
      match items with
      | [] => .error (.tooFewItems 2 .condition)
      | literal :: surplus => do
        let literal ← Value.ofDocument literal
        if surplus.isEmpty then return ⟨field, comparator, literal⟩
        else .error (.tooManyItems (3 + surplus.length) .condition)

/-- **The condition of a document.** -/
def Condition.ofDocument : Json → Except Mismatch Condition
  | .object members => ofMembers ⟨none, none, none⟩ members
  | .array items => ofItems items
  | doc => .error (.unexpected doc .condition)

/-! ## The kind of a node -/

/-- **The two kinds of node.** -/
inductive NodeKind where
  /-- Two nodes joined by a connective. -/
  | operator
  /-- A condition. -/
  | operand
deriving DecidableEq

/-- The kind of a given name. -/
def NodeKind.ofName (name : String) : Except Mismatch NodeKind :=
  if name = "operator" then .ok .operator
  else if name = "operand" then .ok .operand
  else .error (.unknownKind name)

/-- **The kind that a document names.** Inside another node a kind can also be
given by its number. -/
def NodeKind.ofDocument (outermost : Bool) : Json → Except Mismatch NodeKind
  | .string name => ofName name
  | .number (.integer n) =>
    if outermost ∨ n < 0 then .error (.unexpected (.number (.integer n)) .kind)
    else if n = 0 then .ok .operator
    else if n = 1 then .ok .operand
    else .error (.unknownKindNumber n)
  | doc => .error (.unexpected doc .kind)

/-- The kind of a node from its members; the member `type` counts wherever it
stands. -/
def NodeKind.ofMembers (outermost : Bool) (found : Option NodeKind) :
    List (String × Json) → Except Mismatch NodeKind
  | [] =>
    match found with
    | some kind => .ok kind
    | none => .error (.missing "type")
  | (key, doc) :: members =>
    if key = "type" then
      if found.isSome then .error (.repeated key)
      else do
        let kind ← ofDocument outermost doc
        ofMembers outermost (some kind) members
    else ofMembers outermost found members

/-! ## Reading nodes -/

/-- What has been read of the members of an operand: whether its sides were
given, and its condition. -/
structure OperandParts where
  /-- Whether there was a left side. -/
  left : Bool
  /-- Whether there was a right side. -/
  right : Bool
  /-- The condition. -/
  condition : Option Condition

/-- An operand from its members; its sides may hold anything. -/
def Formula.operandOfMembers (parts : OperandParts) :
    List (String × Json) → Except Mismatch Formula
  | [] =>
    match parts.condition with
    | some c => .ok (.condition c)
    | none => .error (.missing "value")
  | (key, doc) :: members =>
    if key = "left" then
      if parts.left then .error (.repeated key)
      else operandOfMembers { parts with left := true } members
    else if key = "right" then
      if parts.right then .error (.repeated key)
      else operandOfMembers { parts with right := true } members
    else if key = "value" then
      if parts.condition.isSome then .error (.repeated key)
      else do
        let c ← Condition.ofDocument doc
        operandOfMembers { parts with condition := some c } members
    else operandOfMembers parts members

/-- An operand from a row of items: two sides of any form, then the
condition. -/
def Formula.operandOfItems : List Json → Except Mismatch Formula
  | _ :: _ :: doc :: surplus => do
    let c ← Condition.ofDocument doc
    if surplus.isEmpty then return .condition c
    else .error (.tooManyItems (3 + surplus.length) .operand)
  | _ => .error (.tooFewItems 2 .operand)

/-- The members of an operator that have been read so far. -/
structure OperatorParts where
  /-- The left side. -/
  left : Option Formula
  /-- The right side. -/
  right : Option Formula
  /-- The connective. -/
  op : Option Connective

/-- An operator of which all members have been read. -/
def OperatorParts.whole (parts : OperatorParts) : Except Mismatch Formula :=
  match parts.left with
  | none => .error (.missing "left")
  | some left =>
    match parts.right with
    | none => .error (.missing "right")
    | some right =>
      match parts.op with
      | none => .error (.missing "value")
      | some op => .ok (.join op left right)

namespace Formula

mutual

/-- The formula of a node. -/
def ofNode (outermost : Bool) : Json → Except Mismatch Formula
  | .object members => do
    match ← NodeKind.ofMembers outermost none members with
    | .operator => operatorOfMembers ⟨none, none, none⟩ members
    | .operand => operandOfMembers ⟨false, false, none⟩ members
  | .array (kind :: items) => do
    match ← NodeKind.ofDocument outermost kind with
    | .operator => operatorOfItems items
    | .operand => operandOfItems items
  | .array [] => .error (.missing "type")
  | doc => .error (.unexpected doc .node)

/-- An operator from its members. -/
def operatorOfMembers (parts : OperatorParts) : List (String × Json) → Except Mismatch Formula
  | [] => parts.whole
  | (key, doc) :: members =>
    if key = "left" then
      if parts.left.isSome then .error (.repeated key)
      else do
        let left ← ofNode false doc
        operatorOfMembers { parts with left := some left } members
    else if key = "right" then
      if parts.right.isSome then .error (.repeated key)
      else do
        let right ← ofNode false doc
        operatorOfMembers { parts with right := some right } members
    else if key = "value" then
      if parts.op.isSome then .error (.repeated key)
      else do
        let op ← Connective.ofDocument doc
        operatorOfMembers { parts with op := some op } members
    else operatorOfMembers parts members

/-- An operator from a row of items: the sides, then the connective. -/
def operatorOfItems : List Json → Except Mismatch Formula
  | [] => .error (.tooFewItems 0 .operator)
  | [left] => do
    let _ ← ofNode false left
    .error (.tooFewItems 1 .operator)
  | [left, right] => do
    let _ ← ofNode false left
    let _ ← ofNode false right
    .error (.tooFewItems 2 .operator)
  | left :: right :: op :: surplus => do
    let left ← ofNode false left
    let right ← ofNode false right
    let op ← Connective.ofDocument op
    if surplus.isEmpty then return .join op left right
    else .error (.tooManyItems (3 + surplus.length) .operator)

end

/-- **The formula of a document.** -/
def ofDocument (doc : Json) : Except Mismatch Formula := ofNode true doc

/-- **A formula read back from its document**, of which each object is taken in its sorted
form. -/
def decode (doc : Json) : Except RuleError Formula :=
  match ofDocument doc.sorted with
  | .ok f => .ok f
  | .error mismatch => .error (.invalidDocument mismatch.message)

end Formula

end Rulebook
