import Rulebook.Json.Basic
import Rulebook.Number.Layout
import Rulebook.Text.Quoted

/-!
# Documents of the wrong form

A JSON value that should be a rule, a node or a record may be anything
else. A `Mismatch` says what is wrong with it: which form was expected and
what stood there, which member is missing or given twice, which row of items
has the wrong length. The wording is settled once, by `Mismatch.message`.
-/

namespace Rulebook

/-- **The forms that documents have.** -/
inductive Form where
  /-- A node of a formula. -/
  | node
  /-- The name of a kind of node. -/
  | kind
  /-- A text. -/
  | text
  /-- A node that joins two nodes. -/
  | operator
  /-- A node that holds a condition. -/
  | operand
  /-- A condition. -/
  | condition
  /-- A rule. -/
  | rule
  /-- A record. -/
  | record
  /-- A point in time. -/
  | time
deriving DecidableEq

/-- What a message says was expected. -/
def Form.expectation : Form → String
  | .node => "internally tagged enum AstNode"
  | .kind => "variant identifier"
  | .text => "a string"
  | .operator => "struct OperatorNode"
  | .operand => "struct OperandDocument"
  | .condition => "struct ConditionDocument"
  | .rule => "struct Rule"
  | .record => "a map"
  | .time => "an RFC 3339 formatted date and time string"

/-- The number of items of a form when it is written as a row. -/
def Form.width : Form → Nat
  | .rule => 4
  | _ => 3

/-- **What is wrong with a document.** -/
inductive Mismatch where
  /-- Something else stands where a form was expected. -/
  | unexpected (found : Json) (expected : Form)
  /-- A member is missing. -/
  | missing (key : String)
  /-- A member is given twice. -/
  | repeated (key : String)
  /-- No kind of node has this name. -/
  | unknownKind (name : String)
  /-- No kind of node has this number. -/
  | unknownKindNumber (number : Int)
  /-- A row of items ends too early. -/
  | tooFewItems (count : Nat) (form : Form)
  /-- A row of items inside another row or object goes on too long. -/
  | tooManyItems (count : Nat) (form : Form)
  /-- A rule written as a row goes on too long. -/
  | surplusItems (count : Nat)
  /-- An array or an object stands where a single value was expected. -/
  | notScalar
  /-- A text is no point in time, for the given reason. -/
  | notTime (reason : String)

/-- A value as a message names it; of an array or an object only the kind is
told. -/
def Json.description : Json → String
  | .null => "null"
  | .bool b => s!"boolean `{b}`"
  | .number (.integer n) => s!"integer `{n}`"
  | .number (.real x) => "floating point `" ++ x.documentText ++ "`"
  | .string s => "string " ++ quoted s
  | .array _ => "sequence"
  | .object _ => "map"

/-- **The message about a mismatch.** -/
def Mismatch.message : Mismatch → String
  | .unexpected found expected =>
    "invalid type: " ++ found.description ++ ", expected " ++ expected.expectation
  | .missing key => "missing field `" ++ key ++ "`"
  | .repeated key => "duplicate field `" ++ key ++ "`"
  | .unknownKind name =>
    "unknown variant `" ++ name ++ "`, expected `operator` or `operand`"
  | .unknownKindNumber number =>
    s!"invalid value: integer `{number}`, expected variant index 0 <= i < 2"
  | .tooFewItems count form =>
    s!"invalid length {count}, expected {form.expectation} with {form.width} elements"
  | .tooManyItems count form =>
    s!"invalid length {count}, expected {form.width} elements in sequence"
  | .surplusItems count => s!"invalid length {count}, expected fewer elements in array"
  | .notScalar => "data did not match any variant of untagged enum Value"
  | .notTime reason => reason

/-- A document that has to be a text. -/
def Json.readText : Json → Except Mismatch String
  | .string s => .ok s
  | doc => .error (.unexpected doc .text)

end Rulebook
