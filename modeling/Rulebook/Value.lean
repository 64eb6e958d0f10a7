import Rulebook.Json.Mismatch

/-!
# Values

What a record holds in a field, and what a condition compares a field with:
a number, a text, a truth value, or nothing (`null`).
-/

namespace Rulebook

/-- **A value** of a field or of a condition. -/
inductive Value where
  /-- A number, possibly not finite. -/
  | number (x : Binary64)
  /-- A text. -/
  | text (s : String)
  /-- A truth value. -/
  | truth (b : Bool)
  /-- The value that stands for no value. -/
  | null
deriving DecidableEq

namespace Value

/-- Equality of values of the same kind, with numbers compared as numbers:
the zeros are equal, and what is not a number equals nothing. -/
def same : Value → Value → Bool
  | .number x, .number y => x.same y
  | .text s, .text t => s == t
  | .truth a, .truth b => a == b
  | .null, .null => true
  | _, _ => false

/-- **A value as descriptions show it**: a text stands in single quotes as it
is. -/
def display : Value → String
  | .number x => x.text
  | .text s => "'" ++ s ++ "'"
  | .truth b => toString b
  | .null => "null"

/-- The first integer that a document does not write as an integer. -/
def integerLimit : Int := 2 ^ (53 : Nat)

/-- A number as a document keeps it: an integer if it is one and not too
large, else a number with a point or an exponent; what is not finite becomes
`null`. -/
def numberDocument (x : Binary64) : Json :=
  match x.toInt? with
  | some n =>
    if -integerLimit < n ∧ n < integerLimit then .number (.integer n) else .number (.real x)
  | none => if x.isFinite then .number (.real x) else .null

/-- **The document of a value.** -/
def toDocument : Value → Json
  | .number x => numberDocument x
  | .text s => .string s
  | .truth b => .bool b
  | .null => .null

/-- **The value of a document**, which has to be a single one. -/
def ofDocument : Json → Except Mismatch Value
  | .null => .ok .null
  | .bool b => .ok (.truth b)
  | .number n => .ok (.number n.toBinary64)
  | .string s => .ok (.text s)
  | .array _ => .error .notScalar
  | .object _ => .error .notScalar

end Value

end Rulebook
