import Rulebook.Operator
import Rulebook.Value

/-!
# Formulas

A rule is a formula: conditions joined by connectives. A condition compares
a field of a record with a value.
-/

namespace Rulebook

/-- **A condition**: the field, the comparator, and the value to compare
with. -/
structure Condition where
  /-- The name of the field. -/
  field : String
  /-- How the field is compared. -/
  comparator : Comparator
  /-- What the field is compared with. -/
  literal : Value
deriving DecidableEq

/-- **A formula.** -/
inductive Formula where
  /-- A single condition. -/
  | condition (c : Condition)
  /-- Two formulas joined by a connective. -/
  | join (op : Connective) (left right : Formula)
deriving DecidableEq

namespace Condition

/-- A condition in words. -/
def description (c : Condition) : String :=
  c.field ++ " " ++ c.comparator.text ++ " " ++ c.literal.display

/-- Equality with values compared as values. -/
def same (a b : Condition) : Bool :=
  a.field == b.field && a.comparator == b.comparator && a.literal.same b.literal

end Condition

namespace Formula

/-- The conditions of a formula, from left to right. -/
def conditions : Formula → List Condition
  | .condition c => [c]
  | .join _ left right => left.conditions ++ right.conditions

/-- The number of levels; a single condition has one. -/
def depth : Formula → Nat
  | .condition _ => 1
  | .join _ left right => max left.depth right.depth + 1

/-- Equality with values compared as values: a number that is not a number
makes a formula differ from itself. -/
def same : Formula → Formula → Bool
  | .condition a, .condition b => a.same b
  | .join op left right, .join op' left' right' =>
    op == op' && left.same left' && right.same right'
  | _, _ => false

theorem depth_pos (f : Formula) : 0 < f.depth := by
  cases f <;> simp [depth]

end Formula

end Rulebook
