import Rulebook.Formula
import Rulebook.Journal
import Rulebook.Text.Units
import Rulebook.Value.Conversion

/-!
# Comparing values

Equality is loose: values of different kinds are compared as numbers, except
that `null` equals nothing but itself. Order is by sixteen-bit units between
two texts, and by number in every other case, where `null` counts as zero.
A field that is missing equals `null` and stands in no order to anything.

What is not a number stands in no order to any value and equals none, so of
the six comparators only `!=` can hold of it.
-/

namespace Rulebook

namespace Value

/-- **Loose equality.** Of two values of the same kind it is their own
equality; of two different kinds, none of them `null`, it is equality as
numbers. -/
def looselyEqual : Value → Value → Bool
  | .null, .null => true
  | .null, _ => false
  | _, .null => false
  | .text a, .text b => a == b
  | .truth a, .truth b => a == b
  | a, b => a.toNumber.same b.toNumber

/-- **Loose order**, if the two values stand in one. -/
def looseOrder : Value → Value → Option Ordering
  | .text a, .text b => some (unitOrder a b)
  | a, b => a.toNumber.order b.toNumber

end Value

/-- Whether a field, possibly missing, equals a value. -/
def fieldEquals (field : Option Value) (literal : Value) : Bool :=
  match field with
  | some value => value.looselyEqual literal
  | none => literal == .null

/-- How a field stands to a value, if the field is not missing. -/
def fieldOrder (field : Option Value) (literal : Value) : Option Ordering :=
  field.bind fun value => value.looseOrder literal

/-- **Whether a comparator holds** between a field and a value. One that is
not known never holds. -/
def Comparator.holds (comparator : Comparator) (field : Option Value) (literal : Value) : Bool :=
  match comparator with
  | .eq => fieldEquals field literal
  | .ne => !fieldEquals field literal
  | .lt => fieldOrder field literal == some .lt
  | .gt => fieldOrder field literal == some .gt
  | .le => fieldOrder field literal == some .lt || fieldOrder field literal == some .eq
  | .ge => fieldOrder field literal == some .gt || fieldOrder field literal == some .eq
  | .other _ => false

/-- What the journal says about a comparison: a comparator that is not known
is told. -/
def Comparator.journal : Comparator → Journal
  | .other text =>
    [.event .debug .condition "不支持的比较操作符，条件视为不满足" [("operator", .shown text)]]
  | _ => []

end Rulebook
