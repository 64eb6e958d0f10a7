import Rulebook.Number.Decimal
import Rulebook.Text.Blank
import Rulebook.Value

/-!
# Values as numbers

When a number meets a value of another kind, the other value is taken as a
number too. A truth value counts as one or zero, `null` as zero, and a text
as the number it spells – and every text spells something: the blank text
is zero, and a text that is no number gives the value that is not a number.

Texts spell numbers in three ways: by name (`Infinity`), in a radix of
sixteen, eight or two behind a mark such as `0x`, or as a plain decimal
numeral. Only names and numerals can have a sign.
-/

namespace Rulebook

/-- What is not looked at around a number: white space and the byte order
mark. -/
def isIgnorable (c : Char) : Bool := isBlank c || c == '\ufeff'

/-- The value of a digit in a radix up to sixteen; letters count in either
case. -/
def digitIn? (radix : Nat) (c : Char) : Option Nat :=
  let value? : Option Nat :=
    if c.isDigit then some (c.toNat - '0'.toNat)
    else if 'a' ≤ c ∧ c ≤ 'f' then some (c.toNat - 'a'.toNat + 10)
    else if 'A' ≤ c ∧ c ≤ 'F' then some (c.toNat - 'A'.toNat + 10)
    else none
  value?.filter (· < radix)

/-- Digits of a radix taken into a number one after the other, each step
rounded to a number. -/
def accumulate (radix : Nat) : Binary64 → List Char → Binary64
  | x, [] => x
  | x, c :: digits =>
    match digitIn? radix c with
    | some d => accumulate radix ((x.mulNat radix).addNat d) digits
    | none => .nan

/-- The number that digits of a radix spell; without digits there is none. -/
def numberInRadix (radix : Nat) (digits : List Char) : Binary64 :=
  if digits.isEmpty then .nan else accumulate radix .zero digits

/-- The radix that a text announces, and what follows the mark. -/
def announcedRadix? : List Char → Option (Nat × List Char)
  | '0' :: 'x' :: digits => some (16, digits)
  | '0' :: 'X' :: digits => some (16, digits)
  | '0' :: 'o' :: digits => some (8, digits)
  | '0' :: 'O' :: digits => some (8, digits)
  | '0' :: 'b' :: digits => some (2, digits)
  | '0' :: 'B' :: digits => some (2, digits)
  | _ => none

/-- An infinity, by its name. -/
def namedInfinity? (text : List Char) : Option Binary64 :=
  let name := String.ofList text
  if name = "Infinity" ∨ name = "+Infinity" then some (.infinite false)
  else if name = "-Infinity" then some (.infinite true)
  else none

/-- **The number that a text spells.** -/
def numberOfText (text : String) : Binary64 :=
  let core := trimBy isIgnorable text.toList
  if core.isEmpty then .zero
  else
    match namedInfinity? core with
    | some x => x
    | none =>
      match announcedRadix? core with
      | some (radix, digits) => numberInRadix radix digits
      | none =>
        match Decimal.read? core with
        | some d => d.toBinary64
        | none => .nan

/-- One for true, zero for false. -/
def numberOfTruth (b : Bool) : Binary64 := .ofNat b.toNat

/-- **A value as a number.** -/
def Value.toNumber : Value → Binary64
  | .number x => x
  | .text s => numberOfText s
  | .truth b => numberOfTruth b
  | .null => .zero

end Rulebook
