import Rulebook.Number.Decimal

/-!
# The shortest digits that read back

Writing a number takes the fewest decimal digits from which reading gives
the same number again. For one digit, two digits and so on, `shortest`
looks at the two neighbours of the number on the grid of that many digits
and asks of each whether it rounds to the number; the first grid with a hit
wins. Of two hits the nearer one is written. Two hits at the same distance
are rare, and the formats differ there, so the choice is a parameter.

Seventeen digits always suffice. Nothing here rests on that: a number for
which no grid had a hit would be written with all the digits of its exact
value, which reads back as well.
-/

namespace Rulebook

/-- What to do with a number half-way between two shortest candidates. -/
inductive Tie where
  /-- Take the larger magnitude. -/
  | up
  /-- Take the candidate whose last digit is even. -/
  | even
deriving DecidableEq

/-- **Digits in place**: the natural number `digits` times a power of ten. -/
structure PlacedDigits where
  /-- The digits, read as one natural number. -/
  digits : Nat
  /-- The power of ten of the last digit. -/
  exponent : Int
deriving DecidableEq

namespace PlacedDigits

/-- The ratio of two natural numbers that is the value, in steps. -/
def stepsRatio (p : PlacedDigits) : Nat × Nat :=
  match p.exponent with
  | .ofNat e => (p.digits * 10 ^ e * stepsPerUnit, 1)
  | .negSucc e => (p.digits * stepsPerUnit, 10 ^ (e + 1))

/-- The count of steps that reading the digits gives. -/
def readSteps (p : PlacedDigits) : Nat :=
  nearestSteps p.stepsRatio.1 p.stepsRatio.2

/-- The value with zeros at its end moved into the exponent; `fuel` bounds
how many. -/
def trimZeros : Nat → PlacedDigits → PlacedDigits
  | 0, p => p
  | fuel + 1, p =>
    if p.digits ≠ 0 ∧ p.digits % 10 = 0 then trimZeros fuel ⟨p.digits / 10, p.exponent + 1⟩
    else p

end PlacedDigits

namespace Magnitude

/-- The magnitude divided by a power of ten, as a ratio. -/
def overPower (m : Magnitude) (exponent : Int) : Nat × Nat :=
  match exponent with
  | .ofNat e => (m.steps, stepsPerUnit * 10 ^ e)
  | .negSucc e => (m.steps * 10 ^ (e + 1), stepsPerUnit)

/-- Whether the magnitude is at least the given power of ten. -/
def reaches (m : Magnitude) (exponent : Int) : Bool :=
  let (num, den) := m.overPower exponent
  den ≤ num

/-- The power of ten of the leading digit of a nonzero magnitude: an
estimate from the binary exponent, which is never too large, and then the
one or two steps up that may be missing. -/
def leadingExponent (m : Magnitude) : Int :=
  let estimate : Int := ((m.steps.log2 : Int) - 1074) * 30103 / 100000 - 1
  if m.reaches (estimate + 3) then estimate + 3
  else if m.reaches (estimate + 2) then estimate + 2
  else if m.reaches (estimate + 1) then estimate + 1
  else estimate

/-- The neighbour of the magnitude on the grid of multiples of a power of
ten that reads back as the magnitude, the nearer one if both do. -/
def hitOnGrid? (tie : Tie) (m : Magnitude) (exponent : Int) : Option PlacedDigits :=
  let (num, den) := m.overPower exponent
  let below : PlacedDigits := ⟨num / den, exponent⟩
  let above : PlacedDigits := ⟨num / den + 1, exponent⟩
  let twice := 2 * (num % den)
  let preferAbove : Bool :=
    if twice < den then false
    else if den < twice then true
    else match tie with
      | .up => true
      | .even => below.digits % 2 = 1
  let (first, second) := if preferAbove then (above, below) else (below, above)
  if first.readSteps = m.steps then some first
  else if second.readSteps = m.steps then some second
  else none

/-- The exact value of a magnitude as digits in place. -/
def exactDigits (m : Magnitude) : PlacedDigits := ⟨m.steps * 5 ^ (1074 : Nat), -1074⟩

/-- **The shortest digits of a nonzero magnitude**: the first hit on the
grids of one to seventeen digits, without zeros at the end. -/
def shortest (tie : Tie) (m : Magnitude) : PlacedDigits :=
  let lead := m.leadingExponent
  let hit := (List.range 17).findSome? fun (k : Nat) => m.hitOnGrid? tie (lead - k)
  let found := hit.getD m.exactDigits
  found.trimZeros (found.digits.log2 + 1)

end Magnitude

end Rulebook
