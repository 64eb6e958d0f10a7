/-!
# Double-precision numbers, exactly

Every number of a rule, a record or a document is a binary64 number. The
machine's own floating type has almost no theory, so numbers are kept here
as what they denote: a finite number is a sign and a **magnitude**, and a
magnitude is counted in steps of `2⁻¹⁰⁷⁴`, the smallest positive number.
Comparing two numbers is then comparing two integers, and rounding is one
function on a quotient of natural numbers.

Not every count of steps is a number: above `2⁵³` steps the neighbours
move apart, and `spacing` says how far. `Magnitude` carries the two facts
that make a count a number, so equality of magnitudes is equality of
numbers, and `nearestSteps` is the single place where anything is rounded.
-/

namespace Rulebook

-- powers are those of the core library, also where a wider notion of power is at hand
attribute [scoped instance (2000)] instPowNat

/-- The distance between neighbouring magnitudes around a count of steps:
one step up to `2⁵³`, and doubled with every further binary digit. -/
def spacing (steps : Nat) : Nat := 2 ^ (steps.log2 - 52)

/-- The steps that make up the number one. -/
def stepsPerUnit : Nat := 2 ^ (1074 : Nat)

/-- The first count of steps that is too large to be a number. -/
def stepsLimit : Nat := 2 ^ (2098 : Nat)

/-- The quotient of two natural numbers, rounded to the nearest one; a
half goes to the even neighbour. -/
def roundedQuotient (num den : Nat) : Nat :=
  let quotient := num / den
  let twice := 2 * (num % den)
  if twice < den then quotient
  else if den < twice then quotient + 1
  else quotient + quotient % 2

/-- **The one rounding rule**: the admissible count of steps nearest to
`num / den`, where a tie goes to the even multiple of the spacing. -/
def nearestSteps (num den : Nat) : Nat :=
  let unit := spacing (num / den)
  roundedQuotient num (den * unit) * unit

theorem spacing_pos (steps : Nat) : 0 < spacing steps :=
  Nat.pow_pos (by omega)

/-- A multiple `r · 2ᵏ` with at most 53 binary digits in `r` stands on
the grid of its own spacing. -/
theorem spacing_dvd_mul_two_pow {r : Nat} (h : r ≤ 2 ^ (53 : Nat)) (k : Nat) :
    spacing (r * 2 ^ k) ∣ r * 2 ^ k := by
  unfold spacing
  rcases Nat.eq_or_lt_of_le h with rfl | hlt
  · rw [← Nat.pow_add]
    refine Nat.pow_dvd_pow 2 ?_
    rw [Nat.log2_two_pow]
    omega
  · by_cases h0 : r * 2 ^ k = 0
    · rw [h0]; exact Nat.dvd_zero _
    · refine Nat.dvd_trans (Nat.pow_dvd_pow 2 ?_) (Nat.dvd_mul_left (2 ^ k) r)
      have hn : r * 2 ^ k < 2 ^ (53 + k) := by
        rw [Nat.pow_add]
        exact Nat.mul_lt_mul_of_pos_right hlt (Nat.pow_pos (by omega))
      have := (Nat.log2_lt h0).2 hn
      omega

theorem roundedQuotient_le (num den : Nat) : roundedQuotient num den ≤ num / den + 1 := by
  unfold roundedQuotient
  dsimp only
  split
  · omega
  · split
    · omega
    · omega

/-- What rounding yields is on the grid. -/
theorem spacing_dvd_nearestSteps (num den : Nat) :
    spacing (nearestSteps num den) ∣ nearestSteps num den := by
  unfold nearestSteps
  dsimp only
  refine spacing_dvd_mul_two_pow ?_ _
  refine Nat.le_trans (roundedQuotient_le _ _) ?_
  rw [← Nat.div_div_eq_div_mul]
  have hlog : num / den < 2 ^ ((num / den).log2 + 1) := Nat.lt_log2_self
  have : num / den / spacing (num / den) < 2 ^ (53 : Nat) := by
    rw [Nat.div_lt_iff_lt_mul (spacing_pos _)]
    refine Nat.lt_of_lt_of_le hlog ?_
    unfold spacing
    rw [← Nat.pow_add]
    exact Nat.pow_le_pow_right (by omega) (by omega)
  omega

/-- **A magnitude**: a count of steps that is a multiple of the spacing
there and below the limit. -/
structure Magnitude where
  /-- The count of steps of `2⁻¹⁰⁷⁴`. -/
  steps : Nat
  /-- The count stands on the grid. -/
  aligned : spacing steps ∣ steps
  /-- The count is not too large. -/
  bounded : steps < stepsLimit
deriving DecidableEq

theorem stepsLimit_pos : 0 < stepsLimit := by
  unfold stepsLimit
  generalize 2098 = n
  exact Nat.two_pow_pos n

/-- The magnitude of zero. -/
def Magnitude.zero : Magnitude := ⟨0, Nat.dvd_zero _, stepsLimit_pos⟩

/-- **A binary64 number.** There is one value that is not a number, two
infinities, and the finite numbers, zero with either sign. -/
inductive Binary64 where
  /-- Not a number. -/
  | nan
  /-- An infinity. -/
  | infinite (negative : Bool)
  /-- A finite number. -/
  | finite (negative : Bool) (magnitude : Magnitude)
deriving DecidableEq

namespace Binary64

/-- Zero, with the plus sign. -/
def zero : Binary64 := .finite false .zero

/-- The number nearest to `num / den` steps, with the given sign; what
reaches the limit is an infinity. -/
def nearest (negative : Bool) (num den : Nat) : Binary64 :=
  if h : nearestSteps num den < stepsLimit then
    .finite negative ⟨nearestSteps num den, spacing_dvd_nearestSteps num den, h⟩
  else .infinite negative

/-- The number nearest to a natural number. -/
def ofNat (n : Nat) : Binary64 := nearest false (n * stepsPerUnit) 1

/-- The number nearest to an integer; zero has the plus sign. -/
def ofInt (n : Int) : Binary64 := nearest (decide (n < 0)) (n.natAbs * stepsPerUnit) 1

/-- **Where a number stands on the line**, in steps: an infinity stands
where the first number too large would be, and what is not a number stands
nowhere. Both zeros stand at zero. -/
def position : Binary64 → Option Int
  | .nan => none
  | .infinite negative => some (if negative then -stepsLimit else stepsLimit)
  | .finite negative m => some (if negative then -m.steps else m.steps)

/-- The order of two numbers, if both are numbers. -/
def order (a b : Binary64) : Option Ordering :=
  match a.position, b.position with
  | some x, some y => some (compare x y)
  | _, _ => none

/-- Equality as numbers: the zeros are equal, and what is not a number
equals nothing. -/
def same (a b : Binary64) : Bool := a.order b == some .eq

/-- Whether a number is neither an infinity nor the value that is not a number. -/
def isFinite : Binary64 → Bool
  | .finite _ _ => true
  | _ => false

/-- The integer a finite number without a fraction is. -/
def toInt? : Binary64 → Option Int
  | .finite negative m =>
    if m.steps % stepsPerUnit = 0 then
      let whole : Int := (m.steps / stepsPerUnit : Nat)
      some (if negative then -whole else whole)
    else none
  | _ => none

/-- The integer nearest to a finite number; a half goes away from zero. -/
def roundAway? : Binary64 → Option Int
  | .finite negative m =>
    let whole : Int := ((2 * m.steps + stepsPerUnit) / (2 * stepsPerUnit) : Nat)
    some (if negative then -whole else whole)
  | _ => none

/-- The product with a natural number, rounded once. -/
def mulNat (a : Binary64) (k : Nat) : Binary64 :=
  match a with
  | .nan => .nan
  | .infinite negative => if k = 0 then .nan else .infinite negative
  | .finite negative m => nearest negative (m.steps * k) 1

/-- The sum with a natural number, rounded once. -/
def addNat (a : Binary64) (k : Nat) : Binary64 :=
  match a with
  | .nan => .nan
  | .infinite negative => .infinite negative
  | .finite negative m =>
    let sum : Int := (if negative then -(m.steps : Int) else m.steps) + k * stepsPerUnit
    nearest (decide (sum < 0)) sum.natAbs 1

/-- **The 64 bits of a number**, read as a natural number: the sign, eleven
bits of exponent, and the 52 low digits of the significand. What is not a
number has the quiet pattern without a sign. -/
def toBits : Binary64 → Nat
  | .nan => 2047 * 2 ^ (52 : Nat) + 2 ^ (51 : Nat)
  | .infinite negative => sign negative + 2047 * 2 ^ (52 : Nat)
  | .finite negative m =>
    if m.steps < 2 ^ (52 : Nat) then sign negative + m.steps
    else
      let shift := m.steps.log2 - 52
      sign negative + shift * 2 ^ (52 : Nat) + m.steps / 2 ^ shift
where
  /-- The sign bit in its place. -/
  sign (negative : Bool) : Nat := if negative then 2 ^ (63 : Nat) else 0

end Binary64

end Rulebook
