import Mathlib.Tactic.Ring
import Rulebook.Number.Shortest
import Rulebook.Proofs.Normal

/-!
# Shortest digits read back

The digits that are written for a number are looked for on grids of one to
seventeen digits, and what is found loses the zeros at its end. Whatever is
found, reading it gives the count of steps again (`readSteps_shortest`): a
candidate is only taken if it does, the exact digits do, and a zero at the end
can be moved into the exponent without changing the value.

Reading proper is `Decimal.toBinary64`, which decides numerals far out of
range without raising ten to a huge power. `toBinary64_of_readSteps` says that
these short cuts never touch digits that read back.
-/

namespace Rulebook

namespace PlacedDigits

theorem stepsRatio_pos (p : PlacedDigits) : 0 < p.stepsRatio.2 := by
  obtain ⟨digits, exponent⟩ := p
  cases exponent with
  | ofNat e => exact Nat.one_pos
  | negSucc e => exact Nat.pow_pos (by decide)

/-- Digits of the same value read alike. -/
theorem readSteps_congr {p q : PlacedDigits}
    (h : p.stepsRatio.1 * q.stepsRatio.2 = q.stepsRatio.1 * p.stepsRatio.2) :
    p.readSteps = q.readSteps :=
  nearestSteps_congr p.stepsRatio_pos q.stepsRatio_pos h

/-- **A zero at the end can be moved into the exponent.** -/
theorem readSteps_mul_ten (digits : Nat) (exponent : Int) :
    readSteps ⟨10 * digits, exponent⟩ = readSteps ⟨digits, exponent + 1⟩ := by
  refine readSteps_congr ?_
  cases exponent with
  | ofNat e =>
    show 10 * digits * 10 ^ e * stepsPerUnit * 1 = digits * 10 ^ (e + 1) * stepsPerUnit * 1
    ring
  | negSucc e =>
    cases e with
    | zero =>
      show 10 * digits * stepsPerUnit * 1 = digits * 10 ^ (0 : Nat) * stepsPerUnit * 10 ^ (0 + 1)
      ring
    | succ e =>
      show 10 * digits * stepsPerUnit * 10 ^ (e + 1) = digits * stepsPerUnit * 10 ^ (e + 1 + 1)
      ring

/-- Several zeros at the end can be moved together. -/
theorem readSteps_mul_pow (digits k : Nat) (exponent : Int) :
    readSteps ⟨digits * 10 ^ k, exponent⟩ = readSteps ⟨digits, exponent + k⟩ := by
  induction k generalizing exponent with
  | zero => rw [Nat.pow_zero, Nat.mul_one, Int.natCast_zero, Int.add_zero]
  | succ k ih =>
    rw [Nat.pow_succ, ← Nat.mul_assoc, Nat.mul_comm _ 10, readSteps_mul_ten, ih, Int.add_assoc,
      Int.add_comm 1]
    rfl

theorem readSteps_trimZeros (fuel : Nat) (p : PlacedDigits) :
    (p.trimZeros fuel).readSteps = p.readSteps := by
  induction fuel generalizing p with
  | zero => rfl
  | succ fuel ih =>
    rw [trimZeros]
    split
    · rename_i h
      rw [ih, ← readSteps_mul_ten, Nat.mul_div_cancel' (Nat.dvd_of_mod_eq_zero h.2)]
    · rfl

/-- What reads as something else than zero has digits. -/
theorem digits_ne_zero {p : PlacedDigits} (h : p.readSteps ≠ 0) : p.digits ≠ 0 := by
  intro hzero
  refine h (nearestSteps_eq_zero ?_)
  obtain ⟨digits, exponent⟩ := p
  cases hzero
  cases exponent with
  | ofNat e => simp [stepsRatio]
  | negSucc e => simp [stepsRatio]

end PlacedDigits

namespace Magnitude

/-- A hit on a grid reads back: whichever of the two neighbours is tried first,
each is only taken if it does. -/
theorem readSteps_of_hitOnGrid? {tie : Tie} {m : Magnitude} {exponent : Int} {p : PlacedDigits}
    (h : m.hitOnGrid? tie exponent = some p) : p.readSteps = m.steps := by
  -- the pair is kept whole: how its order is decided says nothing here
  have hit (pair : PlacedDigits × PlacedDigits)
      (h : (if pair.1.readSteps = m.steps then some pair.1
        else if pair.2.readSteps = m.steps then some pair.2 else none) = some p) :
      p.readSteps = m.steps := by
    by_cases hfirst : pair.1.readSteps = m.steps
    · rw [if_pos hfirst] at h
      exact Option.some.inj h ▸ hfirst
    · by_cases hsecond : pair.2.readSteps = m.steps
      · rw [if_neg hfirst, if_pos hsecond] at h
        exact Option.some.inj h ▸ hsecond
      · rw [if_neg hfirst, if_neg hsecond] at h
        cases h
  exact hit _ h

/-- The exact value of a magnitude reads back. -/
theorem readSteps_exactDigits (m : Magnitude) : m.exactDigits.readSteps = m.steps := by
  -- for any number of places, since the one of the goal is too large to compute with
  have hread {places e : Nat} {exponent : Int} (hplaces : places = e + 1)
      (hunit : stepsPerUnit = 2 ^ places) (hexponent : exponent = .negSucc e) :
      PlacedDigits.readSteps ⟨m.steps * 5 ^ places, exponent⟩ = m.steps := by
    subst hplaces hexponent
    show nearestSteps (m.steps * 5 ^ (e + 1) * stepsPerUnit) (10 ^ (e + 1)) = m.steps
    rw [hunit, Nat.mul_assoc, ← Nat.mul_pow]
    exact nearestSteps_mul_self (Nat.pow_pos (by decide)) m.aligned
  obtain ⟨places, hplaces, hunit⟩ := exists_stepsPerUnit_eq
  unfold exactDigits
  rw [← hplaces]
  exact hread hplaces hunit rfl

/-- **The shortest digits of a magnitude read back.** -/
theorem readSteps_shortest (tie : Tie) (m : Magnitude) :
    (m.shortest tie).readSteps = m.steps := by
  unfold shortest
  dsimp only
  rw [PlacedDigits.readSteps_trimZeros]
  cases h : (List.range 17).findSome? fun (k : Nat) => m.hitOnGrid? tie (m.leadingExponent - k) with
  | none => exact m.readSteps_exactDigits
  | some p =>
    obtain ⟨k, -, hk⟩ := List.exists_of_findSome?_eq_some h
    exact readSteps_of_hitOnGrid? hk

end Magnitude

/-! ## The short cuts of reading -/

namespace Decimal

/-- A numeral without digits is a zero. -/
theorem toBinary64_zero (negative : Bool) (exponent : Int) :
    toBinary64 ⟨negative, 0, exponent⟩ = .finite negative .zero :=
  if_pos rfl

/-- A numeral that is not too large for a number has no huge exponent. -/
theorem exponent_le_of_readSteps {digits e : Nat} (hdigits : digits ≠ 0)
    (h : PlacedDigits.readSteps ⟨digits, e⟩ < stepsLimit) : e ≤ 400 := by
  by_cases hle : e ≤ 400
  · exact hle
  · have hbound := div_le_two_mul_nearestSteps (digits * 10 ^ e * stepsPerUnit) 1
    rw [Nat.div_one] at hbound
    obtain ⟨limit, hlimit, htwice⟩ := exists_two_mul_stepsLimit_eq
    -- ten counts as eight
    have hpow : 2 ^ limit ≤ 10 ^ e := by
      calc 2 ^ limit ≤ 2 ^ (3 * e) := Nat.pow_le_pow_right (by decide) (by omega)
        _ = 8 ^ e := by rw [Nat.pow_mul]
        _ ≤ 10 ^ e := Nat.pow_le_pow_left (by decide) e
    have hlarge : 2 * stepsLimit ≤ digits * 10 ^ e * stepsPerUnit := by
      calc 2 * stepsLimit = 2 ^ limit * stepsPerUnit := htwice
        _ ≤ 10 ^ e * stepsPerUnit := Nat.mul_le_mul_right _ hpow
        _ ≤ digits * 10 ^ e * stepsPerUnit := by
            rw [Nat.mul_assoc]
            exact Nat.le_mul_of_pos_left _ (Nat.pos_of_ne_zero hdigits)
    have hsteps : nearestSteps (digits * 10 ^ e * stepsPerUnit) 1 < stepsLimit := h
    omega

/-- A numeral that is not too small for a number has enough digits for its
exponent. -/
theorem exponent_ge_of_readSteps {digits e : Nat}
    (h : PlacedDigits.readSteps ⟨digits, .negSucc e⟩ ≠ 0) : 3 * (e + 1) ≤ digits.log2 + 1101 := by
  have hle : 10 ^ (e + 1) ≤ 2 * (digits * stepsPerUnit) := le_two_mul_of_nearestSteps_ne_zero h
  have hlog : digits < 2 ^ (digits.log2 + 1) := Nat.lt_log2_self
  obtain ⟨unit, hunit, hsteps⟩ := exists_stepsPerUnit_eq
  -- ten counts as eight, so that both sides are powers of two
  have hpow : 2 ^ (3 * (e + 1)) < 2 ^ (digits.log2 + 1 + unit + 1) := by
    calc 2 ^ (3 * (e + 1)) = 8 ^ (e + 1) := by rw [Nat.pow_mul]
      _ ≤ 10 ^ (e + 1) := Nat.pow_le_pow_left (by decide) _
      _ ≤ 2 * (digits * stepsPerUnit) := hle
      _ < 2 * (2 ^ (digits.log2 + 1) * stepsPerUnit) := by
          refine Nat.mul_lt_mul_of_pos_left ?_ (by decide)
          exact Nat.mul_lt_mul_of_pos_right hlog stepsPerUnit_pos
      _ = 2 ^ (digits.log2 + 1 + unit + 1) := by rw [hsteps, ← Nat.pow_add, ← Nat.pow_succ']
  have hexp := (Nat.pow_lt_pow_iff_right (by decide)).mp hpow
  omega

/-- **What reads back is the number it was written for**: the short cuts for
numerals far out of range leave it alone. -/
theorem toBinary64_of_readSteps {p : PlacedDigits} {m : Magnitude} (negative : Bool)
    (h : p.readSteps = m.steps) (hm : m.steps ≠ 0) :
    toBinary64 ⟨negative, p.digits, p.exponent⟩ = .finite negative m := by
  have hdigits : p.digits ≠ 0 := PlacedDigits.digits_ne_zero (h ▸ hm)
  have hbound : p.readSteps < stepsLimit := h ▸ m.bounded
  have hnearest : Binary64.nearest negative p.stepsRatio.1 p.stepsRatio.2 = .finite negative m := by
    unfold Binary64.nearest
    rw [dif_pos (show nearestSteps p.stepsRatio.1 p.stepsRatio.2 < stepsLimit from hbound)]
    exact congrArg (Binary64.finite negative) (Magnitude.ext_steps h)
  obtain ⟨digits, exponent⟩ := p
  unfold toBinary64
  dsimp only
  cases exponent with
  | ofNat e =>
    have he := exponent_le_of_readSteps hdigits hbound
    rw [if_neg hdigits, if_neg (by show ¬ 400 < (e : Int); omega),
      if_neg (by show ¬ _ < 3 * -(e : Int); omega)]
    exact hnearest
  | negSucc e =>
    have he := exponent_ge_of_readSteps (h ▸ hm)
    rw [if_neg hdigits, if_neg (by omega), if_neg (by omega)]
    exact hnearest

end Decimal

end Rulebook
