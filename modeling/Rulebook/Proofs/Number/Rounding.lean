import Mathlib.Tactic.Ring
import Rulebook.Number.Binary64

/-!
# Rounding

`nearestSteps num den` is the one place where a number is rounded. What the
rest of the library needs of it are three facts. It depends on the quotient
alone, not on how the quotient is written (`nearestSteps_mul_mul`). It leaves
alone what stands on the grid already (`nearestSteps_mul_self`), so what is
written exactly is read exactly. And it does not move a quotient far, so a
result that is neither zero nor too large says the same of the quotient
(`le_two_mul_of_nearestSteps_ne_zero`, `div_le_two_mul_nearestSteps`), and a
quotient far below the limit stays there (`nearestSteps_le`).

Where a number has more binary digits than fit, it also matters what becomes of the
last ones. Zeros at the end are kept (`nearestSteps_mul_two_pow`), and other digits
there are lost, except that they decide a tie (`nearestSteps_mul_two_pow_add`).
-/

namespace Rulebook

theorem stepsPerUnit_pos : 0 < stepsPerUnit := by
  unfold stepsPerUnit
  exact Nat.two_pow_pos 1074

/-- The number one is a power of two in steps. The exponent is a variable here, so that no
power of this size is computed. -/
theorem exists_stepsPerUnit_eq : ∃ e : Nat, e = 1074 ∧ stepsPerUnit = 2 ^ e := by
  unfold stepsPerUnit
  generalize 1074 = e
  exact ⟨e, rfl, rfl⟩

/-- Twice the limit is a power of two in numbers, again with a variable as the exponent. -/
theorem exists_two_mul_stepsLimit_eq :
    ∃ e : Nat, e = 1025 ∧ 2 * stepsLimit = 2 ^ e * stepsPerUnit := by
  have h : 2098 + 1 = 1025 + 1074 := rfl
  unfold stepsLimit stepsPerUnit
  generalize 2098 = a at h
  generalize 1025 = b at h ⊢
  generalize 1074 = c at h
  exact ⟨b, rfl, by rw [← Nat.pow_succ', ← Nat.pow_add, ← h]⟩

/-! ## The quotient alone counts -/

theorem roundedQuotient_mul_mul {c : Nat} (hc : 0 < c) (num den : Nat) :
    roundedQuotient (c * num) (c * den) = roundedQuotient num den := by
  have hlt (a b : Nat) : 2 * (c * a) < c * b ↔ 2 * a < b := by
    rw [Nat.mul_left_comm]
    exact Nat.mul_lt_mul_left hc
  have hlt' (a b : Nat) : c * a < 2 * (c * b) ↔ a < 2 * b := by
    rw [Nat.mul_left_comm]
    exact Nat.mul_lt_mul_left hc
  unfold roundedQuotient
  rw [Nat.mul_div_mul_left _ _ hc, Nat.mul_mod_mul_left]
  simp only [hlt, hlt']

/-- **Rounding depends on the quotient alone.** -/
theorem nearestSteps_mul_mul {c : Nat} (hc : 0 < c) (num den : Nat) :
    nearestSteps (c * num) (c * den) = nearestSteps num den := by
  unfold nearestSteps
  rw [Nat.mul_div_mul_left _ _ hc]
  dsimp only
  rw [Nat.mul_assoc, roundedQuotient_mul_mul hc]

/-- Two ways to write a quotient are rounded alike. -/
theorem nearestSteps_congr {num den num' den' : Nat} (hden : 0 < den) (hden' : 0 < den')
    (h : num * den' = num' * den) : nearestSteps num den = nearestSteps num' den' := by
  rw [← nearestSteps_mul_mul hden' num den, ← nearestSteps_mul_mul hden num' den',
    Nat.mul_comm den' num, h, Nat.mul_comm num' den, Nat.mul_comm den' den]

/-! ## What stands on the grid stays -/

theorem roundedQuotient_mul_self {den : Nat} (hden : 0 < den) (q : Nat) :
    roundedQuotient (q * den) den = q := by
  unfold roundedQuotient
  rw [Nat.mul_div_cancel _ hden, Nat.mul_mod_left]
  dsimp only
  rw [Nat.mul_zero, if_pos hden]

/-- **A count on the grid is rounded to itself.** -/
theorem nearestSteps_mul_self {steps den : Nat} (hden : 0 < den) (h : spacing steps ∣ steps) :
    nearestSteps (steps * den) den = steps := by
  unfold nearestSteps
  rw [Nat.mul_div_cancel _ hden]
  dsimp only
  have hunit := spacing_pos steps
  generalize spacing steps = unit at h hunit
  obtain ⟨q, rfl⟩ := h
  rw [show unit * q * den = q * (den * unit) from by ring,
    roundedQuotient_mul_self (Nat.mul_pos hden hunit), Nat.mul_comm]

/-! ## Rounding does not go far -/

/-- A quotient below one half is rounded to zero. -/
theorem nearestSteps_eq_zero {num den : Nat} (h : 2 * num < den) : nearestSteps num den = 0 := by
  have hlt : num < den := by omega
  have hunit : spacing 0 = 1 := by rfl
  unfold nearestSteps roundedQuotient
  rw [Nat.div_eq_of_lt hlt]
  dsimp only
  rw [hunit, Nat.mul_one, Nat.mul_one, Nat.div_eq_of_lt hlt, Nat.mod_eq_of_lt hlt, if_pos h]

/-- What is not rounded to zero is one half at least. -/
theorem le_two_mul_of_nearestSteps_ne_zero {num den : Nat} (h : nearestSteps num den ≠ 0) :
    den ≤ 2 * num := by
  by_cases hlt : 2 * num < den
  · exact absurd (nearestSteps_eq_zero hlt) h
  · exact Nat.not_lt.mp hlt

theorem le_roundedQuotient (num den : Nat) : num / den ≤ roundedQuotient num den := by
  unfold roundedQuotient
  dsimp only
  split
  · exact Nat.le_refl _
  · split
    · exact Nat.le_succ _
    · exact Nat.le_add_right _ _

/-- Around a count that is not zero the neighbours are no further away than half
the count. -/
theorem two_mul_spacing_le {q : Nat} (hq : q ≠ 0) : 2 * spacing q ≤ q + 1 := by
  unfold spacing
  by_cases h : q.log2 ≤ 52
  · rw [Nat.sub_eq_zero_of_le h]
    omega
  · calc 2 * 2 ^ (q.log2 - 52) = 2 ^ (q.log2 - 52 + 1) := (Nat.pow_succ').symm
      _ ≤ 2 ^ q.log2 := Nat.pow_le_pow_right (by omega) (by omega)
      _ ≤ q := Nat.log2_self_le hq
      _ ≤ q + 1 := Nat.le_succ q

/-- **Rounding does not halve.** -/
theorem div_le_two_mul_nearestSteps (num den : Nat) :
    num / den ≤ 2 * nearestSteps num den := by
  by_cases hq : num / den = 0
  · rw [hq]
    exact Nat.zero_le _
  · have hunit := spacing_pos (num / den)
    have hspacing := two_mul_spacing_le hq
    have hfloor := le_roundedQuotient num (den * spacing (num / den))
    rw [← Nat.div_div_eq_div_mul] at hfloor
    -- cutting the quotient to the grid takes off less than one distance, which is at
    -- most half of the quotient
    have hmul := Nat.mul_le_mul_right (spacing (num / den)) hfloor
    have hlt := Nat.lt_div_mul_add hunit (a := num / den)
    unfold nearestSteps
    dsimp only
    omega

/-- **Rounding does not go up to much more than the double.** -/
theorem nearestSteps_le (num den : Nat) : nearestSteps num den ≤ 2 * (num / den) + 1 := by
  have hunit : spacing (num / den) ≤ num / den + 1 := by
    by_cases hq : num / den = 0
    · rw [hq]
      decide
    · have := two_mul_spacing_le hq
      omega
  have hceil := roundedQuotient_le num (den * spacing (num / den))
  rw [← Nat.div_div_eq_div_mul] at hceil
  have hmul := Nat.mul_le_mul_right (spacing (num / den)) hceil
  rw [Nat.add_mul, Nat.one_mul] at hmul
  have hfloor := Nat.div_mul_le_self (num / den) (spacing (num / den))
  unfold nearestSteps
  dsimp only
  omega

/-- What is far enough below the limit is rounded to a finite number. -/
theorem Binary64.isFinite_nearest (negative : Bool) {num den : Nat}
    (h : 2 * (num / den) + 1 < stepsLimit) : (nearest negative num den).isFinite := by
  rw [nearest, dif_pos (Nat.lt_of_le_of_lt (nearestSteps_le num den) h)]
  rfl

/-! ## Binary digits at the end -/

/-- **Binary digits behind a number move its spacing up**, whatever digits they are. -/
theorem spacing_mul_two_pow_add {n k r : Nat} (hn : 2 ^ (52 : Nat) ≤ n) (hr : r < 2 ^ k) :
    spacing (n * 2 ^ k + r) = spacing n * 2 ^ k := by
  have hn0 : n ≠ 0 := Nat.ne_zero_of_lt (Nat.lt_of_lt_of_le (Nat.two_pow_pos 52) hn)
  have hlog : (n * 2 ^ k + r).log2 = n.log2 + k := by
    have hpos := Nat.two_pow_pos k
    have hne : n * 2 ^ k + r ≠ 0 := by
      have := Nat.mul_pos (Nat.pos_of_ne_zero hn0) hpos
      omega
    refine (Nat.log2_eq_iff hne).mpr ⟨?_, ?_⟩
    · calc 2 ^ (n.log2 + k) = 2 ^ n.log2 * 2 ^ k := Nat.pow_add ..
        _ ≤ n * 2 ^ k := Nat.mul_le_mul_right _ (Nat.log2_self_le hn0)
        _ ≤ n * 2 ^ k + r := Nat.le_add_right ..
    · calc n * 2 ^ k + r < n * 2 ^ k + 2 ^ k := Nat.add_lt_add_left hr _
        _ = (n + 1) * 2 ^ k := (Nat.succ_mul ..).symm
        _ ≤ 2 ^ (n.log2 + 1) * 2 ^ k := Nat.mul_le_mul_right _ Nat.lt_log2_self
        _ = 2 ^ (n.log2 + k + 1) := by rw [← Nat.pow_add]; congr 1; omega
  have h52 : 52 ≤ n.log2 := (Nat.le_log2 hn0).mpr hn
  rw [spacing, spacing, hlog, ← Nat.pow_add]
  congr 1
  omega

theorem spacing_mul_two_pow {n : Nat} (hn : 2 ^ (52 : Nat) ≤ n) (k : Nat) :
    spacing (n * 2 ^ k) = spacing n * 2 ^ k := by
  have h := spacing_mul_two_pow_add hn (Nat.two_pow_pos k)
  rwa [Nat.add_zero] at h

/-- From `2⁵³` on the spacing is even. -/
theorem two_dvd_spacing {n : Nat} (hn : 2 ^ (53 : Nat) ≤ n) : 2 ∣ spacing n := by
  have hn0 : n ≠ 0 := Nat.ne_zero_of_lt (Nat.lt_of_lt_of_le (Nat.two_pow_pos 53) hn)
  have h53 : 53 ≤ n.log2 := (Nat.le_log2 hn0).mpr hn
  exact dvd_pow_self 2 (by omega)

/-- **That a whole number is rounded down though it lies in the middle**: between its two
neighbours, of which the lower one is even. -/
def TiesDown (n : Nat) : Prop :=
  2 * (n % spacing n) = spacing n ∧ n / spacing n % 2 = 0

instance (n : Nat) : Decidable (TiesDown n) :=
  inferInstanceAs (Decidable (_ ∧ _))

theorem tiesDown_mul_two_pow_iff {n : Nat} (hn : 2 ^ (52 : Nat) ≤ n) (k : Nat) :
    TiesDown (n * 2 ^ k) ↔ TiesDown n := by
  have hpos := Nat.two_pow_pos k
  unfold TiesDown
  rw [spacing_mul_two_pow hn, Nat.mul_mod_mul_right, Nat.mul_div_mul_right _ _ hpos,
    ← Nat.mul_assoc, Nat.mul_left_inj (Nat.ne_of_gt hpos)]

theorem TiesDown.roundedQuotient_eq {n : Nat} (h : TiesDown n) :
    roundedQuotient n (spacing n) = n / spacing n := by
  obtain ⟨htie, heven⟩ := h
  unfold roundedQuotient
  dsimp only
  rw [htie, if_neg (Nat.lt_irrefl _), if_neg (Nat.lt_irrefl _), heven, Nat.add_zero]

/-- What lies behind a quotient and its remainder decides a tie, and nothing else. -/
theorem roundedQuotient_mul_add {n unit w r : Nat} (hunit : 2 ∣ unit) (hr : r < w) :
    roundedQuotient (n * w + r) (unit * w) =
      if r ≠ 0 ∧ 2 * (n % unit) = unit ∧ n / unit % 2 = 0 then n / unit + 1
      else roundedQuotient n unit := by
  have hw : 0 < w := Nat.zero_lt_of_lt hr
  have hdiv : (n * w + r) / (unit * w) = n / unit := by
    rw [Nat.mul_comm unit w, ← Nat.div_div_eq_div_mul, Nat.add_comm,
      Nat.add_mul_div_right _ _ hw, Nat.div_eq_of_lt hr, Nat.zero_add]
  have hmod : (n * w + r) % (unit * w) = n % unit * w + r := by
    have h := Nat.div_add_mod (n * w + r) (unit * w)
    have h' := Nat.div_add_mod n unit
    rw [hdiv] at h
    have : n * w = unit * w * (n / unit) + n % unit * w := by
      conv_lhs => rw [← h', Nat.add_mul, Nat.mul_right_comm]
    omega
  obtain ⟨half, rfl⟩ := hunit
  unfold roundedQuotient
  rw [hdiv, hmod]
  dsimp only
  generalize n % (2 * half) = rest
  generalize n / (2 * half) = q
  -- the three sides of the middle, of which the digits behind only leave the middle itself
  rcases Nat.lt_trichotomy rest half with hlt | rfl | hgt
  · have hmul : (rest + 1) * w ≤ half * w := Nat.mul_le_mul_right w hlt
    rw [Nat.add_mul, Nat.one_mul] at hmul
    have hbelow : 2 * (rest * w + r) < 2 * half * w := by rw [Nat.mul_assoc]; omega
    rw [if_pos hbelow, if_neg (by omega), if_pos (by omega)]
  · have hassoc : 2 * rest * w = 2 * (rest * w) := Nat.mul_assoc ..
    by_cases hr0 : r = 0
    · rw [if_neg (by omega), if_neg (by omega), if_neg (by omega), if_neg (by omega),
        if_neg (by omega)]
    · rw [if_neg (by omega), if_pos (by omega), if_neg (Nat.lt_irrefl _),
        if_neg (Nat.lt_irrefl _)]
      split
      · rfl
      · omega
  · have hmul : (half + 1) * w ≤ rest * w := Nat.mul_le_mul_right w hgt
    rw [Nat.add_mul, Nat.one_mul] at hmul
    have habove : 2 * half * w < 2 * (rest * w + r) := by rw [Nat.mul_assoc]; omega
    rw [if_neg (by omega), if_pos habove, if_neg (by omega), if_neg (by omega), if_pos (by omega)]

/-- **Rounding a number with binary digits behind it**: they are lost, but for what they do
to a tie. -/
theorem nearestSteps_mul_two_pow_add {n k r : Nat} (hn : 2 ^ (53 : Nat) ≤ n) (hr : r < 2 ^ k) :
    nearestSteps (n * 2 ^ k + r) 1 =
      (if r ≠ 0 ∧ TiesDown n then n / spacing n + 1 else roundedQuotient n (spacing n)) *
        spacing n * 2 ^ k := by
  have h52 : 2 ^ (52 : Nat) ≤ n := Nat.le_trans (by decide) hn
  unfold nearestSteps
  rw [Nat.div_one, spacing_mul_two_pow_add h52 hr]
  dsimp only
  rw [Nat.one_mul, roundedQuotient_mul_add (two_dvd_spacing hn) hr, Nat.mul_assoc]
  rfl

/-- **Zeros behind a number are kept in rounding.** -/
theorem nearestSteps_mul_two_pow {n : Nat} (hn : 2 ^ (52 : Nat) ≤ n) (k : Nat) :
    nearestSteps (n * 2 ^ k) 1 = nearestSteps n 1 * 2 ^ k := by
  unfold nearestSteps
  rw [Nat.div_one, Nat.div_one, spacing_mul_two_pow hn]
  dsimp only
  rw [Nat.one_mul, Nat.one_mul, Nat.mul_comm n, Nat.mul_comm (spacing n),
    roundedQuotient_mul_mul (Nat.two_pow_pos k), Nat.mul_comm (2 ^ k), Nat.mul_assoc]

/-- **Rounding does not go below a power of two.** -/
theorem two_pow_le_nearestSteps {n k : Nat} (h : 2 ^ k ≤ n) : 2 ^ k ≤ nearestSteps n 1 := by
  have hn : n ≠ 0 := Nat.ne_zero_of_lt (Nat.lt_of_lt_of_le (Nat.two_pow_pos k) h)
  have hunit := spacing_pos n
  have hdvd : spacing n ∣ 2 ^ n.log2 := Nat.pow_dvd_pow 2 (Nat.sub_le ..)
  have hfloor := le_roundedQuotient n (spacing n)
  unfold nearestSteps
  rw [Nat.div_one]
  dsimp only
  rw [Nat.one_mul]
  calc 2 ^ k ≤ 2 ^ n.log2 := Nat.pow_le_pow_right (by decide) ((Nat.le_log2 hn).mpr h)
    _ = 2 ^ n.log2 / spacing n * spacing n := (Nat.div_mul_cancel hdvd).symm
    _ ≤ n / spacing n * spacing n :=
        Nat.mul_le_mul_right _ (Nat.div_le_div_right (Nat.log2_self_le hn))
    _ ≤ roundedQuotient n (spacing n) * spacing n := Nat.mul_le_mul_right _ hfloor

end Rulebook
