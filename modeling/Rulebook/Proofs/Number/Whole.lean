import Rulebook.Proofs.Number.Digits
import Rulebook.Proofs.Number.Shortest
import Rulebook.Number.Layout

/-!
# Whole numbers

A number that is read from digits is whole: it is one of the integers, or infinite
(`exists_toInt?_ofNat`). The other way round, a whole number that is not negative is
written in digits alone, without a point, and these digits denote the number again
(`exists_digits_of_text`). They need not be the digits of its integer, because the
shortest digits that read back are taken and filled up with zeros.

That there is no point is a fact about the search for the shortest digits. On the
grid of the integers a whole number hits itself, so a finer grid is never reached;
and if no grid has a hit, the zeros at the end of the exact digits take the exponent
up to zero.
-/

namespace Rulebook

/-! ## Digits are read as a whole number -/

/-- Of two powers of two one divides the other. -/
theorem spacing_dvd_or_dvd (steps : Nat) :
    spacing steps ∣ stepsPerUnit ∨ stepsPerUnit ∣ spacing steps := by
  unfold spacing stepsPerUnit
  generalize steps.log2 - 52 = k
  generalize 1074 = u
  obtain h | h := Nat.le_total k u
  · exact .inl (Nat.pow_dvd_pow 2 h)
  · exact .inr (Nat.pow_dvd_pow 2 h)

/-- **A whole number of units is rounded to a whole number of units.** -/
theorem stepsPerUnit_dvd_nearestSteps (n : Nat) :
    stepsPerUnit ∣ nearestSteps (n * stepsPerUnit) 1 := by
  obtain h | h := spacing_dvd_or_dvd (n * stepsPerUnit)
  · -- the grid is fine enough here, so nothing is rounded
    have hexact := nearestSteps_mul_self Nat.one_pos (h.trans (Nat.dvd_mul_left _ n))
    rw [Nat.mul_one] at hexact
    rw [hexact]
    exact Nat.dvd_mul_left _ n
  · unfold nearestSteps
    rw [Nat.div_one]
    exact h.trans (Nat.dvd_mul_left _ _)

namespace Binary64

/-- **What is read from digits is whole**, if it is finite. -/
theorem exists_toInt?_ofNat {n : Nat} (h : (ofNat n).isFinite) :
    ∃ m : Nat, (ofNat n).toInt? = some (m : Int) := by
  unfold ofNat nearest at h ⊢
  split at h
  · rename_i hlt
    rw [dif_pos hlt, toInt?, if_pos (Nat.mod_eq_zero_of_dvd (stepsPerUnit_dvd_nearestSteps n))]
    exact ⟨_, rfl⟩
  · cases h

theorem ofNat_zero : ofNat 0 = zero := by
  have hsteps : nearestSteps (0 * stepsPerUnit) 1 = 0 := by
    rw [Nat.zero_mul]
    exact nearestSteps_eq_zero (by decide)
  rw [ofNat, nearest, dif_pos (by rw [hsteps]; exact stepsLimit_pos)]
  exact finite_eq_zero hsteps

/-- What is rounded alike is the same number. -/
theorem nearest_congr {num den num' den' : Nat} (negative : Bool)
    (h : nearestSteps num den = nearestSteps num' den') :
    nearest negative num den = nearest negative num' den' := by
  simp only [nearest, h]

/-- Rounding to a larger count of steps gives another number, unless both are too large. -/
theorem nearest_eq_nearest_iff (negative : Bool) {num den num' den' : Nat}
    (hle : nearestSteps num den ≤ nearestSteps num' den') :
    nearest negative num den = nearest negative num' den' ↔
      nearestSteps num den = nearestSteps num' den' ∨
        (nearest negative num den).isFinite = false := by
  constructor
  · intro h
    by_cases hlt : nearestSteps num den < stepsLimit
    · rw [nearest, nearest, dif_pos hlt] at h
      split at h
      · exact .inl (congrArg Magnitude.steps (finite.inj h).2)
      · cases h
    · rw [nearest, dif_neg hlt]
      exact .inr rfl
  · rintro (h | h)
    · exact nearest_congr negative h
    · by_cases hlt : nearestSteps num den < stepsLimit
      · rw [nearest, dif_pos hlt] at h
        cases h
      · rw [nearest, nearest, dif_neg hlt,
          dif_neg fun hlt' => hlt (Nat.lt_of_le_of_lt hle hlt')]

/-- A natural number on the grid is its own number, unless it is too large. -/
theorem ofNat_of_spacing_dvd {n : Nat} (h : spacing (n * stepsPerUnit) ∣ n * stepsPerUnit)
    (hlt : n * stepsPerUnit < stepsLimit) : ofNat n = .finite false ⟨_, h, hlt⟩ := by
  have hexact := nearest_steps_mul false ⟨_, h, hlt⟩ Nat.one_pos
  rwa [Nat.mul_one] at hexact

/-- An integer that is not too large is on the grid. -/
theorem spacing_dvd_mul_stepsPerUnit {n : Nat} (h : n ≤ 2 ^ (53 : Nat)) :
    spacing (n * stepsPerUnit) ∣ n * stepsPerUnit := by
  unfold stepsPerUnit
  exact spacing_dvd_mul_two_pow h 1074

theorem mul_stepsPerUnit_lt {n : Nat} (h : n ≤ 2 ^ (53 : Nat)) : n * stepsPerUnit < stepsLimit := by
  have hexponents : 53 + 1074 < 2098 := by decide
  -- the exponents become variables, so that no power of this size is computed
  unfold stepsPerUnit stepsLimit
  generalize 1074 = a at hexponents ⊢
  generalize 2098 = b at hexponents ⊢
  refine Nat.lt_of_le_of_lt (Nat.mul_le_mul_right _ h) ?_
  rw [← Nat.pow_add]
  exact Nat.pow_lt_pow_right Nat.one_lt_two hexponents

/-- **An integer that is not too large stands where it is**, as no rounding moves it. -/
theorem position_ofNat {n : Nat} (h : n ≤ 2 ^ (53 : Nat)) :
    (ofNat n).position = some ((n * stepsPerUnit : Nat) : Int) := by
  rw [ofNat_of_spacing_dvd (spacing_dvd_mul_stepsPerUnit h) (mul_stepsPerUnit_lt h)]
  rfl

/-- **An integer that is not too large is that integer.** -/
theorem toInt?_ofNat {n : Nat} (h : n ≤ 2 ^ (53 : Nat)) : (ofNat n).toInt? = some (n : Int) := by
  rw [ofNat_of_spacing_dvd (spacing_dvd_mul_stepsPerUnit h) (mul_stepsPerUnit_lt h), toInt?,
    if_pos (Nat.mul_mod_left ..), Nat.mul_div_cancel _ stepsPerUnit_pos]
  rfl

/-- What is read from digits has no sign. -/
theorem unsignedZero_ofNat (n : Nat) : (ofNat n).unsignedZero = ofNat n := by
  unfold unsignedZero
  split
  · rename_i hzero
    unfold ofNat nearest at hzero ⊢
    split at hzero
    · rename_i hlt
      rw [dif_pos hlt]
      exact (finite_eq_zero (position_finite_eq_zero_iff.mp hzero)).symm
    · exact absurd hzero (position_infinite_ne_zero false)
  · rfl

end Binary64

/-! ## The shortest digits of a whole number -/

namespace PlacedDigits

/-- What digits before the point read as. -/
theorem readSteps_natCast (digits e : Nat) :
    readSteps ⟨digits, (e : Int)⟩ = nearestSteps (digits * 10 ^ e * stepsPerUnit) 1 := rfl

theorem exponent_le_trimZeros (fuel : Nat) (p : PlacedDigits) :
    p.exponent ≤ (p.trimZeros fuel).exponent := by
  induction fuel generalizing p with
  | zero => exact Int.le_refl _
  | succ fuel ih =>
    rw [trimZeros]
    split
    · exact Int.le_trans (Int.le_of_lt (Int.lt_succ _)) (ih ⟨p.digits / 10, p.exponent + 1⟩)
    · exact Int.le_refl _

/-- **All zeros at the end are moved into the exponent**, as long as there is fuel. -/
theorem exponent_add_le_trimZeros {zeros fuel : Nat} {p : PlacedDigits} (hdigits : p.digits ≠ 0)
    (hzeros : 10 ^ zeros ∣ p.digits) (hfuel : zeros ≤ fuel) :
    p.exponent + zeros ≤ (p.trimZeros fuel).exponent := by
  induction zeros generalizing fuel p with
  | zero =>
    rw [Int.natCast_zero, Int.add_zero]
    exact exponent_le_trimZeros fuel p
  | succ zeros ih =>
    obtain ⟨fuel, rfl⟩ := Nat.exists_eq_succ_of_ne_zero (Nat.ne_zero_of_lt hfuel)
    obtain ⟨q, hq⟩ := hzeros
    have hten : p.digits = 10 * (10 ^ zeros * q) := by rw [hq, Nat.pow_succ']; ring
    have hdiv : p.digits / 10 = 10 ^ zeros * q := by
      rw [hten, Nat.mul_div_cancel_left _ (by decide)]
    have hmod : p.digits % 10 = 0 := by rw [hten, Nat.mul_mod_right]
    have hne : p.digits / 10 ≠ 0 := by omega
    rw [trimZeros, if_pos ⟨hdigits, hmod⟩]
    have hmore := ih (p := ⟨p.digits / 10, p.exponent + 1⟩) hne ⟨q, hdiv⟩
      (Nat.le_of_succ_le_succ hfuel)
    rw [Int.natCast_succ]
    dsimp only at hmore
    omega

end PlacedDigits

namespace Magnitude

variable {m : Magnitude}

/-- **The candidates of a grid**, of which the first that reads back is the hit: both
have the exponent of the grid, and the quotient is one of them. -/
theorem exists_candidates (tie : Tie) (m : Magnitude) (exponent : Int) :
    ∃ first second : PlacedDigits,
      m.hitOnGrid? tie exponent
        = (if first.readSteps = m.steps then some first
          else if second.readSteps = m.steps then some second else none) ∧
      first.exponent = exponent ∧ second.exponent = exponent ∧
      ⟨(m.overPower exponent).1 / (m.overPower exponent).2, exponent⟩ ∈ [first, second] := by
  have hordered (preferAbove : Bool) (digits digits' : Nat) :
      let pair : PlacedDigits × PlacedDigits :=
        if preferAbove then (⟨digits', exponent⟩, ⟨digits, exponent⟩)
        else (⟨digits, exponent⟩, ⟨digits', exponent⟩)
      pair.1.exponent = exponent ∧ pair.2.exponent = exponent ∧
        ⟨digits, exponent⟩ ∈ [pair.1, pair.2] := by
    cases preferAbove
    · exact ⟨rfl, rfl, List.mem_cons_self⟩
    · exact ⟨rfl, rfl, List.mem_cons_of_mem _ List.mem_cons_self⟩
  unfold hitOnGrid?
  generalize m.overPower exponent = ratio
  dsimp only
  exact ⟨_, _, rfl, hordered _ _ _⟩

/-- A hit on a grid has the exponent of the grid. -/
theorem exponent_of_hitOnGrid? {tie : Tie} {exponent : Int} {p : PlacedDigits}
    (h : m.hitOnGrid? tie exponent = some p) : p.exponent = exponent := by
  obtain ⟨first, second, hhit, hfirst, hsecond, -⟩ := exists_candidates tie m exponent
  rw [hhit] at h
  split at h
  · exact Option.some.inj h ▸ hfirst
  · split at h
    · exact Option.some.inj h ▸ hsecond
    · cases h

theorem overPower_natCast (m : Magnitude) (e : Nat) :
    m.overPower (e : Int) = (m.steps, stepsPerUnit * 10 ^ e) := rfl

/-- A whole number hits itself on the grid of the integers. -/
theorem isSome_hitOnGrid? (h : stepsPerUnit ∣ m.steps) (tie : Tie) :
    (m.hitOnGrid? tie (0 : Nat)).isSome := by
  obtain ⟨first, second, hhit, -, -, hp⟩ := exists_candidates tie m ((0 : Nat) : Int)
  rw [overPower_natCast, Nat.pow_zero, Nat.mul_one] at hp
  have hread : PlacedDigits.readSteps ⟨m.steps / stepsPerUnit, ((0 : Nat) : Int)⟩ = m.steps := by
    have hexact := nearestSteps_mul_self Nat.one_pos m.aligned
    rw [Nat.mul_one] at hexact
    rw [PlacedDigits.readSteps_natCast, Nat.pow_zero, Nat.mul_one, Nat.div_mul_cancel h, hexact]
  rw [hhit]
  by_cases hfirst : first.readSteps = m.steps
  · rw [if_pos hfirst]
    rfl
  · -- the quotient is one of the two, and not the first
    have hsecond : second.readSteps = m.steps := by
      obtain hp | hp := List.mem_cons.mp hp
      · rw [hp] at hread
        exact absurd hread hfirst
      · rw [List.mem_singleton.mp hp] at hread
        exact hread
    rw [if_neg hfirst, if_pos hsecond]
    rfl

theorem le_log2_of_stepsPerUnit_le {n : Nat} (h : stepsPerUnit ≤ n) : 1074 ≤ n.log2 := by
  have hn : n ≠ 0 := Nat.ne_zero_of_lt (Nat.lt_of_lt_of_le stepsPerUnit_pos h)
  unfold stepsPerUnit at h
  generalize 1074 = u at h ⊢
  exact (Nat.le_log2 hn).mpr h

/-- The leading digit of a whole number that is not zero is no fraction. -/
theorem leadingExponent_nonneg (h : stepsPerUnit ≤ m.steps) : 0 ≤ m.leadingExponent := by
  have hreaches : m.reaches (0 : Nat) = true := by
    unfold reaches
    rw [overPower_natCast, Nat.pow_zero, Nat.mul_one]
    exact decide_eq_true h
  have hlog := le_log2_of_stepsPerUnit_le h
  unfold leadingExponent
  generalize m.steps.log2 = log at hlog
  dsimp only
  generalize hestimate : ((log : Int) - 1074) * 30103 / 100000 - 1 = estimate
  have hlow : -1 ≤ estimate := by omega
  split
  · omega
  split
  · omega
  split
  · omega
  · rename_i hone
    -- an estimate of `-1` is too small by one at least
    by_cases hminus : estimate = -1
    · rw [hminus] at hone
      exact absurd hreaches hone
    · omega

/-- The exact digits of a whole number have zeros up to the point. -/
theorem exponent_trimZeros_exactDigits_nonneg (h : stepsPerUnit ∣ m.steps) (hm : m.steps ≠ 0) :
    0 ≤ (m.exactDigits.trimZeros (m.exactDigits.digits.log2 + 1)).exponent := by
  -- for any number of places, since this one is too large to compute with
  have hzeros (places : Nat) (h : 2 ^ places ∣ m.steps) : 10 ^ places ∣ m.steps * 5 ^ places := by
    obtain ⟨q, hq⟩ := h
    refine ⟨q, ?_⟩
    rw [hq, show 10 = 2 * 5 from rfl, Nat.mul_pow]
    ring
  unfold stepsPerUnit at h
  have hdvd : 10 ^ (1074 : Nat) ∣ m.exactDigits.digits := hzeros 1074 h
  have hdigits : m.exactDigits.digits ≠ 0 := by
    refine PlacedDigits.digits_ne_zero ?_
    rw [m.readSteps_exactDigits]
    exact hm
  have hexponent : m.exactDigits.exponent = -1074 := rfl
  generalize m.exactDigits = p at *
  have hfuel : 1074 ≤ p.digits.log2 + 1 := by
    have hle := Nat.le_of_dvd (Nat.pos_of_ne_zero hdigits) hdvd
    generalize 1074 = places at hle ⊢
    have hpow : 2 ^ places ≤ 10 ^ places := Nat.pow_le_pow_left (by decide) places
    exact Nat.le_succ_of_le ((Nat.le_log2 hdigits).mpr (Nat.le_trans hpow hle))
  have hle := PlacedDigits.exponent_add_le_trimZeros hdigits hdvd hfuel
  rw [hexponent] at hle
  exact hle

/-- What is smaller than a member of a range comes before it. -/
theorem mem_before_of_lt {count small large : Nat} {before after : List Nat}
    (h : List.range count = before ++ large :: after) (hlt : small < large) : small ∈ before := by
  have hlarge : large ∈ List.range count := h ▸ List.mem_append_right _ List.mem_cons_self
  have hsmall : small ∈ List.range count :=
    List.mem_range.mpr (Nat.lt_trans hlt (List.mem_range.mp hlarge))
  have hascending : (before ++ large :: after).Pairwise (· < ·) := h ▸ List.pairwise_lt_range
  rw [h, List.mem_append, List.mem_cons] at hsmall
  obtain hsmall | rfl | hafter := hsmall
  · exact hsmall
  · exact absurd hlt (Nat.lt_irrefl _)
  · have hcons := (List.pairwise_append.mp hascending).2.1
    exact absurd ((List.pairwise_cons.mp hcons).1 small hafter) (Nat.lt_asymm hlt)

/-- **The shortest digits of a whole number end before the point.** -/
theorem exponent_shortest_nonneg (h : stepsPerUnit ∣ m.steps) (hm : m.steps ≠ 0) (tie : Tie) :
    0 ≤ (m.shortest tie).exponent := by
  have hlead := leadingExponent_nonneg (Nat.le_of_dvd (Nat.pos_of_ne_zero hm) h)
  unfold shortest
  dsimp only
  cases hhit : (List.range 17).findSome? fun (k : Nat) => m.hitOnGrid? tie (m.leadingExponent - k)
      with
  | none => exact exponent_trimZeros_exactDigits_nonneg h hm
  | some p =>
    obtain ⟨before, k, after, hrange, hk, hbefore⟩ := List.findSome?_eq_some_iff.mp hhit
    refine Int.le_trans ?_ (PlacedDigits.exponent_le_trimZeros _ p)
    rw [exponent_of_hitOnGrid? hk]
    by_cases hle : (k : Int) ≤ m.leadingExponent
    · omega
    · -- the grid of the integers comes before this one, and it has a hit
      obtain ⟨lead, hlead⟩ := Int.eq_ofNat_of_zero_le hlead
      have hnone := hbefore lead (mem_before_of_lt hrange (by omega))
      have hsome := isSome_hitOnGrid? h tie
      rw [hlead, Int.sub_self] at hnone
      rw [Int.natCast_zero, hnone] at hsome
      cases hsome

/-! ## The text of a whole number -/

/-- The digits of a whole number, filled up with zeros, denote it. -/
theorem ofNat_shortest (h : stepsPerUnit ∣ m.steps) (hm : m.steps ≠ 0) (tie : Tie) :
    ∃ e : Nat, (m.shortest tie).exponent = e ∧
      Binary64.ofNat ((m.shortest tie).digits * 10 ^ e) = .finite false m := by
  obtain ⟨e, he⟩ := Int.eq_ofNat_of_zero_le (exponent_shortest_nonneg h hm tie)
  have hread : nearestSteps ((m.shortest tie).digits * 10 ^ e * stepsPerUnit) 1 = m.steps := by
    rw [← PlacedDigits.readSteps_natCast, ← he]
    exact m.readSteps_shortest tie
  refine ⟨e, he, ?_⟩
  rw [Binary64.ofNat, Binary64.nearest, dif_pos (by rw [hread]; exact m.bounded)]
  exact congrArg (Binary64.finite false) (ext_steps hread)

/-- **The text of a whole magnitude is digits that denote it.** -/
theorem digits_magnitudeText (h : stepsPerUnit ∣ m.steps) :
    (Layout.plain.magnitudeText m).toList ≠ [] ∧
      (∀ c ∈ (Layout.plain.magnitudeText m).toList, c.isDigit) ∧
      Binary64.ofNat (natOfDigits (Layout.plain.magnitudeText m).toList) = .finite false m := by
  by_cases hm : m.steps = 0
  · have htext : (Layout.plain.magnitudeText m).toList = ['0'] := by
      rw [Layout.magnitudeText, if_pos hm]
      rfl
    rw [htext]
    refine ⟨List.cons_ne_nil _ _, fun c hc => ?_, ?_⟩
    · rw [List.mem_singleton.mp hc]
      rfl
    · rw [Binary64.finite_eq_zero hm]
      exact Binary64.ofNat_zero
  · obtain ⟨e, he, hdenotes⟩ := ofNat_shortest h hm .up
    have htext : (Layout.plain.magnitudeText m).toList
        = Nat.toDigits 10 (m.shortest .up).digits ++ List.replicate e '0' := by
      have hplain : Layout.plain.magnitudeText m
          = Layout.positionalText false (m.shortest .up) := by
        rw [Layout.magnitudeText, if_neg hm]
        rfl
      rw [hplain, Layout.positionalText, he]
      simp
    rw [htext]
    refine ⟨List.append_ne_nil_of_left_ne_nil Nat.toDigits_ne_nil _, fun c hc => ?_, ?_⟩
    · obtain hc | hc := List.mem_append.mp hc
      · exact isDigit_of_mem_toDigits hc
      · rw [List.eq_of_mem_replicate hc]
        decide
    · rw [natOfDigits_append, natOfDigits_toDigits, natOfDigits_replicate, List.length_replicate,
        Nat.add_zero, hdenotes]

end Magnitude

namespace Binary64

/-- A whole number that is not negative has no sign to lose but that of a zero. -/
theorem unsignedZero_of_toInt?_natCast {negative : Bool} {m : Magnitude} {n : Nat}
    (h : (finite negative m).toInt? = some (n : Int)) :
    stepsPerUnit ∣ m.steps ∧ (finite negative m).unsignedZero = finite false m := by
  rw [toInt?] at h
  split at h
  · rename_i hwhole
    refine ⟨Nat.dvd_of_mod_eq_zero hwhole, ?_⟩
    by_cases hm : m.steps = 0
    · rw [unsignedZero, if_pos (position_finite_eq_zero_iff.mpr hm)]
      exact (finite_eq_zero hm).symm
    · rw [unsignedZero, if_neg (fun hzero => hm (position_finite_eq_zero_iff.mp hzero))]
      cases negative with
      | false => rfl
      | true =>
        have hpos : 0 < m.steps / stepsPerUnit :=
          Nat.div_pos (Nat.le_of_dvd (Nat.pos_of_ne_zero hm) (Nat.dvd_of_mod_eq_zero hwhole))
            stepsPerUnit_pos
        have hvalue := Option.some.inj h
        rw [if_pos rfl] at hvalue
        omega
  · cases h

/-- **A whole number that is not negative is written in digits that denote it**, but
for the sign of a zero. -/
theorem exists_digits_of_text {x : Binary64} {n : Nat} (h : x.toInt? = some (n : Int)) :
    ∃ sign digits, x.text.toList = sign ++ digits ∧ (sign = [] ∨ sign = ['-']) ∧ digits ≠ [] ∧
      (∀ c ∈ digits, c.isDigit) ∧ ofNat (natOfDigits digits) = x.unsignedZero := by
  cases x with
  | nan => cases h
  | infinite negative => cases h
  | finite negative m =>
    obtain ⟨hwhole, hunsigned⟩ := unsignedZero_of_toInt?_natCast h
    obtain ⟨hne, hdigits, hdenotes⟩ := Magnitude.digits_magnitudeText hwhole
    refine ⟨(if negative then "-" else "").toList, _, ?_, ?_, hne, hdigits,
      hdenotes.trans hunsigned.symm⟩
    · rw [text, String.toList_append]
    · cases negative
      · exact .inl rfl
      · exact .inr rfl

end Binary64

end Rulebook
