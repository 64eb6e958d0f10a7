import Mathlib.Data.List.Induction
import Mathlib.Data.Nat.Digits.Defs
import Rulebook.Proofs.Number.Spelling
import Rulebook.Proofs.Number.Whole

/-!
# Numbers in a radix

The digits behind a mark such as `0x` are taken into a number one after the other, and each
step is rounded. Whether all of these roundings come to one is not clear, and it is not so.
As long as the number is below `2⁵³`, nothing is rounded. The digit that takes it there is
rounded with what stands before it. Every later digit is too small to move the rounded number
at all, and is read as a zero (`accumulate_ofNat`).

So the number that is read is that of the digits with zeros behind the first ones
(`keptNatural`), and it is the nearest to what the digits denote except in one case: if the
digits that are kept lie in the middle between two numbers and the lower one is even, a later
digit would have decided for the upper one (`numberOfText_inRadix`).
-/

namespace Rulebook

/-! ## One digit after the other -/

/-- **The natural number that digits of a radix denote.** -/
def naturalInRadix (radix : Nat) (digits : List Nat) : Nat := Nat.ofDigits radix digits.reverse

theorem naturalInRadix_append (radix : Nat) (digits : List Nat) (d : Nat) :
    naturalInRadix radix (digits ++ [d]) = naturalInRadix radix digits * radix + d := by
  rw [naturalInRadix, List.reverse_append, List.reverse_singleton, List.singleton_append,
    Nat.ofDigits_cons, Nat.mul_comm, Nat.add_comm]
  rfl

/-- A number with a digit behind it, which is a zero if the number has reached `2⁵³`. -/
def keepDigit (radix n d : Nat) : Nat :=
  if n < 2 ^ (53 : Nat) then n * radix + d else n * radix

/-- **The natural number that is kept of digits**: those after the number has reached `2⁵³`
count as zeros. -/
def keptNatural (radix : Nat) (digits : List Nat) : Nat := digits.foldl (keepDigit radix) 0

theorem keptNatural_append (radix : Nat) (digits : List Nat) (d : Nat) :
    keptNatural radix (digits ++ [d]) = keepDigit radix (keptNatural radix digits) d := by
  rw [keptNatural, List.foldl_append]
  rfl

namespace Binary64

theorem ofNat_eq_infinite {n : Nat} (h : stepsLimit ≤ n * stepsPerUnit) :
    ofNat n = .infinite false := by
  have hlimit : stepsLimit ≤ nearestSteps (n * stepsPerUnit) 1 := by
    unfold stepsLimit at h ⊢
    generalize 2098 = k at h ⊢
    exact two_pow_le_nearestSteps h
  rw [ofNat, nearest, dif_neg (Nat.not_lt.mpr hlimit)]

/-- The number nearest to a natural number that is large enough is that of the rounded one. -/
theorem nearestSteps_mul_stepsPerUnit {n : Nat} (h : 2 ^ (52 : Nat) ≤ n) :
    nearestSteps (n * stepsPerUnit) 1 = nearestSteps n 1 * stepsPerUnit := by
  unfold stepsPerUnit
  generalize 1074 = k
  exact nearestSteps_mul_two_pow h k

theorem nearestSteps_mul_stepsPerUnit_lt_iff {a b : Nat} (ha : 2 ^ (52 : Nat) ≤ a)
    (hb : 2 ^ (52 : Nat) ≤ b) :
    nearestSteps (a * stepsPerUnit) 1 < nearestSteps (b * stepsPerUnit) 1 ↔
      nearestSteps a 1 < nearestSteps b 1 := by
  rw [nearestSteps_mul_stepsPerUnit ha, nearestSteps_mul_stepsPerUnit hb]
  exact Nat.mul_lt_mul_right stepsPerUnit_pos

theorem ofNat_congr {a b : Nat} (ha : 2 ^ (52 : Nat) ≤ a) (hb : 2 ^ (52 : Nat) ≤ b)
    (h : nearestSteps a 1 = nearestSteps b 1) : ofNat a = ofNat b := by
  refine nearest_congr false ?_
  rw [nearestSteps_mul_stepsPerUnit ha, nearestSteps_mul_stepsPerUnit hb, h]

/-- The sum of a number without a sign and a natural number is rounded once. -/
theorem addNat_finite (m : Magnitude) (d : Nat) :
    (finite false m).addNat d = nearest false (m.steps + d * stepsPerUnit) 1 := by
  have hsum : (m.steps : Int) + d * stepsPerUnit = ((m.steps + d * stepsPerUnit : Nat) : Int) := by
    rw [Int.natCast_add, Int.natCast_mul]
  rw [addNat, if_neg Bool.false_ne_true, hsum, decide_eq_false (by omega), Int.natAbs_natCast]

/-- **A digit behind a number on the grid is rounded once**, with the number. -/
theorem addNat_mulNat_of_spacing_dvd {n : Nat} (k d : Nat)
    (h : spacing (n * stepsPerUnit) ∣ n * stepsPerUnit)
    (hshifted : spacing (n * 2 ^ k * stepsPerUnit) ∣ n * 2 ^ k * stepsPerUnit) :
    ((ofNat n).mulNat (2 ^ k)).addNat d = ofNat (n * 2 ^ k + d) := by
  have hproduct : (ofNat n).mulNat (2 ^ k) = ofNat (n * 2 ^ k) := by
    by_cases hlt : n * stepsPerUnit < stepsLimit
    · rw [ofNat_of_spacing_dvd h hlt]
      show nearest false (n * stepsPerUnit * 2 ^ k) 1 = nearest false (n * 2 ^ k * stepsPerUnit) 1
      rw [Nat.mul_right_comm]
    · have hle := Nat.not_lt.mp hlt
      have hmore : stepsLimit ≤ n * 2 ^ k * stepsPerUnit := by
        rw [Nat.mul_right_comm]
        exact Nat.le_trans hle (Nat.le_mul_of_pos_right _ (Nat.two_pow_pos k))
      rw [ofNat_eq_infinite hle, ofNat_eq_infinite hmore, mulNat,
        if_neg (Nat.ne_of_gt (Nat.two_pow_pos k))]
  rw [hproduct]
  by_cases hlt : n * 2 ^ k * stepsPerUnit < stepsLimit
  · rw [ofNat_of_spacing_dvd hshifted hlt, addNat_finite, ofNat, Nat.add_mul]
  · have hle := Nat.not_lt.mp hlt
    have hmore : stepsLimit ≤ (n * 2 ^ k + d) * stepsPerUnit := by
      rw [Nat.add_mul]
      exact Nat.le_trans hle (Nat.le_add_right ..)
    rw [ofNat_eq_infinite hle, ofNat_eq_infinite hmore]
    rfl

end Binary64

/-! ## What is lost -/

/-- What is on the grid is there with zeros behind it, too. -/
theorem spacing_dvd_mul_two_pow_of_dvd {n : Nat} (hn : 2 ^ (52 : Nat) ≤ n)
    (h : spacing n ∣ n) (k : Nat) :
    spacing (n * 2 ^ k) ∣ n * 2 ^ k := by
  rw [spacing_mul_two_pow hn]
  exact Nat.mul_dvd_mul_right h _

/-- **A digit behind a large number on the grid is lost.** -/
theorem nearestSteps_mul_two_pow_add_of_spacing_dvd {n k d : Nat} (hn : 2 ^ (53 : Nat) ≤ n)
    (h : spacing n ∣ n) (hd : d < 2 ^ k) : nearestSteps (n * 2 ^ k + d) 1 = n * 2 ^ k := by
  have hunit := spacing_pos n
  have hties : ¬ TiesDown n := by
    rintro ⟨htie, -⟩
    rw [Nat.mod_eq_zero_of_dvd h] at htie
    omega
  rw [nearestSteps_mul_two_pow_add hn hd, if_neg fun hlost => hties hlost.2]
  congr 1
  obtain ⟨q, hq⟩ := h
  generalize spacing n = unit at hq hunit
  rw [hq, Nat.mul_comm unit q, roundedQuotient_mul_self hunit]

namespace Binary64

/-- What is on the grid of the integers is on the grid of the numbers. -/
theorem spacing_dvd_mul_stepsPerUnit_of_dvd {n : Nat} (hn : 2 ^ (52 : Nat) ≤ n)
    (h : spacing n ∣ n) :
    spacing (n * stepsPerUnit) ∣ n * stepsPerUnit := by
  unfold stepsPerUnit
  generalize 1074 = u
  exact spacing_dvd_mul_two_pow_of_dvd hn h u

/-- **A digit behind a number that has reached `2⁵³` is lost**, since what is read goes on from the
rounded number, which stands on the grid. -/
theorem addNat_mulNat_ofNat_of_le {n k d : Nat} (hn : 2 ^ (53 : Nat) ≤ n) (hd : d < 2 ^ k) :
    ((ofNat n).mulNat (2 ^ k)).addNat d = ofNat (n * 2 ^ k) := by
  have hgrid := spacing_dvd_nearestSteps n 1
  have hrounded : 2 ^ (53 : Nat) ≤ nearestSteps n 1 := two_pow_le_nearestSteps hn
  have hself := nearestSteps_mul_self Nat.one_pos hgrid
  have hzeros := nearestSteps_mul_two_pow (Nat.le_trans (by decide) hn) k
  rw [Nat.mul_one] at hself
  have hwide {a : Nat} (ha : 2 ^ (53 : Nat) ≤ a) : 2 ^ (52 : Nat) ≤ a := Nat.le_trans (by decide) ha
  have hshift {a : Nat} (ha : 2 ^ (53 : Nat) ≤ a) : 2 ^ (52 : Nat) ≤ a * 2 ^ k :=
    Nat.le_trans (hwide ha) (Nat.le_mul_of_pos_right _ (Nat.two_pow_pos k))
  rw [ofNat_congr (hwide hn) (hwide hrounded) hself.symm]
  generalize nearestSteps n 1 = m at hgrid hrounded hzeros
  have hshifted := spacing_dvd_mul_two_pow_of_dvd (hwide hrounded) hgrid k
  rw [addNat_mulNat_of_spacing_dvd k d (spacing_dvd_mul_stepsPerUnit_of_dvd (hwide hrounded) hgrid)
    (spacing_dvd_mul_stepsPerUnit_of_dvd (hshift hrounded) hshifted)]
  refine ofNat_congr (Nat.le_trans (hshift hrounded) (Nat.le_add_right ..)) (hshift hn) ?_
  rw [hzeros, nearestSteps_mul_two_pow_add_of_spacing_dvd hrounded hgrid hd]

/-- **One step of reading digits**: the digit is rounded with the number before it, or it is
lost if this has reached `2⁵³`. -/
theorem addNat_mulNat_ofNat {k d : Nat} (hd : d < 2 ^ k) (n : Nat) :
    ((ofNat n).mulNat (2 ^ k)).addNat d = ofNat (keepDigit (2 ^ k) n d) := by
  unfold keepDigit
  split
  · rename_i hsmall
    refine addNat_mulNat_of_spacing_dvd k d (spacing_dvd_mul_stepsPerUnit (Nat.le_of_lt hsmall)) ?_
    unfold stepsPerUnit
    generalize 1074 = u
    rw [Nat.mul_assoc, ← Nat.pow_add]
    exact spacing_dvd_mul_two_pow (Nat.le_of_lt hsmall) _
  · rename_i hlarge
    exact addNat_mulNat_ofNat_of_le (Nat.not_lt.mp hlarge) hd

end Binary64

/-- **Digits are read as what is kept of them**, behind a number that was read before. -/
theorem accumulate_ofNat {k : Nat} (hk : 2 ^ k ≤ 16) {chars : List Char} {digits : List Nat}
    (h : List.Forall₂ (SpellsDigit (2 ^ k)) chars digits) (n : Nat) :
    accumulate (2 ^ k) (.ofNat n) chars = .ofNat (digits.foldl (keepDigit (2 ^ k)) n) := by
  induction h generalizing n with
  | nil => rfl
  | cons hdigit _ ih =>
    rw [accumulate, (digitIn?_eq_some_iff hk).mpr hdigit, List.foldl_cons, ← ih]
    dsimp only
    rw [Binary64.addNat_mulNat_ofNat hdigit.1]

theorem spellsDigit_of_forall₂ {radix : Nat} {chars : List Char} {digits : List Nat}
    (h : List.Forall₂ (SpellsDigit radix) chars digits) :
    (∀ c ∈ chars, ∃ d, SpellsDigit radix c d) ∧ ∀ d ∈ digits, d < radix := by
  induction h with
  | nil => exact ⟨fun c hc => (by cases hc), fun d hd => by cases hd⟩
  | cons hdigit _ ih =>
    rw [List.forall_mem_cons, List.forall_mem_cons]
    exact ⟨⟨⟨_, hdigit⟩, ih.1⟩, hdigit.1, ih.2⟩

theorem ne_nil_of_forall₂ {radix : Nat} {chars : List Char} {digits : List Nat}
    (h : List.Forall₂ (SpellsDigit radix) chars digits) (hne : digits ≠ []) : chars ≠ [] := by
  rintro rfl
  cases h
  exact hne rfl

theorem numberInRadix_eq_ofNat {mark : Char} {radix : Nat} (hmark : (mark, radix) ∈ radixMarks)
    {chars : List Char} {digits : List Nat} (hne : digits ≠ [])
    (h : List.Forall₂ (SpellsDigit radix) chars digits) :
    numberInRadix radix chars = .ofNat (keptNatural radix digits) := by
  obtain ⟨k, rfl, hk⟩ := exists_two_pow_of_mem_radixMarks hmark
  have hchars := ne_nil_of_forall₂ h hne
  rw [numberInRadix, if_neg (fun hnil => hchars (List.isEmpty_iff.mp hnil)),
    ← Binary64.ofNat_zero, accumulate_ofNat hk h]
  rfl

/-- **What is kept of digits and what is lost.** The digits that are kept come to `2⁵³`, if
any are lost, and those that are lost come to less than a one behind them. -/
theorem exists_kept {k : Nat} {digits : List Nat} (h : ∀ d ∈ digits, d < 2 ^ k) :
    ∃ n j r, keptNatural (2 ^ k) digits = n * 2 ^ j ∧
      naturalInRadix (2 ^ k) digits = n * 2 ^ j + r ∧ r < 2 ^ j ∧ (2 ^ (53 : Nat) ≤ n ∨ j = 0) := by
  induction digits using List.reverseRecOn with
  | nil => exact ⟨0, 0, 0, rfl, rfl, Nat.one_pos, .inr rfl⟩
  | append_singleton digits d ih =>
    obtain ⟨n, j, r, hkept, hnatural, hr, hn⟩ := ih fun e he => h e (by simp [he])
    have hd : d < 2 ^ k := h d (by simp)
    rw [keptNatural_append, naturalInRadix_append, hkept, hnatural, keepDigit]
    have hpos := Nat.two_pow_pos j
    split
    · rename_i hsmall
      obtain hn | rfl := hn
      · have hle := Nat.le_mul_of_pos_right n hpos
        omega
      · obtain rfl : r = 0 := by omega
        exact ⟨n * 2 ^ k + d, 0, 0, by simp, by simp, Nat.one_pos, .inr rfl⟩
    · rename_i hlarge
      refine ⟨n, j + k, r * 2 ^ k + d, ?_, ?_, ?_, ?_⟩
      · rw [Nat.mul_assoc, ← Nat.pow_add]
      · rw [Nat.add_mul, Nat.mul_assoc, ← Nat.pow_add, Nat.add_assoc]
      · calc r * 2 ^ k + d < r * 2 ^ k + 2 ^ k := Nat.add_lt_add_left hd _
          _ = (r + 1) * 2 ^ k := (Nat.succ_mul ..).symm
          _ ≤ 2 ^ j * 2 ^ k := Nat.mul_le_mul_right _ hr
          _ = 2 ^ (j + k) := (Nat.pow_add ..).symm
      · obtain hn | rfl := hn
        · exact .inl hn
        · rw [Nat.pow_zero, Nat.mul_one] at hlarge
          exact .inl (Nat.not_lt.mp hlarge)

/-! ## What is read and what is denoted -/

namespace Binary64

/-- **Digits that are lost make no difference, except in a tie**, and except beyond the limit. -/
theorem ofNat_mul_two_pow_add_eq_iff {n j r : Nat} (hn : 2 ^ (53 : Nat) ≤ n) (hr : r < 2 ^ j)
    (hr0 : r ≠ 0) :
    ofNat (n * 2 ^ j) = ofNat (n * 2 ^ j + r) ↔
      ¬ TiesDown n ∨ (ofNat (n * 2 ^ j)).isFinite = false := by
  have hpos := Nat.two_pow_pos j
  have hkept := nearestSteps_mul_two_pow_add hn hpos
  have hall := nearestSteps_mul_two_pow_add hn hr
  have hwide : 2 ^ (52 : Nat) ≤ n * 2 ^ j :=
    Nat.le_trans (by decide) (Nat.le_trans hn (Nat.le_mul_of_pos_right _ hpos))
  have hwide' : 2 ^ (52 : Nat) ≤ n * 2 ^ j + r := Nat.le_trans hwide (Nat.le_add_right ..)
  rw [Nat.add_zero, if_neg fun h => h.1 rfl] at hkept
  by_cases hties : TiesDown n
  · -- the digits that are lost would have decided the tie for the upper number
    rw [if_pos ⟨hr0, hties⟩] at hall
    rw [hties.roundedQuotient_eq] at hkept
    have hlt : nearestSteps (n * 2 ^ j) 1 < nearestSteps (n * 2 ^ j + r) 1 := by
      rw [hkept, hall]
      exact Nat.mul_lt_mul_of_pos_right
        (Nat.mul_lt_mul_of_pos_right (Nat.lt_succ_self _) (spacing_pos n)) hpos
    rw [← nearestSteps_mul_stepsPerUnit_lt_iff hwide hwide'] at hlt
    refine (nearest_eq_nearest_iff false (Nat.le_of_lt hlt)).trans ?_
    exact or_congr_left ⟨fun heq => absurd heq (Nat.ne_of_lt hlt), fun h => absurd hties h⟩
  · rw [if_neg fun h => hties h.2] at hall
    exact ⟨fun _ => .inl hties, fun _ => ofNat_congr hwide hwide' (hkept.trans hall.symm)⟩

end Binary64

/-- **Digits behind a mark are read as what is kept of them.** -/
theorem numberOfText_eq_ofNat_keptNatural {mark : Char} {radix : Nat}
    (hmark : (mark, radix) ∈ radixMarks) {chars : List Char} {digits : List Nat}
    (hne : digits ≠ []) (h : List.Forall₂ (SpellsDigit radix) chars digits) {text : String}
    (htext : text.toList = '0' :: mark :: chars) :
    numberOfText text = .ofNat (keptNatural radix digits) :=
  (numberOfText_radix hmark (ne_nil_of_forall₂ h hne) (spellsDigit_of_forall₂ h).1 htext).trans
    (numberInRadix_eq_ofNat hmark hne h)

/-- **What digits of a radix are read as**: the number nearest to what is kept of them. It is the
integer that they denote, if this is below `2⁵³`. In general it is the number nearest to this
integer unless something is lost of it and what is kept lies in the middle between two numbers,
where the lower one is taken. -/
theorem numberOfText_inRadix {mark : Char} {radix : Nat} (hmark : (mark, radix) ∈ radixMarks)
    {chars : List Char} {digits : List Nat} (hne : digits ≠ [])
    (h : List.Forall₂ (SpellsDigit radix) chars digits) {text : String}
    (htext : text.toList = '0' :: mark :: chars) :
    numberOfText text = .ofNat (keptNatural radix digits) ∧
      (naturalInRadix radix digits < 2 ^ (53 : Nat) →
        (numberOfText text).toInt? = some (naturalInRadix radix digits : Int)) ∧
      (numberOfText text = .ofNat (naturalInRadix radix digits) ↔
        keptNatural radix digits = naturalInRadix radix digits ∨
          ¬ TiesDown (keptNatural radix digits) ∨ (numberOfText text).isFinite = false) := by
  rw [numberOfText_eq_ofNat_keptNatural hmark hne h htext]
  obtain ⟨k, rfl, -⟩ := exists_two_pow_of_mem_radixMarks hmark
  obtain ⟨n, j, r, hkept, hnatural, hr, hn⟩ := exists_kept (spellsDigit_of_forall₂ h).2
  rw [hkept, hnatural]
  refine ⟨rfl, fun hsmall => ?_, ?_⟩
  · obtain hn | rfl := hn
    · have hle := Nat.le_mul_of_pos_right n (Nat.two_pow_pos j)
      omega
    · obtain rfl : r = 0 := Nat.lt_one_iff.mp hr
      exact Binary64.toInt?_ofNat (Nat.le_of_lt hsmall)
  · by_cases hr0 : r = 0
    · rw [hr0, Nat.add_zero]
      exact ⟨fun _ => .inl rfl, fun _ => rfl⟩
    · have hn : 2 ^ (53 : Nat) ≤ n := hn.resolve_right fun hj => hr0 (by rw [hj] at hr; omega)
      rw [Binary64.ofNat_mul_two_pow_add_eq_iff hn hr hr0,
        tiesDown_mul_two_pow_iff (Nat.le_trans (by decide) hn)]
      exact ⟨.inr, fun h => h.resolve_left fun heq => hr0 (by omega)⟩

theorem numberOfText_inRadix_mixed_case :
    numberOfText "0xfF" = .ofNat 255 ∧ (numberOfText "0xfF").toInt? = some 255 := by
  have hmark : ('x', 16) ∈ radixMarks := by decide
  have hdigits : List.Forall₂ (SpellsDigit 16) ['f', 'F'] [15, 15] :=
    .cons (by decide) (.cons (by decide) .nil)
  have htext : "0xfF".toList = ['0', 'x', 'f', 'F'] := rfl
  obtain ⟨hread, hexact, -⟩ := numberOfText_inRadix hmark (by decide) hdigits htext
  exact ⟨hread, hexact (by decide)⟩

/-- **One rounding is not enough to tell what is read.** The digits denote `2⁵⁷ + 17`, one more
than the middle between two numbers, and are read as the lower one: the last digit comes too
late. -/
theorem not_forall_numberOfText_eq_ofNat :
    ¬ ∀ (mark : Char) (radix : Nat) (chars : List Char) (digits : List Nat) (text : String),
      (mark, radix) ∈ radixMarks → digits ≠ [] →
      List.Forall₂ (SpellsDigit radix) chars digits → text.toList = '0' :: mark :: chars →
        numberOfText text = .ofNat (naturalInRadix radix digits) := by
  intro h
  have hmark : ('x', 16) ∈ radixMarks := by decide
  have hdigits : List.Forall₂ (SpellsDigit 16) "200000000000011".toList
      [2, 0, 0, 0, 0, 0, 0, 0, 0, 0, 0, 0, 0, 1, 1] := by
    repeat refine .cons (by decide) ?_
    exact .nil
  have htext : "0x200000000000011".toList = '0' :: 'x' :: "200000000000011".toList := rfl
  have hread := h _ _ _ _ _ hmark (by decide) hdigits htext
  rw [numberOfText_eq_ofNat_keptNatural hmark (by decide) hdigits htext] at hread
  -- the last digit is the one that is lost
  have hlost := (Binary64.ofNat_mul_two_pow_add_eq_iff
    (show 2 ^ (53 : Nat) ≤ 2 ^ (53 : Nat) + 1 by decide) (show 1 < 2 ^ (4 : Nat) by decide)
    Nat.one_ne_zero).mp hread
  obtain hties | hinfinite := hlost
  · exact hties (by decide)
  · have hfinite : (Binary64.ofNat ((2 ^ (53 : Nat) + 1) * 2 ^ (4 : Nat))).isFinite :=
      Binary64.isFinite_nearest false (by decide +kernel)
    rw [hfinite] at hinfinite
    cases hinfinite

end Rulebook
