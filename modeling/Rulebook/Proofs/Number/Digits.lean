import Rulebook.Number.Decimal

/-!
# Rows of digits

Writing a natural number gives a row of digits, and a row of digits denotes a
natural number. The row that is written denotes the number it was written for
(`natOfDigits_toDigits`), it holds digits only, and it does not begin with a
zero unless it is a single one. In a text such a row is taken off as a whole
when no digit follows it (`takeDigits_append`).
-/

namespace Rulebook

theorem natOfDigits_eq_ofDigitChars (digits : List Char) :
    natOfDigits digits = Nat.ofDigitChars 10 digits 0 := rfl

/-- **The digits of a number denote the number.** -/
@[simp] theorem natOfDigits_toDigits (n : Nat) : natOfDigits (Nat.toDigits 10 n) = n :=
  Nat.ofDigitChars_ten_toDigits

/-- Digits behind digits move them up. -/
theorem natOfDigits_append (xs ys : List Char) :
    natOfDigits (xs ++ ys) = natOfDigits xs * 10 ^ ys.length + natOfDigits ys := by
  rw [natOfDigits_eq_ofDigitChars, Nat.ofDigitChars_append, Nat.ofDigitChars_eq_ofDigitChars_zero,
    Nat.mul_comm]
  rfl

theorem natOfDigits_replicate (n : Nat) : natOfDigits (List.replicate n '0') = 0 := by
  rw [natOfDigits_eq_ofDigitChars, Nat.ofDigitChars_replicate_zero, Nat.mul_zero]

/-- Zeros before digits do not count. -/
theorem natOfDigits_padded (n : Nat) (digits : List Char) :
    natOfDigits (List.replicate n '0' ++ digits) = natOfDigits digits := by
  rw [natOfDigits_append, natOfDigits_replicate, Nat.zero_mul, Nat.zero_add]

/-- Where the digits are. -/
theorem toNat_of_isDigit {c : Char} (h : c.isDigit) : 48 ≤ c.toNat ∧ c.toNat ≤ 57 := by
  rw [Char.isDigit, Bool.and_eq_true] at h
  exact ⟨of_decide_eq_true h.1, of_decide_eq_true h.2⟩

theorem isDigit_of_mem_toDigits {n : Nat} {c : Char} (h : c ∈ Nat.toDigits 10 n) : c.isDigit :=
  Nat.isDigit_of_mem_toDigits (by decide) (by decide) h

/-- The digits of a number that is not zero do not begin with a zero. -/
theorem toDigits_head_ne_zero {n : Nat} (hn : n ≠ 0) :
    ∃ d more, Nat.toDigits 10 n = d :: more ∧ d ≠ '0' := by
  induction n using Nat.strongRecOn with
  | ind n ih =>
    by_cases h : n < 10
    · refine ⟨n.digitChar, [], Nat.toDigits_of_lt_base h, fun hd => hn ?_⟩
      have hval := Nat.toNat_digitChar_sub_48_of_lt_ten h
      rw [hd] at hval
      exact hval.symm
    · obtain ⟨d, more, hmore, hd⟩ := ih (n / 10) (by omega) (by omega)
      rw [Nat.toDigits_of_base_le (by decide) (Nat.not_lt.mp h), hmore]
      exact ⟨d, _, rfl, hd⟩

/-! ## Padded digits -/

/-- The digits of a number after as many zeros as it takes to fill a width. -/
def paddedChars (width n : Nat) : List Char :=
  List.replicate (width - (Nat.toDigits 10 n).length) '0' ++ Nat.toDigits 10 n

theorem isDigit_of_mem_paddedChars {width n : Nat} {c : Char} (h : c ∈ paddedChars width n) :
    c.isDigit := by
  obtain h | h := List.mem_append.mp h
  · rw [List.eq_of_mem_replicate h]
    decide
  · exact isDigit_of_mem_toDigits h

@[simp] theorem natOfDigits_paddedChars (width n : Nat) :
    natOfDigits (paddedChars width n) = n := by
  rw [paddedChars, natOfDigits_padded, natOfDigits_toDigits]

theorem paddedChars_ne_nil (width n : Nat) : paddedChars width n ≠ [] :=
  List.append_ne_nil_of_right_ne_nil _ Nat.toDigits_ne_nil

theorem le_length_paddedChars (width n : Nat) : width ≤ (paddedChars width n).length := by
  rw [paddedChars, List.length_append, List.length_replicate]
  omega

/-- A number that fits the width fills it. -/
theorem length_paddedChars {width n : Nat} (hwidth : 0 < width) (h : n < 10 ^ width) :
    (paddedChars width n).length = width := by
  have hlength := (Nat.length_toDigits_le_iff (b := 10) (by decide) hwidth).mpr h
  rw [paddedChars, List.length_append, List.length_replicate]
  omega

/-- Only zeros that fill the width stand before the digits of a number. -/
theorem length_paddedChars_of_head {width n : Nat} (hn : n ≠ 0)
    (h : (paddedChars width n).head? = some '0') : (paddedChars width n).length = width := by
  by_cases hzeros : width - (Nat.toDigits 10 n).length = 0
  · obtain ⟨d, others, hrow, hd⟩ := toDigits_head_ne_zero hn
    rw [paddedChars, hzeros, hrow] at h
    exact absurd (Option.some.inj h) hd
  · rw [paddedChars, List.length_append, List.length_replicate]
    omega

/-! ## Digits in a text -/

/-- That a text does not begin with a digit. -/
def NoDigit (text : List Char) : Prop := ∀ c ∈ text.head?, c.isDigit = false

theorem noDigit_cons {c : Char} (h : c.isDigit = false) (rest : List Char) :
    NoDigit (c :: rest) := by
  intro d hd
  rw [List.head?_cons, Option.mem_some_iff] at hd
  exact hd ▸ h

/-- Nothing is skipped before what is not to be skipped. -/
theorem dropWhile_cons_of_eq_false {p : Char → Bool} {c : Char} (h : p c = false)
    (rest : List Char) : (c :: rest).dropWhile p = c :: rest :=
  List.dropWhile_cons_of_neg (ne_true_of_eq_false h)

/-- Where no digit stands, none is skipped. -/
theorem NoDigit.dropWhile_eq {rest : List Char} (h : NoDigit rest) :
    rest.dropWhile Char.isDigit = rest := by
  cases rest with
  | nil => rfl
  | cons c more => exact dropWhile_cons_of_eq_false (h c rfl) more

/-- Where no digit stands, none is taken, however many may be. -/
theorem NoDigit.takeWhile_take {rest : List Char} (h : NoDigit rest) (most : Nat) :
    (rest.take most).takeWhile Char.isDigit = [] := by
  cases most with
  | zero => rfl
  | succ most =>
    cases rest with
    | nil => rfl
    | cons c more =>
      rw [List.take_succ_cons]
      exact List.takeWhile_cons_of_neg (ne_true_of_eq_false (h c rfl))

/-- **A row of digits is taken off as a whole.** -/
theorem takeDigits_append {digits rest : List Char} (hdigits : ∀ c ∈ digits, c.isDigit)
    (hrest : NoDigit rest) : takeDigits (digits ++ rest) = (digits, rest) := by
  have htake : rest.takeWhile Char.isDigit = [] := by
    have h := hrest.takeWhile_take rest.length
    rwa [List.take_length] at h
  rw [takeDigits, List.takeWhile_append_of_pos hdigits, List.dropWhile_append_of_pos hdigits,
    htake, hrest.dropWhile_eq, List.append_nil]

end Rulebook
