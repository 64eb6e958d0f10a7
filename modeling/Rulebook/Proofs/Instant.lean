import Rulebook.Instant.Reader
import Rulebook.Proofs.Number.Digits

/-!
# Points in time are read as they were written

A point in time is written in one form and read in many. A clock shows only
points in time that are real, `Instant.isReal`: the fields are in their ranges
and the day is one of its month. For these `Instant.read_text` says that the
text gives the point in time back, so a rule that is kept with the time of its
creation can be read again.

The reader goes through the text field by field, and so does the proof. A field is
a row of padded digits, which the reader takes off as a whole because it stops
either after the most digits that it takes or before a mark.
-/

namespace Rulebook

namespace Instant

/-- **Whether a clock can show a point in time.** -/
def isReal (t : Instant) : Bool :=
  t.isKept && decide (1 ≤ t.month ∧ t.month ≤ 12) &&
    decide (1 ≤ t.day ∧ t.day ≤ daysInMonth t.year t.month) && decide (t.hour < 24) &&
    decide (t.minute < 60) && decide (t.second ≤ 60) && decide (t.nano < 10 ^ (9 : Nat))

/-! ## Field by field -/

theorem toList_padded (width n : Nat) : (padded width n).toList = paddedChars width n :=
  String.toList_ofList

/-- A digit is no blank. -/
theorem isBlank_of_isDigit {c : Char} (h : c.isDigit) : isBlank c = false := by
  have hrange := toNat_of_isDigit h
  unfold isBlank
  simp only [Bool.or_eq_false_iff, Bool.and_eq_false_iff, decide_eq_false_iff_not]
  omega

/-- Before padded digits there is nothing to skip. -/
theorem dropWhile_isBlank_padded (width n : Nat) (rest : List Char) :
    (paddedChars width n ++ rest).dropWhile isBlank = paddedChars width n ++ rest := by
  obtain ⟨c, more, hrow⟩ := List.exists_cons_of_ne_nil (paddedChars_ne_nil width n)
  have hc : c ∈ paddedChars width n := hrow ▸ List.mem_cons_self
  rw [hrow]
  exact dropWhile_cons_of_eq_false (isBlank_of_isDigit (isDigit_of_mem_paddedChars hc)) _

/-- **Digits are taken off as a whole**, if there are as many as may be taken or
no more follow. -/
theorem scanNumber_append {most : Nat} {digits rest : List Char} (hne : digits ≠ [])
    (hdigits : ∀ c ∈ digits, c.isDigit) (hlength : digits.length ≤ most)
    (hstop : digits.length = most ∨ NoDigit rest) (hsize : natOfDigits digits < 2 ^ (63 : Nat)) :
    scanNumber most (digits ++ rest) = .ok (natOfDigits digits, rest) := by
  have htake : ((digits ++ rest).take most).takeWhile Char.isDigit = digits := by
    rw [List.take_append, List.take_of_length_le hlength, List.takeWhile_append_of_pos hdigits]
    obtain hfull | hrest := hstop
    · rw [hfull, Nat.sub_self, List.take_zero, List.takeWhile_nil, List.append_nil]
    · rw [hrest.takeWhile_take, List.append_nil]
  have hfull : (digits ++ rest).isEmpty = false :=
    List.isEmpty_eq_false_iff.mpr (List.append_ne_nil_of_left_ne_nil hne rest)
  unfold scanNumber
  rw [htake, hfull]
  dsimp only
  rw [List.isEmpty_eq_false_iff.mpr hne, if_neg Bool.false_ne_true, if_neg Bool.false_ne_true,
    if_neg (Nat.not_le.mpr hsize), List.drop_left]

/-- Padded digits are taken off as a whole. -/
theorem scanNumber_padded {most width n : Nat} {rest : List Char}
    (hlength : (paddedChars width n).length ≤ most)
    (hstop : (paddedChars width n).length = most ∨ NoDigit rest) (hn : n < 2 ^ (63 : Nat)) :
    scanNumber most (paddedChars width n ++ rest) = .ok (n, rest) := by
  have hscan := scanNumber_append (paddedChars_ne_nil width n)
    (fun _ => isDigit_of_mem_paddedChars) hlength hstop (by rwa [natOfDigits_paddedChars])
  rwa [natOfDigits_paddedChars] at hscan

/-- A field of two digits is read. -/
theorem scanField_padded {low high n : Nat} (hlow : low ≤ n) (hhigh : n ≤ high)
    (hn : n < 10 ^ (2 : Nat)) (rest : List Char) :
    scanField low high (paddedChars 2 n ++ rest) = .ok (n, rest) := by
  have hlength := length_paddedChars (n := n) Nat.two_pos hn
  have hscan : scanNumber 2 (paddedChars 2 n ++ rest) = .ok (n, rest) :=
    scanNumber_padded (Nat.le_of_eq hlength) (.inl hlength) (by omega)
  unfold scanField
  rw [dropWhile_isBlank_padded, hscan]
  exact if_pos ⟨hlow, hhigh⟩

/-- A mark is read. -/
theorem scanMark_cons {mark : Char} (h : isBlank mark = false) (rest : List Char) :
    scanMark mark (mark :: rest) = .ok rest := by
  unfold scanMark
  rw [dropWhile_cons_of_eq_false h]
  exact if_pos rfl

/-- The characters of a year. -/
def yearChars (year : Int) : List Char :=
  if 0 ≤ year ∧ year ≤ 9999 then paddedChars 4 year.toNat
  else (if year < 0 then '-' else '+') :: paddedChars 4 year.natAbs

theorem toList_yearText (year : Int) : (yearText year).toList = yearChars year := by
  unfold yearText yearChars
  by_cases hplain : 0 ≤ year ∧ year ≤ 9999
  · rw [if_pos hplain, if_pos hplain, toList_padded]
  · rw [if_neg hplain, if_neg hplain, String.toList_append, toList_padded]
    by_cases hsign : year < 0
    · rw [if_pos hsign, if_pos hsign]
      rfl
    · rw [if_neg hsign, if_neg hsign]
      rfl

/-- The digits of a year behind its sign are read. -/
theorem scanNumber_year {n : Nat} (hn : n < 2 ^ (31 : Nat)) {rest : List Char}
    (hrest : NoDigit rest) :
    scanNumber (paddedChars 4 n ++ rest).length (paddedChars 4 n ++ rest) = .ok (n, rest) := by
  refine scanNumber_padded ?_ (.inr hrest) (by omega)
  rw [List.length_append]
  exact Nat.le_add_right _ _

/-- What has been read is handed on. -/
theorem ok_bind {ε α β : Type} (x : α) (next : α → Except ε β) :
    (Except.ok x >>= next) = next x := rfl

theorem scanYear_minus {digits rest : List Char} {n : Nat} (hn : n < 2 ^ (31 : Nat))
    (h : scanNumber digits.length digits = .ok (n, rest)) :
    scanYear ('-' :: digits) = .ok (-(n : Int), rest) := by
  have hrange : -2 ^ (31 : Nat) ≤ -(n : Int) ∧ -(n : Int) < 2 ^ (31 : Nat) := by omega
  unfold scanYear
  rw [List.dropWhile_cons_of_neg (by decide)]
  dsimp only
  -- the steps are taken by rewriting: unfolding them would compute the bounds of the year
  split
  · rename_i heq
    cases heq
    rw [h, ok_bind, pure_bind]
    exact if_pos hrange
  · rename_i heq
    exact absurd (List.cons.inj heq).1 (by decide)
  · rename_i hminus _
    exact absurd rfl (hminus digits)

theorem scanYear_plus {digits rest : List Char} {n : Nat} (hn : n < 2 ^ (31 : Nat))
    (h : scanNumber digits.length digits = .ok (n, rest)) :
    scanYear ('+' :: digits) = .ok ((n : Int), rest) := by
  have hrange : -2 ^ (31 : Nat) ≤ (n : Int) ∧ (n : Int) < 2 ^ (31 : Nat) := by omega
  unfold scanYear
  rw [List.dropWhile_cons_of_neg (by decide)]
  dsimp only
  split
  · rename_i heq
    exact absurd (List.cons.inj heq).1 (by decide)
  · rename_i heq
    cases heq
    rw [h, ok_bind, pure_bind]
    exact if_pos hrange
  · rename_i hplus
    exact absurd rfl (hplus digits)

/-- A year without a sign has four digits at most. -/
theorem scanYear_digits {text rest : List Char} {n : Nat} (hn : n < 2 ^ (31 : Nat))
    (hblank : text.dropWhile isBlank = text) (hdigit : ∀ c ∈ text.head?, c.isDigit)
    (h : scanNumber 4 text = .ok (n, rest)) : scanYear text = .ok ((n : Int), rest) := by
  have hrange : -2 ^ (31 : Nat) ≤ (n : Int) ∧ (n : Int) < 2 ^ (31 : Nat) := by omega
  unfold scanYear
  rw [hblank]
  dsimp only
  split
  · exact absurd (hdigit '-' rfl) (by decide)
  · exact absurd (hdigit '+' rfl) (by decide)
  · rw [h, ok_bind, pure_bind]
    exact if_pos hrange

/-- **A year is read**, with a sign or without. -/
theorem scanYear_yearChars {year : Int} (hrange : -2 ^ (31 : Nat) < year ∧ year < 2 ^ (31 : Nat))
    {rest : List Char} (hrest : NoDigit rest) :
    scanYear (yearChars year ++ rest) = .ok (year, rest) := by
  unfold yearChars
  by_cases hplain : 0 ≤ year ∧ year ≤ 9999
  · have hlength : (paddedChars 4 year.toNat).length = 4 :=
      length_paddedChars (by decide) (by omega)
    have hscan : scanNumber 4 (paddedChars 4 year.toNat ++ rest) = .ok (year.toNat, rest) :=
      scanNumber_padded (Nat.le_of_eq hlength) (.inl hlength) (by omega)
    have hhead : ∀ c ∈ (paddedChars 4 year.toNat ++ rest).head?, c.isDigit := by
      intro c hc
      obtain ⟨d, more, hrow⟩ := List.exists_cons_of_ne_nil (paddedChars_ne_nil 4 year.toNat)
      rw [hrow] at hc
      have hmem : c ∈ paddedChars 4 year.toNat :=
        hrow ▸ Option.some.inj hc ▸ List.mem_cons_self
      exact isDigit_of_mem_paddedChars hmem
    rw [if_pos hplain, scanYear_digits (by omega) (dropWhile_isBlank_padded _ _ _) hhead hscan,
      show (year.toNat : Int) = year from by omega]
  · rw [if_neg hplain, List.cons_append]
    have hscan := scanNumber_year (n := year.natAbs) (by omega) hrest
    by_cases hnegative : year < 0
    · rw [if_pos hnegative, scanYear_minus (by omega) hscan,
        show -(year.natAbs : Int) = year from by omega]
    · rw [if_neg hnegative, scanYear_plus (by omega) hscan,
        show (year.natAbs : Int) = year from by omega]

/-- The characters of a fraction of a second. -/
def fractionChars (nano : Nat) : List Char :=
  if nano = 0 then []
  else if nano % 1000000 = 0 then '.' :: paddedChars 3 (nano / 1000000)
  else if nano % 1000 = 0 then '.' :: paddedChars 6 (nano / 1000)
  else '.' :: paddedChars 9 nano

theorem toList_fractionText (nano : Nat) : (fractionText nano).toList = fractionChars nano := by
  have hpoint (width n : Nat) : ("." ++ padded width n).toList = '.' :: paddedChars width n := by
    rw [String.toList_append, toList_padded]
    rfl
  unfold fractionText fractionChars
  split
  · rfl
  · split
    · exact hpoint 3 _
    · split
      · exact hpoint 6 _
      · exact hpoint 9 _

/-- The digits behind the point are read as billionths. -/
theorem scanFraction_padded {width n : Nat} (hwidth : 0 < width) (hle : width ≤ 9)
    (hn : n < 10 ^ width) {rest : List Char} (hrest : NoDigit rest) :
    scanFraction ('.' :: (paddedChars width n ++ rest)) = .ok (n * 10 ^ (9 - width), rest) := by
  have hlength := length_paddedChars hwidth hn
  have hsize : 10 ^ width ≤ 10 ^ (9 : Nat) := Nat.pow_le_pow_right (by decide) hle
  have hscan : scanNumber 9 (paddedChars width n ++ rest) = .ok (n, rest) :=
    scanNumber_padded (Nat.le_trans (Nat.le_of_eq hlength) hle) (.inr hrest) (by omega)
  show (scanNumber 9 (paddedChars width n ++ rest) >>= _) = _
  rw [hscan]
  show Except.ok (n * 10 ^ (9 - ((paddedChars width n ++ rest).length - rest.length)),
    rest.dropWhile Char.isDigit) = _
  rw [hrest.dropWhile_eq, List.length_append, Nat.add_sub_cancel, hlength]

/-- **A fraction of a second is read**, in whatever number of digits it is
written. -/
theorem scanFraction_fractionChars {nano : Nat} (hnano : nano < 10 ^ (9 : Nat)) {rest : List Char}
    (hrest : NoDigit rest) (hpoint : rest.head? ≠ some '.') :
    scanFraction (fractionChars nano ++ rest) = .ok (nano, rest) := by
  unfold fractionChars
  by_cases hzero : nano = 0
  · rw [if_pos hzero, hzero, List.nil_append]
    unfold scanFraction
    split
    · exact absurd rfl hpoint
    · rfl
  · rw [if_neg hzero]
    by_cases hmilli : nano % 1000000 = 0
    · rw [if_pos hmilli, List.cons_append,
        scanFraction_padded (by decide) (by decide) (by omega) hrest,
        show nano / 1000000 * 10 ^ (9 - 3) = nano from by omega]
    · rw [if_neg hmilli]
      by_cases hmicro : nano % 1000 = 0
      · rw [if_pos hmicro, List.cons_append,
          scanFraction_padded (by decide) (by decide) (by omega) hrest,
          show nano / 1000 * 10 ^ (9 - 6) = nano from by omega]
      · rw [if_neg hmicro, List.cons_append,
          scanFraction_padded (by decide) (by decide) hnano hrest, Nat.sub_self, Nat.pow_zero,
          Nat.mul_one]

/-! ## The whole text -/

/-- The characters of a point in time, behind the year. -/
def restChars (t : Instant) : List Char :=
  '-' :: (paddedChars 2 t.month ++ '-' :: (paddedChars 2 t.day ++ 'T' :: (paddedChars 2 t.hour
    ++ ':' :: (paddedChars 2 t.minute ++ ':' :: (paddedChars 2 t.second
      ++ (fractionChars t.nano ++ ['Z']))))))

theorem toList_text (t : Instant) : t.text.toList = yearChars t.year ++ t.restChars := by
  unfold text restChars
  simp only [String.toList_append, toList_yearText, toList_padded, toList_fractionText,
    List.append_assoc]
  rfl

/-- Where the clock is not ahead, universal time is what it shows. -/
theorem atOffset_zero {t : Instant} (hhour : t.hour < 24) (hminute : t.minute < 60) :
    t.atOffset 0 = t := by
  have hlow : ¬ (60 * (t.hour : Int) + t.minute - 0 < 0) := by omega
  have hhigh : ¬ (1440 ≤ 60 * (t.hour : Int) + t.minute - 0) := by omega
  have hday : ((60 * (t.hour : Int) + t.minute - 0) % 1440).toNat = 60 * t.hour + t.minute := by
    omega
  unfold atOffset
  dsimp only
  rw [if_neg hlow, if_neg hhigh, hday, show (60 * t.hour + t.minute) / 60 = t.hour from by omega,
    show (60 * t.hour + t.minute) % 60 = t.minute from by omega]

/-- **The text of a point in time gives it back**, if a clock can show it. -/
theorem read_text {t : Instant} (h : t.isReal) : Instant.read t.text = .ok t := by
  simp only [isReal, Bool.and_eq_true, decide_eq_true_eq] at h
  obtain ⟨⟨⟨⟨⟨⟨hkept, hmonth⟩, hday⟩, hhour⟩, hminute⟩, hsecond⟩, hnano⟩ := h
  have hyear : -2 ^ (31 : Nat) < t.year ∧ t.year < 2 ^ (31 : Nat) := by
    obtain ⟨hfirst, hlast⟩ := (Bool.and_eq_true _ _).mp hkept
    have hfirst : -262143 ≤ t.year := of_decide_eq_true hfirst
    have hlast : t.year ≤ 262142 := of_decide_eq_true hlast
    omega
  have hmost : daysInMonth t.year t.month ≤ 31 := by
    unfold daysInMonth
    repeat' split
    all_goals omega
  have hdash : NoDigit t.restChars := noDigit_cons (by decide) _
  have hzone : NoDigit ['Z'] := noDigit_cons (by decide) []
  have hvalid : (!t.isKept || decide (daysInMonth t.year t.month < t.day)
      || decide (1440 ≤ (0 : Int).natAbs)) = false := by
    rw [hkept, decide_eq_false (Nat.not_lt.mpr hday.2)]
    rfl
  -- one field after the other: the lemma of a field takes it off and leaves the rest
  unfold read
  rw [toList_text, scanYear_yearChars hyear hdash, ok_bind]
  unfold restChars
  dsimp only
  rw [scanMark_cons (by decide), ok_bind, scanField_padded hmonth.1 hmonth.2 (by omega), ok_bind]
  dsimp only
  rw [scanMark_cons (by decide), ok_bind, scanField_padded hday.1 (by omega) (by omega), ok_bind]
  dsimp only
  rw [show ∀ rest, scanSeparator ('T' :: rest) = .ok rest from fun _ => rfl, ok_bind,
    scanField_padded (Nat.zero_le _) (by omega) (by omega), ok_bind]
  dsimp only
  rw [scanMark_cons (by decide), ok_bind,
    scanField_padded (Nat.zero_le _) (by omega) (by omega), ok_bind]
  dsimp only
  rw [scanMark_cons (by decide), ok_bind,
    scanField_padded (Nat.zero_le _) (by omega) (by omega), ok_bind]
  dsimp only
  rw [scanFraction_fractionChars hnano hzone (by decide), ok_bind]
  dsimp only
  rw [show ['Z'].dropWhile isBlank = ['Z'] from rfl, if_neg (by decide),
    show scanZone ['Z'] = .ok (0, []) from rfl, ok_bind]
  dsimp only
  rw [if_neg (by decide), hvalid, if_neg Bool.false_ne_true, atOffset_zero hhour hminute, hkept]
  rfl

end Instant

end Rulebook
