import Rulebook.Json.Reader
import Rulebook.Json.Printer
import Rulebook.Proofs.Number.Digits
import Rulebook.Proofs.Number.Shortest

/-!
# Numbers in a text

A number in a document is spelled by up to four parts: a minus sign, the digits
before the point, those behind it, and an exponent. A `Spelling` is such a row
of parts, and `readNumber_chars` says that a reader who finds one takes off
exactly its characters, whatever stands behind them, as long as that does not go
on with the number.

Everything that is written is a spelling. An integer is spelled by its digits,
and a number that is none by its shortest digits, in one of the three forms that
`Layout.json` has for them. In each of these the digits mean what they meant
before the point was put in, so a number that is written and read again is the
same number (`readNumber_numberChars`).
-/

namespace Rulebook

/-- **Whether a number can be written**: an integer has to fit 64 bits, with a
sign or without, and any other number has to be finite. -/
def JsonNumber.isWritable : JsonNumber → Bool
  | .integer n => decide (-2 ^ (63 : Nat) ≤ n ∧ n < 2 ^ (64 : Nat))
  | .real x => x.isFinite

namespace Json

/-- **A row of digits** that is not empty. -/
structure DigitRow where
  /-- The digits. -/
  chars : List Char
  nonempty : chars ≠ []
  isDigit : ∀ c ∈ chars, c.isDigit

/-- The digits of a natural number. -/
def DigitRow.ofNat (n : Nat) : DigitRow :=
  ⟨Nat.toDigits 10 n, Nat.toDigits_ne_nil, fun _ => isDigit_of_mem_toDigits⟩

/-- The digits of a number begin with a zero only if it is zero. -/
theorem DigitRow.zero_alone_ofNat (n : Nat) :
    ∀ more, (ofNat n).chars = '0' :: more → more = [] := by
  intro more h
  by_cases hn : n = 0
  · subst hn
    cases h
    rfl
  · obtain ⟨d, digits, hdigits, hd⟩ := toDigits_head_ne_zero hn
    have hhead : d :: digits = '0' :: more := hdigits.symm.trans h
    cases hhead
    exact absurd rfl hd

/-- **The parts of a number** as they stand in a document. -/
structure Spelling where
  /-- Whether there is a minus sign. -/
  negative : Bool
  /-- The digits before the point. -/
  whole : DigitRow
  /-- The digits behind the point, if there is one. -/
  fraction : Option DigitRow
  /-- The exponent, if there is one. -/
  exponent : Option Int
  /-- A zero before the point stands alone. -/
  zero_alone : ∀ more, whole.chars = '0' :: more → more = []

namespace Spelling

/-- The characters of an exponent; it always has a sign. -/
def exponentChars : Option Int → List Char
  | none => []
  | some e => 'e' :: (if e < 0 then '-' else '+') :: Nat.toDigits 10 e.natAbs

/-- The characters of the digits behind the point, with the point. -/
def fractionChars : Option DigitRow → List Char
  | none => []
  | some places => '.' :: places.chars

/-- The characters without the sign. -/
def unsignedChars (s : Spelling) : List Char :=
  s.whole.chars ++ (fractionChars s.fraction ++ exponentChars s.exponent)

/-- **The characters of a spelling.** -/
def chars (s : Spelling) : List Char :=
  if s.negative then '-' :: s.unsignedChars else s.unsignedChars

/-- The digits behind the point. -/
def places (s : Spelling) : List Char := s.fraction.elim [] DigitRow.chars

/-- The number that is spelled. -/
def number (s : Spelling) : JsonNumber :=
  match s.fraction, s.exponent with
  | none, none => wholeNumber s.negative (natOfDigits s.whole.chars)
  | _, exponent =>
    .real (Decimal.toBinary64 ⟨s.negative, natOfDigits (s.whole.chars ++ s.places),
      exponent.getD 0 - s.places.length⟩)

theorem number_of_exponent {s : Spelling} {e : Int} (h : s.exponent = some e) :
    s.number = .real (Decimal.toBinary64 ⟨s.negative, natOfDigits (s.whole.chars ++ s.places),
      e - s.places.length⟩) := by
  unfold number
  rw [h]
  cases s.fraction <;> rfl

end Spelling

/-- That a text does not go on with a number. -/
def NumberEnd (text : List Char) : Prop :=
  ∀ c ∈ text.head?, c.isDigit = false ∧ c ≠ '.' ∧ c ≠ 'e' ∧ c ≠ 'E'

theorem NumberEnd.noDigit {text : List Char} (h : NumberEnd text) : NoDigit text :=
  fun c hc => (h c hc).1

/-! ## The parts one after the other -/

theorem expectDigits_append (row : DigitRow) {rest : List Char} (hrest : NoDigit rest) :
    expectDigits (row.chars ++ rest) = .ok (row.chars, rest) := by
  have hfull : row.chars.isEmpty = false := by
    rw [List.isEmpty_eq_false_iff]
    exact row.nonempty
  unfold expectDigits
  rw [takeDigits_append row.isDigit hrest]
  dsimp only
  rw [hfull]
  rfl

theorem wholePart_append {row : DigitRow} (hzero : ∀ more, row.chars = '0' :: more → more = [])
    {rest : List Char} (hrest : NoDigit rest) :
    wholePart (row.chars ++ rest) = .ok (row.chars, rest) := by
  rw [wholePart, expectDigits_append row hrest]
  simp only [bind, Except.bind]
  split
  · rename_i second more h
    cases hzero _ h
  · rfl

theorem noDigit_exponentChars (exponent : Option Int) {rest : List Char} (hrest : NoDigit rest) :
    NoDigit (Spelling.exponentChars exponent ++ rest) := by
  cases exponent with
  | none => exact hrest
  | some e => exact noDigit_cons (by decide) _

theorem noDigit_fractionChars (fraction : Option DigitRow) {rest : List Char}
    (hrest : NoDigit rest) : NoDigit (Spelling.fractionChars fraction ++ rest) := by
  cases fraction with
  | none => exact hrest
  | some places => exact noDigit_cons (by decide) _

theorem fractionPart_append (fraction : Option DigitRow) {rest : List Char}
    (hrest : NoDigit rest) (hpoint : rest.head? ≠ some '.') :
    fractionPart (Spelling.fractionChars fraction ++ rest)
      = .ok (fraction.map DigitRow.chars, rest) := by
  cases fraction with
  | none =>
    show fractionPart rest = .ok (none, rest)
    unfold fractionPart
    split
    · exact absurd rfl hpoint
    · rfl
  | some places =>
    show (expectDigits (places.chars ++ rest) >>= fun read => .ok (some read.1, read.2)) = _
    rw [expectDigits_append places hrest]
    rfl

theorem exponentPart_append (exponent : Option Int) {rest : List Char} (hrest : NumberEnd rest) :
    exponentPart (Spelling.exponentChars exponent ++ rest) = .ok (exponent, rest) := by
  cases exponent with
  | none =>
    show exponentPart rest = .ok (none, rest)
    cases rest with
    | nil => rfl
    | cons c more =>
      obtain ⟨-, -, he, hE⟩ := hrest c rfl
      exact if_neg (not_or.mpr ⟨he, hE⟩)
  | some e =>
    have hread := expectDigits_append (.ofNat e.natAbs) hrest.noDigit
    by_cases hsign : e < 0
    · unfold Spelling.exponentChars
      dsimp only
      rw [if_pos hsign]
      show (expectDigits ((DigitRow.ofNat e.natAbs).chars ++ rest) >>= fun read =>
        .ok (some (-(natOfDigits read.1 : Int)), read.2)) = _
      rw [hread]
      show Except.ok (some (-(natOfDigits (Nat.toDigits 10 e.natAbs) : Int)), rest) = _
      rw [natOfDigits_toDigits, show -(e.natAbs : Int) = e from by omega]
    · unfold Spelling.exponentChars
      dsimp only
      rw [if_neg hsign]
      show (expectDigits ((DigitRow.ofNat e.natAbs).chars ++ rest) >>= fun read =>
        .ok (some (natOfDigits read.1 : Int), read.2)) = _
      rw [hread]
      show Except.ok (some (natOfDigits (Nat.toDigits 10 e.natAbs) : Int), rest) = _
      rw [natOfDigits_toDigits, show (e.natAbs : Int) = e from by omega]

/-- What follows the digits before the point does not go on with them. -/
theorem noDigit_tail (s : Spelling) {rest : List Char} (hrest : NumberEnd rest) :
    NoDigit (Spelling.fractionChars s.fraction
      ++ (Spelling.exponentChars s.exponent ++ rest)) :=
  noDigit_fractionChars _ (noDigit_exponentChars _ hrest.noDigit)

/-- An exponent does not begin with a point, nor does what ends a number. -/
theorem head?_exponentChars_ne (exponent : Option Int) {rest : List Char}
    (hrest : NumberEnd rest) :
    (Spelling.exponentChars exponent ++ rest).head? ≠ some '.' := by
  cases exponent with
  | none => exact fun h => (hrest '.' h).2.1 rfl
  | some e =>
    show some 'e' ≠ some '.'
    decide

/-- The number that three parts and a sign mean. -/
def numberOfParts (negative : Bool) (whole : List Char) (fraction : Option (List Char))
    (exponent : Option Int) : JsonNumber :=
  match fraction, exponent with
  | none, none => wholeNumber negative (natOfDigits whole)
  | fraction, exponent =>
    let places := fraction.getD []
    .real (Decimal.toBinary64
      ⟨negative, natOfDigits (whole ++ places), exponent.getD 0 - places.length⟩)

/-- A number behind its sign. -/
def readUnsigned (strict negative : Bool) (text : List Char) :
    Except ReadFault (JsonNumber × List Char) := do
  let (whole, text) ← wholePart text
  let (fraction, text) ← fractionPart text
  let (exponent, text) ← exponentPart text
  let number := numberOfParts negative whole fraction exponent
  if strict && !number.toBinary64.isFinite then .error .malformed
  else return (number, text)

theorem readNumber_minus (strict : Bool) (text : List Char) :
    readNumber strict ('-' :: text) = readUnsigned strict true text := rfl

theorem readNumber_unsigned (strict : Bool) {text : List Char} (h : text.head? ≠ some '-') :
    readNumber strict text = readUnsigned strict false text := by
  unfold readNumber
  split
  rename_i negative rest heq
  split at heq
  · exact absurd rfl h
  · cases heq
    rfl

theorem readUnsigned_unsignedChars {s : Spelling} (hfinite : s.number.toBinary64.isFinite)
    (strict : Bool) {rest : List Char} (hrest : NumberEnd rest) :
    readUnsigned strict s.negative (s.unsignedChars ++ rest) = .ok (s.number, rest) := by
  have hnumber : numberOfParts s.negative s.whole.chars (s.fraction.map DigitRow.chars) s.exponent
      = s.number := by
    unfold Spelling.number Spelling.places
    cases s.fraction <;> cases s.exponent <;> rfl
  unfold readUnsigned Spelling.unsignedChars
  rw [List.append_assoc, List.append_assoc, wholePart_append s.zero_alone (noDigit_tail s hrest)]
  show (fractionPart _ >>= _) = _
  rw [fractionPart_append _ (noDigit_exponentChars _ hrest.noDigit)
    (head?_exponentChars_ne _ hrest)]
  show (exponentPart _ >>= _) = _
  rw [exponentPart_append _ hrest]
  show (if strict && !(numberOfParts _ _ _ _).toBinary64.isFinite then _ else _) = _
  rw [hnumber, hfinite, Bool.not_true, Bool.and_false, if_neg Bool.false_ne_true]
  rfl

/-- The digits of a number do not begin with a minus sign. -/
theorem head?_unsignedChars_ne (s : Spelling) (rest : List Char) :
    (s.unsignedChars ++ rest).head? ≠ some '-' := by
  intro h
  obtain ⟨c, digits, hrow⟩ := List.exists_cons_of_ne_nil s.whole.nonempty
  have hc := s.whole.isDigit c (hrow ▸ List.mem_cons_self)
  rw [Spelling.unsignedChars, hrow] at h
  cases h
  exact absurd hc (by decide)

/-- **A spelling is taken off a text as a whole**, if its number is finite. -/
theorem readNumber_chars {s : Spelling} (hfinite : s.number.toBinary64.isFinite) (strict : Bool)
    {rest : List Char} (hrest : NumberEnd rest) :
    readNumber strict (s.chars ++ rest) = .ok (s.number, rest) := by
  have hunsigned := readUnsigned_unsignedChars hfinite strict hrest
  unfold Spelling.chars
  cases hnegative : s.negative with
  | true =>
    rw [hnegative] at hunsigned
    rw [if_pos rfl, List.cons_append, readNumber_minus]
    exact hunsigned
  | false =>
    rw [hnegative] at hunsigned
    rw [if_neg Bool.false_ne_true, readNumber_unsigned strict (head?_unsignedChars_ne s rest)]
    exact hunsigned

/-! ## What is written is a spelling -/

/-- The spelling of an integer. -/
def Spelling.ofInt (n : Int) : Spelling where
  negative := n < 0
  whole := .ofNat n.natAbs
  fraction := none
  exponent := none
  zero_alone := DigitRow.zero_alone_ofNat _

theorem chars_ofInt (n : Int) : (Spelling.ofInt n).chars = numberChars (.integer n) := by
  show (if decide (n < 0) = true then '-' :: (Nat.toDigits 10 n.natAbs ++ ([] ++ []))
    else Nat.toDigits 10 n.natAbs ++ ([] ++ [])) = (toString n).toList
  rw [List.append_nil, List.append_nil, Int.toString_eq_repr, Int.repr_eq_if]
  by_cases hn : n < 0
  · rw [if_pos (decide_eq_true hn), if_neg (by omega), String.toList_append, Nat.toList_repr,
      show (-n).toNat = n.natAbs from by omega]
    rfl
  · rw [if_neg (by simpa using hn), if_pos (by omega), Nat.toList_repr,
      show n.toNat = n.natAbs from by omega]

/-- An integer that fits 64 bits is the number of its spelling. -/
theorem number_ofInt {n : Int} (h : (JsonNumber.integer n).isWritable) :
    (Spelling.ofInt n).number = .integer n := by
  have hrange : -2 ^ (63 : Nat) ≤ n ∧ n < 2 ^ (64 : Nat) := of_decide_eq_true h
  show wholeNumber (decide (n < 0)) (natOfDigits (Nat.toDigits 10 n.natAbs)) = _
  rw [natOfDigits_toDigits]
  unfold wholeNumber
  by_cases hn : n < 0
  · rw [decide_eq_true hn]
    refine (if_pos ?_).trans (congrArg JsonNumber.integer ?_)
    · rw [if_pos rfl]
      omega
    · rw [if_pos rfl]
      omega
  · rw [decide_eq_false hn]
    refine (if_pos ?_).trans (congrArg JsonNumber.integer ?_)
    · rw [if_neg Bool.false_ne_true]
      omega
    · rw [if_neg Bool.false_ne_true]
      omega

/-- The spelling of digits in place without an exponent, when the last digit
stands before the point. -/
def Spelling.pointedWhole (negative : Bool) (digits : Nat) (hdigits : digits ≠ 0) (e : Nat) :
    Spelling where
  negative := negative
  whole := {
    chars := Nat.toDigits 10 digits ++ List.replicate e '0'
    nonempty := List.append_ne_nil_of_left_ne_nil Nat.toDigits_ne_nil _
    isDigit := by
      intro c hc
      obtain hc | hc := List.mem_append.mp hc
      · exact isDigit_of_mem_toDigits hc
      · rw [List.eq_of_mem_replicate hc]
        decide }
  fraction := some (.ofNat 0)
  exponent := none
  zero_alone := by
    intro more h
    obtain ⟨d, others, hrow, hd⟩ := toDigits_head_ne_zero hdigits
    have hhead : Nat.toDigits 10 digits ++ List.replicate e '0' = '0' :: more := h
    rw [hrow] at hhead
    cases hhead
    exact absurd rfl hd

theorem number_pointedWhole (negative : Bool) {digits : Nat} (hdigits : digits ≠ 0) (e : Nat) :
    (Spelling.pointedWhole negative digits hdigits e).number
      = .real (Decimal.toBinary64 ⟨negative, digits * 10 ^ (e + 1), -1⟩) := by
  have hvalue : natOfDigits (Nat.toDigits 10 digits ++ List.replicate e '0' ++ ['0'])
      = digits * 10 ^ (e + 1) := by
    rw [natOfDigits_append, natOfDigits_append, natOfDigits_replicate, natOfDigits_toDigits,
      List.length_replicate, Nat.add_zero, Nat.pow_succ, Nat.mul_assoc]
    rfl
  show JsonNumber.real (Decimal.toBinary64
    ⟨negative, natOfDigits (Nat.toDigits 10 digits ++ List.replicate e '0' ++ ['0']),
      0 - ((['0'] : List Char).length : Int)⟩) = _
  rw [hvalue]
  rfl

/-- The spelling of digits in place without an exponent, when there are some
behind the point. -/
def Spelling.pointedFraction (negative : Bool) (digits : Nat) (hdigits : digits ≠ 0)
    (places : Nat) (hplaces : places ≠ 0) : Spelling where
  negative := negative
  whole := {
    chars := (paddedChars (places + 1) digits).take
      ((paddedChars (places + 1) digits).length - places)
    nonempty := by
      have hlength := le_length_paddedChars (places + 1) digits
      rw [← List.length_pos_iff, List.length_take]
      omega
    isDigit := fun c hc => isDigit_of_mem_paddedChars (List.mem_of_mem_take hc) }
  fraction := some {
    chars := (paddedChars (places + 1) digits).drop
      ((paddedChars (places + 1) digits).length - places)
    nonempty := by
      have hlength := le_length_paddedChars (places + 1) digits
      rw [← List.length_pos_iff, List.length_drop]
      omega
    isDigit := fun c hc => isDigit_of_mem_paddedChars (List.mem_of_mem_drop hc) }
  exponent := none
  zero_alone := by
    intro more h
    have hlength := le_length_paddedChars (places + 1) digits
    have htake : (paddedChars (places + 1) digits).take
        ((paddedChars (places + 1) digits).length - places) = '0' :: more := h
    have hhead := congrArg List.head? htake
    rw [List.head?_take, if_neg (by omega)] at hhead
    -- a zero in front was put there to have one digit before the point, and only one
    have hone := length_paddedChars_of_head hdigits hhead
    rw [hone, Nat.add_sub_cancel_left] at htake
    have hmore := congrArg List.length htake
    rw [List.length_take, List.length_cons] at hmore
    exact List.eq_nil_of_length_eq_zero (by omega)

theorem number_pointedFraction (negative : Bool) {digits : Nat} (hdigits : digits ≠ 0) {e : Nat} :
    (Spelling.pointedFraction negative digits hdigits (e + 1) e.succ_ne_zero).number
      = .real (Decimal.toBinary64 ⟨negative, digits, .negSucc e⟩) := by
  have hlength := le_length_paddedChars (e + 1 + 1) digits
  show JsonNumber.real (Decimal.toBinary64 ⟨negative, natOfDigits
    ((paddedChars (e + 1 + 1) digits).take _ ++ (paddedChars (e + 1 + 1) digits).drop _),
    0 - ((paddedChars (e + 1 + 1) digits).drop _).length⟩) = _
  rw [List.take_append_drop, natOfDigits_paddedChars, List.length_drop,
    show (0 : Int) - ((paddedChars (e + 1 + 1) digits).length
      - ((paddedChars (e + 1 + 1) digits).length - (e + 1)) : Nat) = .negSucc e from by omega]

/-- The spelling of digits in place with an exponent: one digit stands before the
point. -/
def Spelling.scientific (negative : Bool) (first : Char) (more : List Char) (lead : Int)
    (hdigits : ∀ c ∈ first :: more, c.isDigit) : Spelling where
  negative := negative
  whole := {
    chars := [first]
    nonempty := List.cons_ne_nil _ _
    isDigit := fun c hc => hdigits c (List.mem_cons.mpr (.inl (List.mem_singleton.mp hc))) }
  fraction :=
    if hmore : more = [] then none
    else some {
      chars := more
      nonempty := hmore
      isDigit := fun c hc => hdigits c (List.mem_cons_of_mem _ hc) }
  exponent := some lead
  zero_alone := by
    intro others h
    cases h
    rfl

theorem number_scientific (negative : Bool) (first : Char) (more : List Char) (lead : Int)
    (hdigits : ∀ c ∈ first :: more, c.isDigit) :
    (Spelling.scientific negative first more lead hdigits).number
      = .real (Decimal.toBinary64 ⟨negative, natOfDigits (first :: more), lead - more.length⟩) := by
  have hplaces : (Spelling.scientific negative first more lead hdigits).places = more := by
    unfold Spelling.places Spelling.scientific
    by_cases hmore : more = []
    · rw [dif_pos hmore]
      exact hmore.symm
    · rw [dif_neg hmore]
      rfl
  rw [Spelling.number_of_exponent rfl, hplaces]
  rfl

/-- The characters of a sign. -/
def signChars (negative : Bool) : List Char := if negative then ['-'] else []

theorem chars_eq_sign_append (s : Spelling) :
    s.chars = signChars s.negative ++ s.unsignedChars := by
  unfold Spelling.chars signChars
  cases s.negative <;> rfl

/-- **The text of digits in place is a spelling**, without an exponent or with one, of
the number that the digits read as. -/
theorem exists_spelling_positional (negative : Bool) {p : PlacedDigits} (hdigits : p.digits ≠ 0) :
    ∃ s : Spelling, s.negative = negative ∧
      s.unsignedChars = (Layout.positionalText true p).toList ∧
      ∃ q : PlacedDigits, q.readSteps = p.readSteps ∧
        s.number = .real (Decimal.toBinary64 ⟨negative, q.digits, q.exponent⟩) := by
  obtain ⟨digits, exponent⟩ := p
  cases exponent with
  | ofNat e =>
    refine ⟨.pointedWhole negative digits hdigits e, rfl, ?_, ⟨digits * 10 ^ (e + 1), -1⟩, ?_,
      number_pointedWhole negative hdigits e⟩
    · show _ = (String.ofList _ ++ ".0").toList
      rw [String.toList_append, String.toList_ofList]
      rfl
    · show PlacedDigits.readSteps _ = PlacedDigits.readSteps ⟨digits, e⟩
      rw [PlacedDigits.readSteps_mul_pow, show (-1 : Int) + (e + 1 : Nat) = e from by omega]
  | negSucc e =>
    refine ⟨.pointedFraction negative digits hdigits (e + 1) e.succ_ne_zero, rfl, ?_,
      ⟨digits, .negSucc e⟩, rfl, number_pointedFraction negative hdigits⟩
    show _ ++ ('.' :: _ ++ []) = (String.ofList _).toList
    rw [List.append_nil, String.toList_ofList]
    rfl

/-- The exponent that is written is the exponent of a spelling. -/
theorem exponentChars_eq (lead : Int) :
    Spelling.exponentChars (some lead)
      = (if lead < 0 then "e-" else "e+").toList ++ (toString lead.natAbs).toList := by
  unfold Spelling.exponentChars
  dsimp only
  rw [Nat.toString_eq_repr, Nat.toList_repr]
  by_cases h : lead < 0
  · rw [if_pos h, if_pos h]
    rfl
  · rw [if_neg h, if_neg h]
    rfl

theorem exists_spelling_scientific (negative : Bool) (p : PlacedDigits) :
    ∃ s : Spelling, s.negative = negative ∧
      s.unsignedChars = (Layout.scientificText
        (p.exponent + (Nat.toDigits 10 p.digits).length - 1) p).toList ∧
      s.number = .real (Decimal.toBinary64 ⟨negative, p.digits, p.exponent⟩) := by
  obtain ⟨first, more, hrow⟩ :=
    List.exists_cons_of_ne_nil (Nat.toDigits_ne_nil (b := 10) (n := p.digits))
  have hlead : p.exponent + (Nat.toDigits 10 p.digits).length - 1 = p.exponent + more.length := by
    rw [hrow, List.length_cons]
    omega
  have hdigits : ∀ c ∈ first :: more, c.isDigit := fun c hc =>
    isDigit_of_mem_toDigits (n := p.digits) (hrow ▸ hc)
  refine ⟨.scientific negative first more (p.exponent + more.length) hdigits, rfl, ?_, ?_⟩
  · rw [hlead]
    unfold Layout.scientificText
    rw [hrow, String.toList_append, String.toList_append, String.toList_ofList, List.append_assoc,
      ← exponentChars_eq]
    cases more <;> rfl
  · rw [number_scientific, ← hrow, natOfDigits_toDigits, Int.add_sub_cancel]

/-- **The text of digits that read back is a spelling of the number** they were
written for. -/
theorem exists_spelling_digits (negative : Bool) {m : Magnitude} (hm : m.steps ≠ 0)
    {p : PlacedDigits} (hread : p.readSteps = m.steps) {text : String}
    (htext : text = Layout.positionalText true p ∨ text = Layout.scientificText
      (p.exponent + (Nat.toDigits 10 p.digits).length - 1) p) :
    ∃ s : Spelling, s.chars = signChars negative ++ text.toList ∧
      s.number = .real (.finite negative m) := by
  have hdigits := PlacedDigits.digits_ne_zero (p := p) (hread ▸ hm)
  obtain rfl | rfl := htext
  · obtain ⟨s, hnegative, hchars, q, hq, hnumber⟩ := exists_spelling_positional negative hdigits
    refine ⟨s, ?_, ?_⟩
    · rw [chars_eq_sign_append, hnegative, hchars]
    · rw [hnumber, Decimal.toBinary64_of_readSteps negative (hq.trans hread) hm]
  · obtain ⟨s, hnegative, hchars, hnumber⟩ := exists_spelling_scientific negative p
    refine ⟨s, ?_, ?_⟩
    · rw [chars_eq_sign_append, hnegative, hchars]
    · rw [hnumber, Decimal.toBinary64_of_readSteps negative hread hm]

/-- A zero is spelled with one digit on either side of the point. -/
def Spelling.zero (negative : Bool) : Spelling :=
  ⟨negative, .ofNat 0, some (.ofNat 0), none, DigitRow.zero_alone_ofNat 0⟩

theorem number_zero (negative : Bool) :
    (Spelling.zero negative).number = .real (.finite negative .zero) := by
  show JsonNumber.real (Decimal.toBinary64 ⟨negative, natOfDigits ['0', '0'], _⟩) = _
  rw [show natOfDigits ['0', '0'] = 0 from rfl, Decimal.toBinary64_zero]

/-- **Every number that can be written is written as a spelling of itself.** -/
theorem exists_spelling {n : JsonNumber} (h : n.isWritable) :
    ∃ s : Spelling, s.chars = numberChars n ∧ s.number = n := by
  cases n with
  | integer n => exact ⟨.ofInt n, chars_ofInt n, number_ofInt h⟩
  | real x =>
    cases x with
    | nan => cases h
    | infinite negative => cases h
    | finite negative m =>
      have hchars (text : String) : ((if negative then "-" else "") ++ text).toList
          = signChars negative ++ text.toList := by
        rw [String.toList_append]
        cases negative <;> rfl
      show ∃ s : Spelling, s.chars = ((if negative then "-" else "")
        ++ Layout.json.magnitudeText m).toList ∧ s.number = .real (.finite negative m)
      rw [hchars]
      unfold Layout.magnitudeText
      by_cases hm : m.steps = 0
      · rw [if_pos hm, show m = .zero from Magnitude.ext_steps hm]
        refine ⟨.zero negative, ?_, number_zero negative⟩
        rw [chars_eq_sign_append]
        rfl
      · rw [if_neg hm]
        refine exists_spelling_digits negative hm (m.readSteps_shortest .even) ?_
        -- where the layout changes does not matter: both forms spell the same digits
        have either (plain : Prop) [Decidable plain] (a b : String) :
            (if plain then a else b) = a ∨ (if plain then a else b) = b := by
          by_cases hplain : plain
          · exact .inl (if_pos hplain)
          · exact .inr (if_neg hplain)
        exact either _ _ _

/-! ## Written and read again -/

/-- The integers that fit 64 bits are finite numbers. -/
theorem isFinite_toBinary64 {n : JsonNumber} (h : n.isWritable) : n.toBinary64.isFinite := by
  cases n with
  | real x => exact h
  | integer n =>
    have hrange : -2 ^ (63 : Nat) ≤ n ∧ n < 2 ^ (64 : Nat) := of_decide_eq_true h
    show Binary64.isFinite (Binary64.ofInt n) = true
    unfold Binary64.ofInt
    refine Binary64.isFinite_nearest _ ?_
    rw [Nat.div_one]
    have hsize : n.natAbs < 2 ^ (64 : Nat) := by omega
    have hsteps := Nat.mul_lt_mul_of_pos_right hsize stepsPerUnit_pos
    obtain ⟨limit, hlimit, htwice⟩ := exists_two_mul_stepsLimit_eq
    have hlarge : 2 ^ (66 : Nat) * stepsPerUnit ≤ 2 * stepsLimit := by
      rw [htwice]
      exact Nat.mul_le_mul_right _ (Nat.pow_le_pow_right (by decide) (by omega))
    -- what is left is linear in the two, and neither may be computed
    generalize stepsPerUnit = unit at hsteps hlarge ⊢
    generalize stepsLimit = limit at hlarge ⊢
    omega

/-- **A number that is written is read again**, whatever stands behind it. -/
theorem readNumber_numberChars {n : JsonNumber} (h : n.isWritable) (strict : Bool)
    {rest : List Char} (hrest : NumberEnd rest) :
    readNumber strict (numberChars n ++ rest) = .ok (n, rest) := by
  obtain ⟨s, hchars, hnumber⟩ := exists_spelling h
  have hread := readNumber_chars (s := s) (hnumber ▸ isFinite_toBinary64 h) strict hrest
  rwa [hchars, hnumber] at hread

end Json

end Rulebook
