import Rulebook.Proofs.Number.Digits

/-!
# Numerals

A text is read as a numeral by taking off a sign, digits, a point with digits behind it, and an
exponent, each of them if it is there, and by asking in the end whether enough was there and
nothing is left. The texts for which this succeeds are those of the grammar

    numeral  := sign? mantissa exponent?
    mantissa := digit⁺ | digit⁺ '.' digit* | '.' digit⁺
    exponent := ('e' | 'E') sign? digit⁺

(`Decimal.read?_ne_none_iff_spells`). No part of a numeral can be taken for another, since each
is told by its first character.
-/

namespace Rulebook

/-! ## The grammar -/

/-- **An optional sign.** -/
def OptionalSign (sign : List Char) : Prop := sign = [] ∨ sign = ['+'] ∨ sign = ['-']

/-- **The digits of a numeral**, with a point among them or at either end or without. -/
inductive SpellsMantissa : List Char → Prop where
  /-- Digits without a point. -/
  | whole {digits : List Char} (hne : digits ≠ []) (h : ∀ c ∈ digits, c.isDigit) :
    SpellsMantissa digits
  /-- Digits, a point, and maybe more digits. -/
  | pointed {whole fraction : List Char} (hne : whole ≠ []) (hwhole : ∀ c ∈ whole, c.isDigit)
      (hfraction : ∀ c ∈ fraction, c.isDigit) :
    SpellsMantissa (whole ++ '.' :: fraction)
  /-- A point and digits. -/
  | fraction {digits : List Char} (hne : digits ≠ []) (h : ∀ c ∈ digits, c.isDigit) :
    SpellsMantissa ('.' :: digits)

/-- **The exponent of a numeral**, which may be absent. -/
inductive SpellsExponent : List Char → Prop where
  /-- No exponent. -/
  | absent : SpellsExponent []
  /-- A letter, an optional sign and digits. -/
  | power {letter : Char} {sign digits : List Char} (hletter : letter = 'e' ∨ letter = 'E')
      (hsign : OptionalSign sign) (hne : digits ≠ []) (h : ∀ c ∈ digits, c.isDigit) :
    SpellsExponent (letter :: (sign ++ digits))

/-! ## Taking off the parts -/

/-- What stands behind an optional sign. -/
theorem exists_takeSign (text : List Char) :
    ∃ sign, OptionalSign sign ∧ text = sign ++ (takeSign text).2 := by
  unfold takeSign
  split
  · exact ⟨['-'], .inr (.inr rfl), rfl⟩
  · exact ⟨['+'], .inr (.inl rfl), rfl⟩
  · exact ⟨[], .inl rfl, rfl⟩

/-- That a text does not begin with a sign. -/
def NoSign (text : List Char) : Prop := ∀ c ∈ text.head?, c ≠ '+' ∧ c ≠ '-'

theorem takeSign_append {sign text : List Char} (hsign : OptionalSign sign) (h : NoSign text) :
    (takeSign (sign ++ text)).2 = text := by
  obtain rfl | rfl | rfl := hsign
  · cases text with
    | nil => rfl
    | cons c text =>
      obtain ⟨hplus, hminus⟩ := h c rfl
      rw [List.nil_append, takeSign]
      · exact fun rest heq => hminus (List.cons.inj heq).1
      · exact fun rest heq => hplus (List.cons.inj heq).1
  · rfl
  · rfl

theorem takeDigits_spec (text : List Char) :
    text = (takeDigits text).1 ++ (takeDigits text).2 ∧ ∀ c ∈ (takeDigits text).1, c.isDigit :=
  ⟨List.takeWhile_append_dropWhile.symm, List.all_eq_true.mp List.all_takeWhile⟩

theorem takeFraction_spec (text : List Char) :
    ((takeFraction text).1 = [] ∧ (takeFraction text).2 = text) ∨
      text = '.' :: ((takeFraction text).1 ++ (takeFraction text).2) ∧
        ∀ c ∈ (takeFraction text).1, c.isDigit := by
  unfold takeFraction
  split
  · rename_i text
    obtain ⟨hsplit, hdigits⟩ := takeDigits_spec text
    exact .inr ⟨congrArg _ hsplit, hdigits⟩
  · exact .inl ⟨rfl, rfl⟩

/-- **What is read of a numeral**: digits before or behind a point, and an exponent to the end. -/
theorem Decimal.read?_ne_none_iff {text whole rest fraction exponent : List Char}
    (hwhole : takeDigits (takeSign text).2 = (whole, rest))
    (hfraction : takeFraction rest = (fraction, exponent)) :
    Decimal.read? text ≠ none ↔
      (whole ≠ [] ∨ fraction ≠ []) ∧ ∃ e, takeExponent? exponent = some (e, []) := by
  unfold Decimal.read?
  dsimp only
  rw [hwhole]
  dsimp only
  rw [hfraction]
  dsimp only
  by_cases hdigits : whole ≠ [] ∨ fraction ≠ []
  · have hsome : ¬ (whole.isEmpty && fraction.isEmpty) := by
      rw [Bool.and_eq_true, List.isEmpty_iff, List.isEmpty_iff]
      exact fun hnone => hdigits.elim (· hnone.1) (· hnone.2)
    rw [if_neg hsome]
    constructor
    · intro h
      split at h
      · rename_i e he
        exact ⟨hdigits, e, he⟩
      · exact absurd rfl h
    · rintro ⟨-, e, he⟩
      rw [he]
      exact Option.some_ne_none _
  · obtain ⟨hwhole, hfraction⟩ := not_or.mp hdigits
    rw [if_pos (by rw [Classical.not_not.mp hwhole, Classical.not_not.mp hfraction]; rfl)]
    exact ⟨fun h => absurd rfl h, fun h => absurd h.1 hdigits⟩

theorem noSign_cons {c : Char} (h : c ≠ '+' ∧ c ≠ '-') (rest : List Char) : NoSign (c :: rest) := by
  intro d hd
  rw [List.head?_cons, Option.mem_some_iff] at hd
  exact hd ▸ h

theorem noSign_append {digits : List Char} (hne : digits ≠ []) (h : ∀ c ∈ digits, c.isDigit)
    (rest : List Char) : NoSign (digits ++ rest) := by
  cases digits with
  | nil => exact absurd rfl hne
  | cons c digits =>
    have hc := h c List.mem_cons_self
    refine noSign_cons ⟨?_, ?_⟩ _ <;> rintro rfl <;> cases hc

theorem takeDigits_eq_self {digits : List Char} (h : ∀ c ∈ digits, c.isDigit) :
    takeDigits digits = (digits, []) := by
  have htake := @takeDigits_append digits [] h fun c hc => by cases hc
  rwa [List.append_nil] at htake

/-- **What is read as an exponent to the end of a text.** -/
theorem takeExponent?_eq_end_iff {text : List Char} :
    (∃ e, takeExponent? text = some (e, [])) ↔ SpellsExponent text := by
  cases text with
  | nil => exact ⟨fun _ => .absent, fun _ => ⟨0, rfl⟩⟩
  | cons letter text =>
    have hread (hletter : letter = 'e' ∨ letter = 'E') : takeExponent? (letter :: text) =
        if (takeDigits (takeSign text).2).1.isEmpty then none
        else
          let size : Int := natOfDigits (takeDigits (takeSign text).2).1
          some (if (takeSign text).1 then -size else size, (takeDigits (takeSign text).2).2) := by
      rw [takeExponent?, if_pos hletter]
    constructor
    · rintro ⟨e, he⟩
      by_cases hletter : letter = 'e' ∨ letter = 'E'
      · rw [hread hletter] at he
        split at he
        · cases he
        · rename_i hne
          obtain ⟨sign, hsign, htext⟩ := exists_takeSign text
          obtain ⟨hsplit, hdigits⟩ := takeDigits_spec (takeSign text).2
          have hrest : (takeDigits (takeSign text).2).2 = [] :=
            congrArg Prod.snd (Option.some.inj he)
          rw [hrest, List.append_nil] at hsplit
          rw [htext, hsplit]
          exact .power hletter hsign (fun hnil => hne (List.isEmpty_iff.mpr hnil)) hdigits
      · rw [takeExponent?, if_neg hletter] at he
        cases he
    · intro h
      cases h with
      | power hletter hsign hne h =>
        have hsigned := takeSign_append hsign (List.append_nil _ ▸ noSign_append hne h [])
        rw [hread hletter, hsigned, takeDigits_eq_self h,
          if_neg (fun hnil => hne (List.isEmpty_iff.mp hnil))]
        exact ⟨_, rfl⟩

/-- A mantissa has no sign. -/
theorem SpellsMantissa.noSign {mantissa : List Char} (h : SpellsMantissa mantissa)
    (rest : List Char) : NoSign (mantissa ++ rest) := by
  cases h with
  | whole hne h => exact noSign_append hne h rest
  | pointed hne hwhole hfraction =>
    rw [List.append_assoc]
    exact noSign_append hne hwhole _
  | fraction hne h => exact noSign_cons (by decide) _

/-- An exponent begins with neither a digit nor a point. -/
theorem SpellsExponent.noDigit_and_takeFraction {exponent : List Char}
    (h : SpellsExponent exponent) :
    NoDigit exponent ∧ takeFraction exponent = ([], exponent) := by
  cases h with
  | absent => exact ⟨fun c hc => (by cases hc), rfl⟩
  | power hletter hsign hne h => obtain rfl | rfl := hletter <;> exact ⟨noDigit_cons rfl _, rfl⟩

/-- **A text is read as a numeral if it is spelled as one.** -/
theorem Decimal.read?_ne_none_iff_spells {text : List Char} :
    Decimal.read? text ≠ none ↔ ∃ sign mantissa exponent, OptionalSign sign ∧
      SpellsMantissa mantissa ∧ SpellsExponent exponent ∧
        text = sign ++ (mantissa ++ exponent) := by
  constructor
  · intro h
    obtain ⟨sign, hsign, htext⟩ := exists_takeSign text
    obtain ⟨hsplit, hwhole⟩ := takeDigits_spec (takeSign text).2
    cases hw : takeDigits (takeSign text).2 with | mk whole rest => ?_
    cases hf : takeFraction rest with | mk fraction exponent => ?_
    obtain ⟨hdigits, hend⟩ := (read?_ne_none_iff hw hf).mp h
    have hexponent := takeExponent?_eq_end_iff.mp hend
    have hpoint := takeFraction_spec rest
    rw [hw] at hsplit hwhole
    rw [hf] at hpoint
    dsimp only at hsplit hwhole hpoint
    rw [htext, hsplit]
    obtain ⟨rfl, rfl⟩ | ⟨rfl, hfraction⟩ := hpoint
    · have hne : whole ≠ [] := hdigits.elim id (absurd rfl)
      exact ⟨sign, whole, exponent, hsign, .whole hne hwhole, hexponent, rfl⟩
    · by_cases hne : whole = []
      · subst hne
        have hne : fraction ≠ [] := hdigits.elim (absurd rfl) id
        exact ⟨sign, '.' :: fraction, exponent, hsign, .fraction hne hfraction, hexponent, rfl⟩
      · refine ⟨sign, whole ++ '.' :: fraction, exponent, hsign, .pointed hne hwhole hfraction,
          hexponent, ?_⟩
        rw [List.append_assoc whole, List.cons_append]
  · rintro ⟨sign, mantissa, exponent, hsign, hmantissa, hexponent, rfl⟩
    have hsigned := takeSign_append hsign (hmantissa.noSign exponent)
    have hend := takeExponent?_eq_end_iff.mpr hexponent
    obtain ⟨hdigit, hpoint⟩ := hexponent.noDigit_and_takeFraction
    cases hmantissa with
    | whole hne h =>
      have hw := takeDigits_append h hdigit
      exact (read?_ne_none_iff (by rw [hsigned, hw]) hpoint).mpr ⟨.inl hne, hend⟩
    | @pointed whole fraction hne hwhole hfraction =>
      have hw := takeDigits_append hwhole (noDigit_cons (c := '.') rfl (fraction ++ exponent))
      have hf : takeFraction ('.' :: (fraction ++ exponent)) = (fraction, exponent) :=
        takeDigits_append hfraction hdigit
      exact (read?_ne_none_iff (by rw [hsigned, List.append_assoc]; exact hw) hf).mpr
        ⟨.inl hne, hend⟩
    | @fraction digits hne h =>
      have hw : takeDigits ('.' :: digits ++ exponent) = ([], '.' :: digits ++ exponent) := rfl
      have hf : takeFraction ('.' :: digits ++ exponent) = (digits, exponent) :=
        takeDigits_append h hdigit
      exact (read?_ne_none_iff (by rw [hsigned, hw]) hf).mpr ⟨.inr hne, hend⟩

end Rulebook
