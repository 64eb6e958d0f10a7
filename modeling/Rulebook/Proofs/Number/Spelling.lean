import Rulebook.Proofs.Number.Numerals
import Rulebook.Proofs.Text.Trimming
import Rulebook.Value.Conversion

/-!
# Texts that spell numbers

Every text is taken for a number when it meets one, and most texts are not: they give the value
that is not a number. Which of them are is decided by five readers that are tried one after the
other. `SpellsNumber` says it as a grammar:

    number := nothing | sign? "Infinity" | '0' mark digit⁺ | numeral

where a mark stands for one of the radices sixteen, eight and two, whose digits are meant behind
it, and has no sign before it. White space and byte order marks around a number do not count.
The grammar is what is read (`numberOfText_ne_nan_iff`): in particular digits that take a number
beyond every limit make it infinite, and do not end at the value that is not a number.
-/

namespace Rulebook

/-! ## Digits and marks -/

/-- **That a character is a digit of a radix**, and of which value; letters count in either
case. -/
def SpellsDigit (radix : Nat) (c : Char) (d : Nat) : Prop :=
  d < radix ∧ (c = d.digitChar ∨ c = d.digitChar.toUpper)

instance (radix : Nat) (c : Char) (d : Nat) : Decidable (SpellsDigit radix c d) :=
  inferInstanceAs (Decidable (_ ∧ _))

/-- A character of a range is told by how far it is from the first one. -/
theorem eq_of_toNat_range {c : Char} (first count : Nat) (shown : Nat → Char)
    (hrow : ∀ n < count, Char.ofNat (first + n) = shown n) (hlo : first ≤ c.toNat)
    (hhi : c.toNat < first + count) : c = shown (c.toNat - first) := by
  rw [← hrow _ (by omega), Nat.add_sub_cancel' hlo, Char.ofNat_toNat]

/-- **The digits that are read are the digits of the radix.** -/
theorem digitIn?_eq_some_iff {radix d : Nat} {c : Char} (hradix : radix ≤ 16) :
    digitIn? radix c = some d ↔ SpellsDigit radix c d := by
  constructor
  · intro h
    obtain ⟨hvalue, hd⟩ := Option.filter_eq_some_iff.mp h
    refine ⟨of_decide_eq_true hd, ?_⟩
    split at hvalue
    · rename_i hdigit
      obtain ⟨hlo, hhi⟩ := toNat_of_isDigit hdigit
      cases hvalue
      exact .inl (eq_of_toNat_range 48 10 (fun n => n.digitChar) (by decide) hlo
        (Nat.lt_succ_of_le hhi))
    split at hvalue
    · rename_i hletter
      cases hvalue
      exact .inl (eq_of_toNat_range 97 6 (fun n => (n + 10).digitChar) (by decide) hletter.1
        (Nat.lt_succ_of_le hletter.2))
    split at hvalue
    · rename_i hletter
      cases hvalue
      exact .inr (eq_of_toNat_range 65 6 (fun n => (n + 10).digitChar.toUpper) (by decide)
        hletter.1 (Nat.lt_succ_of_le hletter.2))
    · cases hvalue
  · rintro ⟨hd, hc⟩
    have hrow : ∀ d < 16, digitIn? 16 d.digitChar = some d ∧
        digitIn? 16 d.digitChar.toUpper = some d := by decide
    obtain ⟨hlower, hupper⟩ := hrow d (Nat.lt_of_lt_of_le hd hradix)
    have hwide : digitIn? 16 c = some d := by
      obtain rfl | rfl := hc
      · exact hlower
      · exact hupper
    -- the value is that of the widest radix, if it is below the radix
    exact Option.filter_eq_some_iff.mpr
      ⟨(Option.filter_eq_some_iff.mp hwide).1, decide_eq_true hd⟩

/-- The marks of a radix, which stand behind a zero. -/
def radixMarks : List (Char × Nat) :=
  [('x', 16), ('X', 16), ('o', 8), ('O', 8), ('b', 2), ('B', 2)]

/-- Each radix is a power of two. -/
theorem exists_two_pow_of_mem_radixMarks {mark : Char} {radix : Nat}
    (h : (mark, radix) ∈ radixMarks) : ∃ k : Nat, radix = 2 ^ k ∧ radix ≤ 16 := by
  simp only [radixMarks, List.mem_cons, Prod.mk.injEq, List.not_mem_nil, or_false] at h
  obtain ⟨-, rfl⟩ | ⟨-, rfl⟩ | ⟨-, rfl⟩ | ⟨-, rfl⟩ | ⟨-, rfl⟩ | ⟨-, rfl⟩ := h
  · exact ⟨4, rfl, by decide⟩
  · exact ⟨4, rfl, by decide⟩
  · exact ⟨3, rfl, by decide⟩
  · exact ⟨3, rfl, by decide⟩
  · exact ⟨1, rfl, by decide⟩
  · exact ⟨1, rfl, by decide⟩

theorem announcedRadix?_eq_some_iff {text digits : List Char} {radix : Nat} :
    announcedRadix? text = some (radix, digits) ↔
      ∃ mark, (mark, radix) ∈ radixMarks ∧ text = '0' :: mark :: digits := by
  constructor
  · intro h
    unfold announcedRadix? at h
    split at h <;> cases h
    · exact ⟨'x', by decide, rfl⟩
    · exact ⟨'X', by decide, rfl⟩
    · exact ⟨'o', by decide, rfl⟩
    · exact ⟨'O', by decide, rfl⟩
    · exact ⟨'b', by decide, rfl⟩
    · exact ⟨'B', by decide, rfl⟩
  · rintro ⟨mark, hmark, rfl⟩
    simp only [radixMarks, List.mem_cons, Prod.mk.injEq, List.not_mem_nil, or_false] at hmark
    obtain ⟨rfl, rfl⟩ | ⟨rfl, rfl⟩ | ⟨rfl, rfl⟩ | ⟨rfl, rfl⟩ | ⟨rfl, rfl⟩ | ⟨rfl, rfl⟩ := hmark <;>
      rfl

/-! ## Names -/

theorem namedInfinity?_ne_none_iff {text : List Char} :
    namedInfinity? text ≠ none ↔
      ∃ sign, OptionalSign sign ∧ text = sign ++ "Infinity".toList := by
  have hname (name : String) : String.ofList text = name ↔ text = name.toList := by
    rw [← String.toList_inj, String.toList_ofList]
  unfold namedInfinity?
  dsimp only
  simp only [hname]
  constructor
  · intro h
    split at h
    · rename_i hplus
      obtain hplain | hplus := hplus
      · exact ⟨[], .inl rfl, hplain⟩
      · exact ⟨['+'], .inr (.inl rfl), hplus⟩
    split at h
    · rename_i hminus
      exact ⟨['-'], .inr (.inr rfl), hminus⟩
    · exact absurd rfl h
  · rintro ⟨sign, rfl | rfl | rfl, rfl⟩
    · rw [if_pos (.inl rfl)]
      exact Option.some_ne_none _
    · rw [if_pos (.inr rfl)]
      exact Option.some_ne_none _
    · rw [if_neg (by decide), if_pos (by decide)]
      exact Option.some_ne_none _

theorem namedInfinity?_ne_nan {text : List Char} {x : Binary64} (h : namedInfinity? text = some x) :
    x ≠ .nan := by
  rintro rfl
  unfold namedInfinity? at h
  dsimp only at h
  split at h
  · cases h
  · split at h <;> cases h

/-! ## What is a number -/

namespace Binary64

theorem zero_ne_nan : zero ≠ .nan := fun h => nomatch h

theorem nearest_ne_nan (negative : Bool) (num den : Nat) : nearest negative num den ≠ .nan := by
  unfold nearest
  split <;> exact fun h => nomatch h

/-- **A digit behind a number is a number**, also where the number is infinite. -/
theorem addNat_mulNat_ne_nan {x : Binary64} (hx : x ≠ .nan) {radix : Nat} (hradix : radix ≠ 0)
    (d : Nat) : (x.mulNat radix).addNat d ≠ .nan := by
  have hadd {y : Binary64} (hy : y ≠ .nan) : y.addNat d ≠ .nan := by
    cases y with
    | nan => exact absurd rfl hy
    | infinite negative => exact hy
    | finite negative m => exact nearest_ne_nan _ _ _
  refine hadd ?_
  cases x with
  | nan => exact absurd rfl hx
  | infinite negative =>
    rw [mulNat, if_neg hradix]
    exact hx
  | finite negative m => exact nearest_ne_nan _ _ _

end Binary64

theorem Decimal.toBinary64_ne_nan (d : Decimal) : d.toBinary64 ≠ .nan := by
  unfold toBinary64
  split
  · exact fun h => nomatch h
  split
  · exact fun h => nomatch h
  split
  · exact fun h => nomatch h
  split <;> exact Binary64.nearest_ne_nan _ _ _

/-- **Digits come to a number**, however many there are, and nothing else does. -/
theorem accumulate_ne_nan_iff {radix : Nat} (hpos : radix ≠ 0) (hle : radix ≤ 16) {x : Binary64}
    (hx : x ≠ .nan) (chars : List Char) :
    accumulate radix x chars ≠ .nan ↔ ∀ c ∈ chars, ∃ d, SpellsDigit radix c d := by
  induction chars generalizing x with
  | nil => exact ⟨fun _ c hc => (by cases hc), fun _ => hx⟩
  | cons c chars ih =>
    rw [List.forall_mem_cons, accumulate]
    cases hdigit : digitIn? radix c with
    | none =>
      refine ⟨fun h => absurd rfl h, ?_⟩
      rintro ⟨⟨d, hd⟩, -⟩
      rw [(digitIn?_eq_some_iff hle).mpr hd] at hdigit
      cases hdigit
    | some d =>
      refine (ih (Binary64.addNat_mulNat_ne_nan hx hpos d)).trans ?_
      exact ⟨fun h => ⟨⟨d, (digitIn?_eq_some_iff hle).mp hdigit⟩, h⟩, And.right⟩

theorem numberInRadix_ne_nan_iff {mark : Char} {radix : Nat} (hmark : (mark, radix) ∈ radixMarks)
    (chars : List Char) :
    numberInRadix radix chars ≠ .nan ↔
      chars ≠ [] ∧ ∀ c ∈ chars, ∃ d, SpellsDigit radix c d := by
  obtain ⟨k, rfl, hle⟩ := exists_two_pow_of_mem_radixMarks hmark
  unfold numberInRadix
  by_cases hne : chars = []
  · rw [hne]
    exact ⟨fun h => absurd rfl h, fun h => absurd rfl h.1⟩
  · rw [if_neg (fun hnil => hne (List.isEmpty_iff.mp hnil)),
      accumulate_ne_nan_iff (Nat.ne_of_gt (Nat.two_pow_pos k)) hle Binary64.zero_ne_nan]
    exact ⟨fun h => ⟨hne, h⟩, And.right⟩

/-! ## The grammar -/

/-- **The texts that spell a number**, with nothing around them. -/
inductive SpellsNumber : List Char → Prop where
  /-- Nothing, which counts as zero. -/
  | blank : SpellsNumber []
  /-- An infinity. -/
  | infinity {sign : List Char} (hsign : OptionalSign sign) :
    SpellsNumber (sign ++ "Infinity".toList)
  /-- Digits of a radix behind its mark. -/
  | inRadix {mark : Char} {radix : Nat} {chars : List Char} (hmark : (mark, radix) ∈ radixMarks)
      (hne : chars ≠ []) (h : ∀ c ∈ chars, ∃ d, SpellsDigit radix c d) :
    SpellsNumber ('0' :: mark :: chars)
  /-- A numeral. -/
  | numeral {sign mantissa exponent : List Char} (hsign : OptionalSign sign)
      (hmantissa : SpellsMantissa mantissa) (hexponent : SpellsExponent exponent) :
    SpellsNumber (sign ++ (mantissa ++ exponent))

/-- No numeral begins with a mark, with a sign or without. -/
theorem Decimal.read?_eq_none_of_mark {sign : List Char} (hsign : OptionalSign sign) {mark : Char}
    {radix : Nat} (hmark : (mark, radix) ∈ radixMarks) (chars : List Char) :
    read? (sign ++ '0' :: mark :: chars) = none := by
  have hmarks : ∀ entry ∈ radixMarks, entry.1.isDigit = false ∧ entry.1 ≠ '.' ∧
      ¬ (entry.1 = 'e' ∨ entry.1 = 'E') := by decide
  obtain ⟨hdigit, hpoint, hletter⟩ := hmarks (mark, radix) hmark
  have hsigned := takeSign_append hsign (noSign_cons (c := '0') (by decide) (mark :: chars))
  have hw : takeDigits ('0' :: mark :: chars) = (['0'], mark :: chars) :=
    takeDigits_append (List.forall_mem_singleton.mpr rfl) (noDigit_cons hdigit chars)
  have hf : takeFraction (mark :: chars) = ([], mark :: chars) := by
    rw [takeFraction]
    exact fun rest heq => hpoint (List.cons.inj heq).1
  refine Classical.byContradiction fun hread => ?_
  obtain ⟨-, e, he⟩ := (read?_ne_none_iff (by rw [hsigned, hw]) hf).mp hread
  rw [takeExponent?, if_neg hletter] at he
  cases he

/-- **Each reader has its part of the grammar.** -/
theorem spellsNumber_iff {core : List Char} :
    SpellsNumber core ↔ core = [] ∨ namedInfinity? core ≠ none ∨
      (∃ radix chars, announcedRadix? core = some (radix, chars) ∧
        numberInRadix radix chars ≠ .nan) ∨ Decimal.read? core ≠ none := by
  rw [namedInfinity?_ne_none_iff, Decimal.read?_ne_none_iff_spells]
  constructor
  · intro h
    cases h with
    | blank => exact .inl rfl
    | infinity hsign => exact .inr (.inl ⟨_, hsign, rfl⟩)
    | inRadix hmark hne h =>
      exact .inr (.inr (.inl ⟨_, _, announcedRadix?_eq_some_iff.mpr ⟨_, hmark, rfl⟩,
        (numberInRadix_ne_nan_iff hmark _).mpr ⟨hne, h⟩⟩))
    | numeral hsign hmantissa hexponent =>
      exact .inr (.inr (.inr ⟨_, _, _, hsign, hmantissa, hexponent, rfl⟩))
  · rintro (rfl | ⟨sign, hsign, rfl⟩ | ⟨radix, chars, hannounced, hnumber⟩ |
      ⟨sign, mantissa, exponent, hsign, hmantissa, hexponent, rfl⟩)
    · exact .blank
    · exact .infinity hsign
    · obtain ⟨mark, hmark, rfl⟩ := announcedRadix?_eq_some_iff.mp hannounced
      obtain ⟨hne, h⟩ := (numberInRadix_ne_nan_iff hmark chars).mp hnumber
      exact .inRadix hmark hne h
    · exact .numeral hsign hmantissa hexponent

/-- **The readers of a number together read the grammar.** -/
theorem numberOfText_ne_nan_iff_trimBy (text : String) :
    numberOfText text ≠ .nan ↔ SpellsNumber (trimBy isIgnorable text.toList) := by
  unfold numberOfText
  generalize trimBy isIgnorable text.toList = core
  rw [spellsNumber_iff]
  dsimp only
  split
  · rename_i hblank
    exact ⟨fun _ => .inl (List.isEmpty_iff.mp hblank), fun _ => Binary64.zero_ne_nan⟩
  rename_i hne
  have hne : core ≠ [] := fun hnil => hne (List.isEmpty_iff.mpr hnil)
  split
  · rename_i x hname
    rw [hname]
    exact ⟨fun _ => .inr (.inl (Option.some_ne_none x)), fun _ => namedInfinity?_ne_nan hname⟩
  rename_i hname
  split
  · rename_i radix chars hannounced
    refine ⟨fun h => .inr (.inr (.inl ⟨radix, chars, hannounced, h⟩)), ?_⟩
    rintro (hnil | hsome | ⟨_, _, hsame, h⟩ | hread)
    · exact absurd hnil hne
    · exact absurd hname hsome
    · obtain ⟨rfl, rfl⟩ := Prod.mk.inj (Option.some.inj (hannounced.symm.trans hsame))
      exact h
    · obtain ⟨mark, hmark, rfl⟩ := announcedRadix?_eq_some_iff.mp hannounced
      exact absurd (Decimal.read?_eq_none_of_mark (.inl rfl) hmark chars) hread
  rename_i hannounced
  split
  · rename_i d hread
    rw [hread]
    exact ⟨fun _ => .inr (.inr (.inr (Option.some_ne_none d))), fun _ => d.toBinary64_ne_nan⟩
  · rename_i hread
    refine ⟨fun h => absurd rfl h, ?_⟩
    rintro (hnil | hsome | ⟨_, _, hsome, -⟩ | hsome)
    · exact absurd hnil hne
    · exact absurd hname hsome
    · rw [hannounced] at hsome
      cases hsome
    · exact absurd hread hsome

/-! ## What stands around a number -/

/-- **A digit is none of the characters that are not looked at.** -/
theorem isIgnorable_eq_false_of_isDigit {c : Char} (h : c.isDigit) : isIgnorable c = false := by
  obtain ⟨hlo, hhi⟩ := toNat_of_isDigit h
  have hall : ∀ d < 10, isIgnorable d.digitChar = false := by decide
  rw [eq_of_toNat_range 48 10 (fun d => d.digitChar) (by decide) hlo (Nat.lt_succ_of_le hhi)]
  exact hall _ (by omega)

/-- **A digit of a radix is none of the characters that are not looked at.** -/
theorem SpellsDigit.isIgnorable_eq_false {radix d : Nat} {c : Char} (hradix : radix ≤ 16)
    (h : SpellsDigit radix c d) : isIgnorable c = false := by
  have hall : ∀ d < 16, isIgnorable d.digitChar = false ∧
      isIgnorable d.digitChar.toUpper = false := by decide
  obtain ⟨hlower, hupper⟩ := hall d (Nat.lt_of_lt_of_le h.1 hradix)
  obtain rfl | rfl := h.2
  · exact hlower
  · exact hupper

theorem isIgnorable_eq_false_of_mem_radixMarks {mark : Char} {radix : Nat}
    (h : (mark, radix) ∈ radixMarks) : isIgnorable mark = false := by
  have hall : ∀ entry ∈ radixMarks, isIgnorable entry.1 = false := by decide
  exact hall (mark, radix) h

theorem OptionalSign.isIgnorable_eq_false {sign : List Char} (h : OptionalSign sign) :
    ∀ c ∈ sign, isIgnorable c = false := by
  obtain rfl | rfl | rfl := h
  · exact fun c hc => by cases hc
  · exact List.forall_mem_singleton.mpr (by decide)
  · exact List.forall_mem_singleton.mpr (by decide)

theorem SpellsMantissa.isIgnorable_eq_false {mantissa : List Char} (h : SpellsMantissa mantissa) :
    ∀ c ∈ mantissa, isIgnorable c = false := by
  have hdigits {digits : List Char} (h : ∀ c ∈ digits, c.isDigit) :
      ∀ c ∈ digits, isIgnorable c = false :=
    fun c hc => isIgnorable_eq_false_of_isDigit (h c hc)
  cases h with
  | whole hne h => exact hdigits h
  | pointed hne hwhole hfraction =>
    rw [List.forall_mem_append, List.forall_mem_cons]
    exact ⟨hdigits hwhole, by decide, hdigits hfraction⟩
  | fraction hne h => exact List.forall_mem_cons.mpr ⟨by decide, hdigits h⟩

theorem SpellsExponent.isIgnorable_eq_false {exponent : List Char} (h : SpellsExponent exponent) :
    ∀ c ∈ exponent, isIgnorable c = false := by
  cases h with
  | absent => exact fun c hc => by cases hc
  | power hletter hsign hne h =>
    rw [List.forall_mem_cons, List.forall_mem_append]
    refine ⟨?_, hsign.isIgnorable_eq_false,
      fun c hc => isIgnorable_eq_false_of_isDigit (h c hc)⟩
    obtain rfl | rfl := hletter <;> decide

/-- **A number has no characters that are not looked at.** -/
theorem SpellsNumber.isIgnorable_eq_false {core : List Char} (h : SpellsNumber core) :
    ∀ c ∈ core, isIgnorable c = false := by
  cases h with
  | blank => exact fun c hc => by cases hc
  | infinity hsign =>
    have hname : "Infinity".toList.all (fun c => !isIgnorable c) := by decide
    rw [List.forall_mem_append]
    exact ⟨hsign.isIgnorable_eq_false, fun c hc => by simpa using List.all_eq_true.mp hname c hc⟩
  | @inRadix mark radix chars hmark hne h =>
    obtain ⟨-, -, hle⟩ := exists_two_pow_of_mem_radixMarks hmark
    rw [List.forall_mem_cons, List.forall_mem_cons]
    refine ⟨by decide, isIgnorable_eq_false_of_mem_radixMarks hmark, fun c hc => ?_⟩
    obtain ⟨d, hd⟩ := h c hc
    exact hd.isIgnorable_eq_false hle
  | numeral hsign hmantissa hexponent =>
    rw [List.forall_mem_append, List.forall_mem_append]
    exact ⟨hsign.isIgnorable_eq_false, hmantissa.isIgnorable_eq_false,
      hexponent.isIgnorable_eq_false⟩

/-- What stands around a number is not looked at. -/
theorem numberOfText_append_append {before after : String}
    (hbefore : ∀ c ∈ before.toList, isIgnorable c) (text : String)
    (hafter : ∀ c ∈ after.toList, isIgnorable c) :
    numberOfText (before ++ text ++ after) = numberOfText text := by
  unfold numberOfText
  rw [String.toList_append, String.toList_append, trimBy_append_append hbefore _ hafter]

/-- A radix has no sign. -/
theorem numberOfText_eq_nan_of_signed {sign mark : Char} {radix : Nat}
    (hsign : sign = '+' ∨ sign = '-') (hmark : (mark, radix) ∈ radixMarks) {text : String}
    {rest : List Char}
    (htext : text.toList = sign :: '0' :: mark :: rest) : numberOfText text = .nan := by
  refine Classical.byContradiction fun hnumber => ?_
  have hspelled := (numberOfText_ne_nan_iff_trimBy _).mp hnumber
  have hkept : ∀ c ∈ [sign, '0', mark], isIgnorable c = false := by
    rw [List.forall_mem_cons, List.forall_mem_cons, List.forall_mem_singleton]
    exact ⟨by obtain rfl | rfl := hsign <;> decide, by decide,
      isIgnorable_eq_false_of_mem_radixMarks hmark⟩
  obtain ⟨rest', hcore⟩ := exists_trimBy_append (List.cons_ne_nil _ _) hkept rest
  rw [htext, show sign :: '0' :: mark :: rest = [sign, '0', mark] ++ rest from rfl,
    hcore] at hspelled
  obtain hnil | hname | ⟨radix', chars, hannounced, -⟩ | hread := spellsNumber_iff.mp hspelled
  · cases hnil
  · obtain ⟨sign', hsign', hname⟩ := namedInfinity?_ne_none_iff.mp hname
    have hsecond := congrArg (fun text => text[1]?) hname
    obtain rfl | rfl | rfl := hsign' <;> cases hsecond
  · obtain ⟨mark', -, hzero⟩ := announcedRadix?_eq_some_iff.mp hannounced
    rw [(List.cons.inj hzero).1] at hsign
    obtain hsign | hsign := hsign <;> cases hsign
  · have hsign : OptionalSign [sign] := by
      obtain rfl | rfl := hsign
      · exact .inr (.inl rfl)
      · exact .inr (.inr rfl)
    exact absurd (Decimal.read?_eq_none_of_mark hsign hmark rest') hread

/-- **Digits of a radix behind its mark spell the number that they spell alone.** -/
theorem numberOfText_radix {mark : Char} {radix : Nat} (hmark : (mark, radix) ∈ radixMarks)
    {chars : List Char} (hne : chars ≠ []) (h : ∀ c ∈ chars, ∃ d, SpellsDigit radix c d)
    {text : String} (htext : text.toList = '0' :: mark :: chars) :
    numberOfText text = numberInRadix radix chars := by
  have hname : namedInfinity? ('0' :: mark :: chars) = none := by
    refine Classical.byContradiction fun hsome => ?_
    obtain ⟨sign, hsign, hname⟩ := namedInfinity?_ne_none_iff.mp hsome
    have hfirst := congrArg List.head? hname
    obtain rfl | rfl | rfl := hsign <;> cases hfirst
  have hannounced : announcedRadix? ('0' :: mark :: chars) = some (radix, chars) :=
    announcedRadix?_eq_some_iff.mpr ⟨mark, hmark, rfl⟩
  have hcore := (SpellsNumber.inRadix hmark hne h).isIgnorable_eq_false
  unfold numberOfText
  rw [htext, trimBy_eq_self hcore]
  dsimp only
  rw [List.isEmpty_cons, if_neg Bool.false_ne_true, hname, hannounced]

/-- **Which texts spell a number**: exactly those of the grammar, in any surrounding of characters
that are not looked at. A radix has no sign. -/
theorem numberOfText_ne_nan_iff (text : String) :
    (numberOfText text ≠ .nan ↔
      ∃ before core after, text.toList = before ++ core ++ after ∧
        (∀ c ∈ before, isIgnorable c) ∧ (∀ c ∈ after, isIgnorable c) ∧ SpellsNumber core) ∧
    (∀ before after : String, (∀ c ∈ before.toList, isIgnorable c) →
      (∀ c ∈ after.toList, isIgnorable c) →
        numberOfText (before ++ text ++ after) = numberOfText text) ∧
    ∀ sign mark radix rest, (sign = '+' ∨ sign = '-') → (mark, radix) ∈ radixMarks →
      text.toList = sign :: '0' :: mark :: rest → numberOfText text = .nan := by
  refine ⟨?_, fun before after hbefore hafter => numberOfText_append_append hbefore text hafter,
    fun sign mark radix rest hsign hmark htext => numberOfText_eq_nan_of_signed hsign hmark htext⟩
  rw [numberOfText_ne_nan_iff_trimBy]
  constructor
  · intro h
    obtain ⟨before, after, htext, hbefore, hafter⟩ := exists_append_trimBy isIgnorable text.toList
    exact ⟨before, _, after, htext, hbefore, hafter, h⟩
  · rintro ⟨before, core, after, htext, hbefore, hafter, h⟩
    rw [htext, trimBy_append_append hbefore core hafter, trimBy_eq_self h.isIgnorable_eq_false]
    exact h

end Rulebook
