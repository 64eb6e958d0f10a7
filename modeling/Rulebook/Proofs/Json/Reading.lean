import Rulebook.Proofs.Json.Number

/-!
# What readers leave

A reader takes what it reads off the front of a text, so what it hands on is an end of
the text (`Json.readValue_suffix`). Since every further item of an array stands behind a
comma, the texts get shorter from item to item, and the fuel that the length of a text
gives is always enough (`Json.itemsFrom_of_fuel`).
-/

namespace Rulebook

/-- What comes of two steps comes of the first and then of the second. -/
theorem bind_eq_ok_iff {ε α β : Type} {x : Except ε α} {next : α → Except ε β} {b : β} :
    (x >>= next) = .ok b ↔ ∃ a, x = .ok a ∧ next a = .ok b := by
  cases x with
  | error e => simp [bind, Except.bind]
  | ok a => simp [bind, Except.bind]

namespace Json

variable {α : Type} {strict : Bool} {text rest : List Char}

/-! ## Ends of texts -/

theorem skipGap_suffix (text : List Char) : skipGap text <:+ text :=
  List.dropWhile_suffix isGap

/-- What follows the first character behind a gap is an end of the text. -/
theorem suffix_of_skipGap {c : Char} (h : skipGap text = c :: rest) : rest <:+ text :=
  (List.suffix_cons c rest).trans (h ▸ skipGap_suffix text)

theorem expectWord_suffix {word : List Char} (h : expectWord word text = .ok rest) :
    rest <:+ text := by
  induction word generalizing text with
  | nil =>
    cases h
    exact List.suffix_refl _
  | cons w word ih =>
    cases text with
    | nil => cases h
    | cons c text =>
      rw [expectWord] at h
      split at h
      · exact (ih h).trans (List.suffix_cons c text)
      · cases h

theorem expectDigits_suffix {digits : List Char} (h : expectDigits text = .ok (digits, rest)) :
    rest <:+ text := by
  unfold expectDigits takeDigits at h
  dsimp only at h
  split at h
  · cases h
  · cases h
    exact List.dropWhile_suffix _

theorem wholePart_suffix {digits : List Char} (h : wholePart text = .ok (digits, rest)) :
    rest <:+ text := by
  obtain ⟨⟨read, left⟩, hread, hrest⟩ := bind_eq_ok_iff.mp h
  dsimp only at hrest
  split at hrest
  · cases hrest
  · cases hrest
    exact expectDigits_suffix hread

theorem fractionPart_suffix {places : Option (List Char)}
    (h : fractionPart text = .ok (places, rest)) : rest <:+ text := by
  unfold fractionPart at h
  split at h
  · obtain ⟨⟨read, left⟩, hread, hrest⟩ := bind_eq_ok_iff.mp h
    cases hrest
    exact (expectDigits_suffix hread).trans (List.suffix_cons _ _)
  · cases h
    exact List.suffix_refl _

theorem takeSign_suffix (text : List Char) : (takeSign text).2 <:+ text := by
  unfold takeSign
  split
  · exact List.suffix_cons _ _
  · exact List.suffix_cons _ _
  · exact List.suffix_refl _

theorem exponentPart_suffix {exponent : Option Int}
    (h : exponentPart text = .ok (exponent, rest)) : rest <:+ text := by
  unfold exponentPart at h
  split at h
  · cases h
    exact List.suffix_refl _
  · rename_i c text
    split at h
    · obtain ⟨⟨digits, left⟩, hread, hrest⟩ := bind_eq_ok_iff.mp h
      cases hrest
      exact ((expectDigits_suffix hread).trans (takeSign_suffix text)).trans
        (List.suffix_cons c text)
    · cases h
      exact List.suffix_refl _

theorem readUnsigned_suffix {negative : Bool} {n : JsonNumber}
    (h : readUnsigned strict negative text = .ok (n, rest)) : rest <:+ text := by
  obtain ⟨⟨whole, afterWhole⟩, hwhole, h⟩ := bind_eq_ok_iff.mp h
  obtain ⟨⟨places, afterPlaces⟩, hplaces, h⟩ := bind_eq_ok_iff.mp h
  obtain ⟨⟨exponent, afterExponent⟩, hexponent, h⟩ := bind_eq_ok_iff.mp h
  dsimp only at h
  split at h
  · cases h
  · cases h
    exact (exponentPart_suffix hexponent).trans
      ((fractionPart_suffix hplaces).trans (wholePart_suffix hwhole))

theorem readNumber_suffix {n : JsonNumber} (h : readNumber strict text = .ok (n, rest)) :
    rest <:+ text := by
  by_cases hsign : text.head? = some '-'
  · obtain ⟨unsigned, rfl⟩ := List.head?_eq_some_iff.mp hsign
    exact (readUnsigned_suffix h).trans (List.suffix_cons _ _)
  · exact readUnsigned_suffix (readNumber_unsigned strict hsign ▸ h)

theorem textBody_suffix {state : TextState} {read : List Char} {s : String}
    (h : textBody strict state read text = .ok (s, rest)) : rest <:+ text := by
  fun_induction textBody strict state read text with
  | case2 =>
    cases h
    exact List.suffix_cons _ _
  -- in all that do not end here or fail one character is taken and the reader goes on
  | case3 | case5 | case6 | case8 | case11 | case13 | case14 | case16 =>
    rename_i ih
    exact (ih h).trans (List.suffix_cons _ _)
  | _ => cases h

/-! ## Ends of arrays and objects -/

theorem nextItem_suffix {first : Bool} {item : List Char}
    (h : nextItem first text = .ok (some item)) : item <:+ text := by
  unfold nextItem at h
  split at h
  · cases h
  · cases h
  · rename_i c rest hne hgap
    split at h
    · cases h
      exact hgap ▸ skipGap_suffix text
    · split at h
      · split at h
        · cases h
        · cases h
        · cases h
          exact (skipGap_suffix rest).trans (suffix_of_skipGap hgap)
      · cases h

/-- A further item stands behind a comma. -/
theorem length_lt_of_nextItem {item : List Char} (h : nextItem false text = .ok (some item)) :
    item.length < text.length := by
  unfold nextItem at h
  split at h
  · cases h
  · cases h
  · rename_i c rest hne hgap
    rw [if_neg Bool.false_ne_true] at h
    split at h
    · split at h
      · cases h
      · cases h
      · cases h
        have hgap' : (c :: rest).length ≤ text.length := hgap ▸ (skipGap_suffix text).length_le
        exact Nat.lt_of_lt_of_le (Nat.lt_succ_of_le (skipGap_suffix rest).length_le) hgap'
    · cases h

theorem closeItems_suffix (h : closeItems text = .ok rest) : rest <:+ text := by
  unfold closeItems at h
  split at h
  · cases h
  · rename_i left hgap
    cases h
    exact suffix_of_skipGap hgap
  · cases h

theorem expectColon_suffix (h : expectColon text = .ok rest) : rest <:+ text := by
  unfold expectColon at h
  split at h
  · cases h
  · rename_i left hgap
    cases h
    exact suffix_of_skipGap hgap
  · cases h

theorem closeMembers_suffix (h : closeMembers text = .ok rest) : rest <:+ text := by
  unfold closeMembers at h
  split at h
  · cases h
  · rename_i left hgap
    cases h
    exact suffix_of_skipGap hgap
  · cases h

/-- That a reader hands on an end of its text. -/
def LeavesSuffix {β : Type} (reader : List Char → Except ReadFault (β × List Char)) : Prop :=
  ∀ {text x rest}, reader text = .ok (x, rest) → rest <:+ text

/-- A text behind its quote is a part of what follows. -/
theorem quoted_suffix {body : List Char} {key : String}
    (h : (readBody strict body).map some = Except.ok (some (key, rest))) :
    rest <:+ '"' :: body := by
  cases hbody : readBody strict body with
  | error fault =>
    rw [hbody] at h
    cases h
  | ok result =>
    rw [hbody] at h
    cases h
    exact (textBody_suffix hbody).trans (List.suffix_cons _ _)

theorem nextKey_suffix {first : Bool} {key : String}
    (h : nextKey strict first text = .ok (some (key, rest))) : rest <:+ text := by
  unfold nextKey at h
  dsimp only at h
  split at h
  · cases h
  · cases h
  · rename_i c left hne hgap
    split at h
    · -- the key is there at once
      have hgapped : c :: left <:+ text := hgap ▸ skipGap_suffix text
      generalize c :: left = keyed at h hgapped
      split at h
      · exact (quoted_suffix h).trans hgapped
      · cases h
      · cases h
    · split at h
      · -- the key is behind a comma
        have hleft : skipGap left <:+ text := (skipGap_suffix left).trans (suffix_of_skipGap hgap)
        generalize skipGap left = keyed at h hleft
        split at h
        · exact (quoted_suffix h).trans hleft
        · cases h
        · cases h
      · cases h

theorem itemsFrom_suffix {item : List Char → Except ReadFault (α × List Char)}
    (hitem : LeavesSuffix item) {fuel : Nat} {first : Bool} {read items : List α}
    (h : itemsFrom item fuel first read text = .ok (items, rest)) : rest <:+ text := by
  induction fuel generalizing first read text with
  | zero => cases h
  | succ fuel ih =>
    obtain ⟨next, hnext, h⟩ := bind_eq_ok_iff.mp h
    cases next with
    | none =>
      obtain ⟨left, hclose, h⟩ := bind_eq_ok_iff.mp h
      cases h
      exact closeItems_suffix hclose
    | some place =>
      obtain ⟨⟨x, left⟩, hx, h⟩ := bind_eq_ok_iff.mp h
      exact (ih h).trans ((hitem hx).trans (nextItem_suffix hnext))

theorem membersFrom_suffix {step : α → String → List Char → Except ReadFault (α × List Char)}
    (hstep : ∀ gathered key, LeavesSuffix (step gathered key)) {fuel : Nat} {first : Bool}
    {gathered result : α}
    (h : membersFrom strict step fuel first gathered text = .ok (result, rest)) :
    rest <:+ text := by
  induction fuel generalizing first gathered text with
  | zero => cases h
  | succ fuel ih =>
    obtain ⟨next, hnext, h⟩ := bind_eq_ok_iff.mp h
    cases next with
    | none =>
      obtain ⟨left, hclose, h⟩ := bind_eq_ok_iff.mp h
      cases h
      exact closeMembers_suffix hclose
    | some found =>
      obtain ⟨key, place⟩ := found
      obtain ⟨⟨more, left⟩, hmore, h⟩ := bind_eq_ok_iff.mp h
      exact (ih h).trans ((hstep _ _ hmore).trans (nextKey_suffix hnext))

theorem keepMember_suffix {value : List Char → Except ReadFault (α × List Char)}
    (hvalue : LeavesSuffix value) (read : List (String × α)) (key : String) :
    LeavesSuffix (keepMember value read key) := by
  intro text x rest h
  obtain ⟨place, hcolon, h⟩ := bind_eq_ok_iff.mp h
  obtain ⟨⟨y, left⟩, hy, h⟩ := bind_eq_ok_iff.mp h
  cases h
  exact (hvalue hy).trans (expectColon_suffix hcolon)

/-! ## Values -/

/-- **What a value can have been read from**, one case for each form of value. -/
inductive ReadFrom (strict : Bool) (text : List Char) : Nat → Json → List Char → Prop where
  /-- The word `null`. -/
  | null {depth : Nat} {body rest : List Char} (hgap : skipGap text = 'n' :: body)
      (h : expectWord ['u', 'l', 'l'] body = .ok rest) : ReadFrom strict text depth .null rest
  /-- The word `true`. -/
  | true {depth : Nat} {body rest : List Char} (hgap : skipGap text = 't' :: body)
      (h : expectWord ['r', 'u', 'e'] body = .ok rest) :
      ReadFrom strict text depth (.bool Bool.true) rest
  /-- The word `false`. -/
  | false {depth : Nat} {body rest : List Char} (hgap : skipGap text = 'f' :: body)
      (h : expectWord ['a', 'l', 's', 'e'] body = .ok rest) :
      ReadFrom strict text depth (.bool Bool.false) rest
  /-- A number. -/
  | number {depth : Nat} {rest : List Char} {n : JsonNumber}
      (h : readNumber strict (skipGap text) = .ok (n, rest)) :
      ReadFrom strict text depth (.number n) rest
  /-- A text in quotes. -/
  | string {depth : Nat} {body rest : List Char} {s : String} (hgap : skipGap text = '"' :: body)
      (h : readBody strict body = .ok (s, rest)) : ReadFrom strict text depth (.string s) rest
  /-- Items in brackets. -/
  | array {depth : Nat} {body rest : List Char} {items : List Json}
      (hgap : skipGap text = '[' :: body)
      (h : readItems (readValue strict depth) body = .ok (items, rest)) :
      ReadFrom strict text (depth + 1) (.array items) rest
  /-- Members in braces. -/
  | object {depth : Nat} {body rest : List Char} {members : List (String × Json)}
      (hgap : skipGap text = '\x7b' :: body)
      (h : readMembers strict (readValue strict depth) body = .ok (members, rest)) :
      ReadFrom strict text (depth + 1) (.object members) rest

theorem readFrom_of_readValue {depth : Nat} {doc : Json}
    (h : readValue strict depth text = .ok (doc, rest)) : ReadFrom strict text depth doc rest := by
  unfold readValue at h
  split at h
  · cases h
  · rename_i body hgap
    obtain ⟨_, hword, h⟩ := bind_eq_ok_iff.mp h
    cases h
    exact .null hgap hword
  · rename_i body hgap
    obtain ⟨_, hword, h⟩ := bind_eq_ok_iff.mp h
    cases h
    exact .true hgap hword
  · rename_i body hgap
    obtain ⟨_, hword, h⟩ := bind_eq_ok_iff.mp h
    cases h
    exact .false hgap hword
  · rename_i body hgap
    obtain ⟨_, hbody, h⟩ := bind_eq_ok_iff.mp h
    cases h
    exact .string hgap hbody
  · rename_i body hgap
    split at h
    · cases h
    · obtain ⟨_, hitems, h⟩ := bind_eq_ok_iff.mp h
      cases h
      exact .array hgap hitems
  · rename_i body hgap
    split at h
    · cases h
    · obtain ⟨_, hmembers, h⟩ := bind_eq_ok_iff.mp h
      cases h
      exact .object hgap hmembers
  · rename_i c body _ _ _ _ _ _ hgap
    split at h
    · obtain ⟨_, hnumber, h⟩ := bind_eq_ok_iff.mp h
      cases h
      exact .number (hgap ▸ hnumber)
    · cases h

/-- **What a value leaves is an end of the text.** -/
theorem readValue_suffix (strict : Bool) (depth : Nat) : LeavesSuffix (readValue strict depth) := by
  induction depth using Nat.strongRecOn with
  | ind depth ih =>
    intro text doc rest h
    cases readFrom_of_readValue h with
    | null hgap h => exact (expectWord_suffix h).trans (suffix_of_skipGap hgap)
    | true hgap h => exact (expectWord_suffix h).trans (suffix_of_skipGap hgap)
    | false hgap h => exact (expectWord_suffix h).trans (suffix_of_skipGap hgap)
    | number h => exact (readNumber_suffix h).trans (skipGap_suffix text)
    | string hgap h => exact (textBody_suffix h).trans (suffix_of_skipGap hgap)
    | @array depth body rest items hgap h =>
      exact (itemsFrom_suffix (ih depth (Nat.lt_succ_self depth)) h).trans (suffix_of_skipGap hgap)
    | @object depth body rest members hgap h =>
      obtain ⟨⟨gathered, end_⟩, hgathered, h⟩ := bind_eq_ok_iff.mp h
      cases h
      exact (membersFrom_suffix
        (keepMember_suffix (ih depth (Nat.lt_succ_self depth))) hgathered).trans
        (suffix_of_skipGap hgap)

/-! ## Fuel -/

/-- **The fuel that the length of a text gives is enough** for the items that follow the
first one. -/
theorem itemsFrom_of_fuel {item : List Char → Except ReadFault (α × List Char)}
    (hitem : LeavesSuffix item) {fuel enough : Nat} {read items : List α}
    (henough : text.length < enough)
    (h : itemsFrom item fuel false read text = .ok (items, rest)) :
    itemsFrom item enough false read text = .ok (items, rest) := by
  induction fuel generalizing read text enough with
  | zero => cases h
  | succ fuel ih =>
    obtain ⟨enough, rfl⟩ := Nat.exists_eq_add_one_of_ne_zero (Nat.ne_zero_of_lt henough)
    obtain ⟨next, hnext, h⟩ := bind_eq_ok_iff.mp h
    refine bind_eq_ok_iff.mpr ⟨next, hnext, ?_⟩
    cases next with
    | none => exact h
    | some place =>
      obtain ⟨⟨x, left⟩, hx, h⟩ := bind_eq_ok_iff.mp h
      refine bind_eq_ok_iff.mpr ⟨⟨x, left⟩, hx, ih ?_ h⟩
      have hplace := length_lt_of_nextItem hnext
      have hleft := (hitem hx).length_le
      omega

/-! ## What has been read already -/

/-- What has been read already stands before what follows. -/
theorem itemsFrom_eq_ok_iff {item : List Char → Except ReadFault (α × List Char)} {fuel : Nat}
    {first : Bool} {read items : List α} :
    itemsFrom item fuel first read text = .ok (items, rest) ↔
      ∃ more, items = read.reverse ++ more ∧
        itemsFrom item fuel first [] text = .ok (more, rest) := by
  induction fuel generalizing first read items text with
  | zero => simp [itemsFrom]
  | succ fuel ih =>
    simp only [itemsFrom, bind_eq_ok_iff]
    constructor
    · rintro ⟨next, hnext, h⟩
      cases next with
      | none =>
        obtain ⟨left, hclose, h⟩ := bind_eq_ok_iff.mp h
        cases h
        exact ⟨[], by simp, none, hnext, bind_eq_ok_iff.mpr ⟨rest, hclose, rfl⟩⟩
      | some place =>
        obtain ⟨⟨x, left⟩, hx, h⟩ := bind_eq_ok_iff.mp h
        obtain ⟨more, rfl, hmore⟩ := ih.mp h
        refine ⟨x :: more, by simp, some place, hnext, ?_⟩
        exact bind_eq_ok_iff.mpr ⟨⟨x, left⟩, hx, ih.mpr ⟨more, rfl, hmore⟩⟩
    · rintro ⟨more, rfl, next, hnext, h⟩
      refine ⟨next, hnext, ?_⟩
      cases next with
      | none =>
        obtain ⟨left, hclose, h⟩ := bind_eq_ok_iff.mp h
        cases h
        exact bind_eq_ok_iff.mpr ⟨rest, hclose, by simp [pure, Except.pure]⟩
      | some place =>
        obtain ⟨⟨x, left⟩, hx, h⟩ := bind_eq_ok_iff.mp h
        obtain ⟨more, rfl, hmore⟩ := ih.mp h
        exact bind_eq_ok_iff.mpr ⟨⟨x, left⟩, hx, ih.mpr ⟨more, by simp, hmore⟩⟩

/-- **Two readers of members that take the same steps gather the same.** They need to
agree only on steps that lead to what is `good`, if nothing good comes of what is not. -/
theorem membersFrom_of_step
    {step step' : α → String → List Char → Except ReadFault (α × List Char)} {good : α → Prop}
    (hstep : ∀ {gathered key text more rest}, step gathered key text = .ok (more, rest) →
      good more → good gathered ∧ step' gathered key text = .ok (more, rest))
    {fuel : Nat} {first : Bool} {gathered result : α}
    (h : membersFrom strict step fuel first gathered text = .ok (result, rest))
    (hgood : good result) :
    good gathered ∧ membersFrom strict step' fuel first gathered text = .ok (result, rest) := by
  induction fuel generalizing first gathered text with
  | zero => cases h
  | succ fuel ih =>
    obtain ⟨next, hnext, h⟩ := bind_eq_ok_iff.mp h
    cases next with
    | none =>
      obtain ⟨left, hclose, h⟩ := bind_eq_ok_iff.mp h
      cases h
      exact ⟨hgood, bind_eq_ok_iff.mpr ⟨none, hnext, bind_eq_ok_iff.mpr ⟨rest, hclose, rfl⟩⟩⟩
    | some found =>
      obtain ⟨key, place⟩ := found
      obtain ⟨⟨more, left⟩, hmore, h⟩ := bind_eq_ok_iff.mp h
      obtain ⟨hgoodMore, hrest⟩ := ih h
      obtain ⟨hgoodGathered, hmore'⟩ := hstep hmore hgoodMore
      refine ⟨hgoodGathered, bind_eq_ok_iff.mpr ⟨some (key, place), hnext, ?_⟩⟩
      exact bind_eq_ok_iff.mpr ⟨(more, left), hmore', hrest⟩

end Json

end Rulebook
