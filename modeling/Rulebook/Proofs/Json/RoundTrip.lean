import Rulebook.Proofs.Json.Number
import Rulebook.Proofs.Text.Bytes

/-!
# Documents in a text

What is written is read again. For a text this undoes the escapes
(`readBody_stringChars`), for a number it is `readNumber_numberChars`, and for
an array or an object it is one step for each part: a part is taken off, and what
follows is a comma with the next part or the closing bracket.

Three things can keep a document from coming back: a number that cannot be
written, more levels of arrays and objects than the reader allows, and nothing
else. `Json.isWritable` and `Json.nesting` name them, and `read_text` says that
they are all.
-/

namespace Rulebook

namespace Json

/-! ## Texts -/

theorem hexValue?_digitChar {n : Nat} (h : n < 16) : hexValue? n.digitChar = some n := by
  revert n
  decide

/-- Four characters are four bytes at least. -/
theorem hasFourBytes_cons (a b c d : Char) (rest : List Char) :
    hasFourBytes (a :: b :: c :: d :: rest) = true := by
  have ha := a.utf8Size_pos
  have hb := b.utf8Size_pos
  have hc := c.utf8Size_pos
  have hd := d.utf8Size_pos
  refine decide_eq_true ?_
  show 4 ≤ a.utf8Size + (b.utf8Size + (c.utf8Size + (d.utf8Size + 0)))
  omega

section Escapes

variable (strict : Bool) {c : Char} {d : Nat}

/-- One more digit of an escape, more being to come. -/
theorem textBody_digit (h : hexValue? c = some d) (left value : Nat) (high : Option Nat)
    (read rest : List Char) :
    textBody strict (.digits (left + 1) value high) read (c :: rest)
      = textBody strict (.digits left (16 * value + d) high) read rest := by
  rw [textBody, h]

/-- The last digit of an escape. -/
theorem textBody_lastDigit (h : hexValue? c = some d) {value : Nat} {high : Option Nat}
    {state : TextState} {meant : List Char}
    (hafter : afterDigits strict (16 * value + d) high = .ok (state, meant))
    (read rest : List Char) :
    textBody strict (.digits 0 value high) read (c :: rest)
      = textBody strict state (meant ++ read) rest := by
  rw [textBody, h]
  dsimp only
  rw [hafter]

/-- A unit that is no half of a pair is a character of its own. -/
theorem afterDigits_of_lt (h : c.toNat < 0x20) :
    afterDigits strict c.toNat none = .ok (.plain, [c]) := by
  have hhigh : isHighHalf c.toNat = false := by
    rw [isHighHalf, decide_eq_false (by omega), Bool.false_and]
  have hlow : isLowHalf c.toNat = false := by
    rw [isLowHalf, decide_eq_false (by omega), Bool.false_and]
  rw [afterDigits, hhigh, hlow, if_neg Bool.false_ne_true, if_neg Bool.false_ne_true,
    Char.ofNat_toNat]

/-- A control character is escaped by its four digits. -/
theorem textBody_digits (read : List Char) (h : c.toNat < 0x20) (rest : List Char) :
    textBody strict .plain read ('\\' :: 'u' :: '0' :: '0' :: Nat.digitChar (c.toNat / 16)
      :: Nat.digitChar (c.toNat % 16) :: rest) = textBody strict .plain (c :: read) rest := by
  have hzero : hexValue? '0' = some 0 := rfl
  have hfirst := hexValue?_digitChar (n := c.toNat / 16) (by omega)
  have hsecond := hexValue?_digitChar (n := c.toNat % 16) (by omega)
  have hvalue : 16 * (16 * (16 * (16 * 0 + 0) + 0) + c.toNat / 16) + c.toNat % 16 = c.toNat := by
    omega
  have hafter := afterDigits_of_lt strict h
  rw [← hvalue] at hafter
  show (if hasFourBytes _ then _ else _) = _
  rw [hasFourBytes_cons, if_pos rfl, textBody_digit strict hzero, textBody_digit strict hzero,
    textBody_digit strict hfirst, textBody_lastDigit strict hsecond hafter]
  rfl

end Escapes

/-- **A character is read as it was written**, escaped or not. -/
theorem textBody_escapedChar (strict : Bool) (read : List Char) (c : Char) (rest : List Char) :
    textBody strict .plain read (escapedChar c ++ rest)
      = textBody strict .plain (c :: read) rest := by
  unfold escapedChar
  split
  -- the escapes with a letter of their own are read by computing
  all_goals try rfl
  rename_i hquote hbackslash _ _ _ _ _
  split
  · rename_i hcontrol
    exact textBody_digits strict read hcontrol rest
  · rename_i hcontrol
    have hspace : ¬ c < ' ' := fun h => hcontrol h
    show (if c = '"' then _ else if c = '\\' then _ else if c < ' ' then _ else _) = _
    rw [if_neg hquote, if_neg hbackslash, if_neg hspace]
    rfl

theorem textBody_flatMap (strict : Bool) (read text rest : List Char) :
    textBody strict .plain read (text.flatMap escapedChar ++ '"' :: rest)
      = .ok (String.ofList (read.reverse ++ text), rest) := by
  induction text generalizing read with
  | nil =>
    rw [List.append_nil]
    rfl
  | cons c text ih =>
    rw [List.flatMap_cons, List.append_assoc, textBody_escapedChar, ih, List.reverse_cons,
      List.append_assoc]
    rfl

/-- **A text is read as it was written.** -/
theorem readBody_stringChars (strict : Bool) (s : String) (rest : List Char) :
    readBody strict (s.toList.flatMap escapedChar ++ '"' :: rest) = .ok (s, rest) := by
  rw [readBody, textBody_flatMap, List.reverse_nil, List.nil_append, String.ofList_toList]

/-- A text that has to be one is read as it was written. -/
theorem textAt_chars (s : String) (rest : List Char) :
    textAt ((Json.string s).chars ++ rest) = .ok (s, rest) := by
  rw [chars, stringChars, List.cons_append, List.cons_append, List.append_assoc]
  exact readBody_stringChars true s rest

/-! ## What is read as a document -/

mutual

/-- **Whether a document can be written**: every number in it can be. -/
def isWritable : Json → Bool
  | .number n => n.isWritable
  | .array items => itemsWritable items
  | .object members => membersWritable members
  | .null => true
  | .bool _ => true
  | .string _ => true

/-- Whether all items can be written. -/
def itemsWritable : List Json → Bool
  | [] => true
  | item :: items => item.isWritable && itemsWritable items

/-- Whether the values of all members can be written. -/
def membersWritable : List (String × Json) → Bool
  | [] => true
  | (_, value) :: members => value.isWritable && membersWritable members

end

mutual

/-- **How deep the arrays and objects of a document are nested.** -/
def nesting : Json → Nat
  | .array items => itemsNesting items + 1
  | .object members => membersNesting members + 1
  | .null => 0
  | .bool _ => 0
  | .number _ => 0
  | .string _ => 0

/-- The nesting of the deepest item. -/
def itemsNesting : List Json → Nat
  | [] => 0
  | item :: items => max item.nesting (itemsNesting items)

/-- The nesting of the deepest value of a member. -/
def membersNesting : List (String × Json) → Nat
  | [] => 0
  | (_, value) :: members => max value.nesting (membersNesting members)

end

theorem isWritable_of_mem_items {items : List Json} {doc : Json} (h : itemsWritable items)
    (hdoc : doc ∈ items) : doc.isWritable := by
  induction items with
  | nil => cases hdoc
  | cons item items ih =>
    rw [itemsWritable, Bool.and_eq_true] at h
    obtain rfl | hdoc := List.mem_cons.mp hdoc
    · exact h.1
    · exact ih h.2 hdoc

theorem nesting_le_of_mem_items {items : List Json} {doc : Json} (hdoc : doc ∈ items) :
    doc.nesting ≤ itemsNesting items := by
  induction items with
  | nil => cases hdoc
  | cons item items ih =>
    rw [itemsNesting]
    obtain rfl | hdoc := List.mem_cons.mp hdoc
    · exact Nat.le_max_left _ _
    · exact Nat.le_trans (ih hdoc) (Nat.le_max_right _ _)

theorem isWritable_of_mem_members {members : List (String × Json)} {member : String × Json}
    (h : membersWritable members) (hmember : member ∈ members) : member.2.isWritable := by
  induction members with
  | nil => cases hmember
  | cons first members ih =>
    rw [membersWritable, Bool.and_eq_true] at h
    obtain rfl | hmember := List.mem_cons.mp hmember
    · exact h.1
    · exact ih h.2 hmember

theorem nesting_le_of_mem_members {members : List (String × Json)} {member : String × Json}
    (hmember : member ∈ members) : member.2.nesting ≤ membersNesting members := by
  induction members with
  | nil => cases hmember
  | cons first members ih =>
    rw [membersNesting]
    obtain rfl | hmember := List.mem_cons.mp hmember
    · exact Nat.le_max_left _ _
    · exact Nat.le_trans (ih hmember) (Nat.le_max_right _ _)

/-! ## The parts of a document -/

theorem skipGap_cons {c : Char} (h : isGap c = false) (rest : List Char) :
    skipGap (c :: rest) = c :: rest :=
  dropWhile_cons_of_eq_false h rest

theorem numberEnd_cons {c : Char} (h : c.isDigit = false ∧ c ≠ '.' ∧ c ≠ 'e' ∧ c ≠ 'E')
    (rest : List Char) : NumberEnd (c :: rest) := by
  intro d hd
  rw [List.head?_cons, Option.mem_some_iff] at hd
  exact hd ▸ h

/-- The first part, and a comma before each of the others. -/
theorem separated_cons (part : List Char) (parts : List (List Char)) :
    separated (part :: parts) = part ++ parts.flatMap (',' :: ·) := by
  induction parts generalizing part with
  | nil => exact (List.append_nil part).symm
  | cons next parts ih =>
    show part ++ ',' :: separated (next :: parts) = _
    rw [ih]
    rfl

theorem itemChars_eq_map (items : List Json) : itemChars items = items.map chars := by
  induction items with
  | nil => rfl
  | cons item items ih => rw [itemChars, ih, List.map_cons]

/-- The characters of a member. -/
def entryChars (member : String × Json) : List Char :=
  stringChars member.1 ++ ':' :: member.2.chars

theorem memberChars_eq_map (members : List (String × Json)) :
    memberChars members = members.map entryChars := by
  induction members with
  | nil => rfl
  | cons member members ih =>
    obtain ⟨key, value⟩ := member
    rw [memberChars, ih, List.map_cons]
    rfl

/-- A number begins with a minus sign or with a digit. -/
theorem exists_numberChars_eq_cons {n : JsonNumber} (h : n.isWritable) :
    ∃ c more, numberChars n = c :: more ∧ (c = '-' ∨ c.isDigit) := by
  obtain ⟨s, hchars, -⟩ := exists_spelling h
  obtain ⟨c, digits, hrow⟩ := List.exists_cons_of_ne_nil s.whole.nonempty
  have hc := s.whole.isDigit c (hrow ▸ List.mem_cons_self)
  rw [← hchars, chars_eq_sign_append, Spelling.unsignedChars, hrow]
  cases s.negative with
  | true => exact ⟨'-', _, rfl, .inl rfl⟩
  | false => exact ⟨c, _, rfl, .inr hc⟩

theorem isGap_of_number {c : Char} (h : c = '-' ∨ c.isDigit) : isGap c = false := by
  refine Bool.eq_false_iff.mpr fun hgap => ?_
  simp only [isGap, Bool.or_eq_true, beq_iff_eq] at hgap
  obtain ((rfl | rfl) | rfl) | rfl := hgap
  all_goals exact absurd h (by decide)

/-- What a document begins with: no gap, and no closing bracket. -/
theorem exists_chars_eq_cons {doc : Json} (h : doc.isWritable) :
    ∃ c more, doc.chars = c :: more ∧ isGap c = false ∧ c ≠ ']' := by
  cases doc with
  | null => exact ⟨'n', _, rfl, by decide, by decide⟩
  | bool b =>
    cases b
    · exact ⟨'f', _, rfl, by decide, by decide⟩
    · exact ⟨'t', _, rfl, by decide, by decide⟩
  | number n =>
    obtain ⟨c, more, hmore, hc⟩ := exists_numberChars_eq_cons h
    refine ⟨c, more, hmore, isGap_of_number hc, ?_⟩
    rintro rfl
    exact absurd hc (by decide)
  | string s => exact ⟨'"', _, rfl, by decide, by decide⟩
  | array items => exact ⟨'[', _, rfl, by decide, by decide⟩
  | object members => exact ⟨'\x7b', _, rfl, by decide, by decide⟩

theorem readValue_number {n : JsonNumber} (h : n.isWritable) (strict : Bool) (depth : Nat)
    {rest : List Char} (hrest : NumberEnd rest) :
    readValue strict depth (numberChars n ++ rest) = .ok (.number n, rest) := by
  obtain ⟨c, more, hmore, hc⟩ := exists_numberChars_eq_cons h
  have hread := readNumber_numberChars h strict hrest
  rw [hmore, List.cons_append] at hread ⊢
  rw [readValue.eq_def]
  dsimp only
  rw [skipGap_cons (isGap_of_number hc)]
  split
  all_goals rename_i heq
  all_goals cases heq
  all_goals try exact absurd hc (by decide)
  rw [if_pos hc, hread]
  rfl

theorem readValue_string (strict : Bool) (depth : Nat) (s : String) (rest : List Char) :
    readValue strict depth (stringChars s ++ rest) = .ok (.string s, rest) := by
  rw [readValue.eq_def]
  show (readBody strict (s.toList.flatMap escapedChar ++ ['"'] ++ rest) >>= _) = _
  rw [List.append_assoc]
  show (readBody strict (s.toList.flatMap escapedChar ++ '"' :: rest) >>= _) = _
  rw [readBody_stringChars]
  rfl

/-! ## Arrays and objects -/

/-- What follows a part ends a number: a comma or the closing bracket. -/
theorem numberEnd_tail (parts : List (List Char)) {close : Char}
    (hclose : close = ']' ∨ close = '\x7d') (rest : List Char) :
    NumberEnd (parts.flatMap (',' :: ·) ++ close :: rest) := by
  cases parts with
  | nil =>
    refine numberEnd_cons ?_ rest
    obtain rfl | rfl := hclose <;> decide
  | cons part parts => exact numberEnd_cons (by decide) _

/-- **That a reader takes a document off a text** as it was written. -/
def ReadsBack (item : List Char → Except ReadFault (Json × List Char)) (doc : Json) : Prop :=
  ∀ rest, NumberEnd rest → item (doc.chars ++ rest) = .ok (doc, rest)

theorem nextItem_true {c : Char} (hgap : isGap c = false) (hc : c ≠ ']') (more : List Char) :
    nextItem true (c :: more) = .ok (some (c :: more)) := by
  unfold nextItem
  rw [skipGap_cons hgap]
  split
  · rename_i heq
    cases heq
  · rename_i heq
    cases heq
    exact absurd rfl hc
  · rename_i heq
    cases heq
    rfl

theorem nextItem_comma {c : Char} (hgap : isGap c = false) (hc : c ≠ ']') (more : List Char) :
    nextItem false (',' :: c :: more) = .ok (some (c :: more)) := by
  rw [nextItem, skipGap_cons (by decide : isGap ',' = false)]
  split
  · rename_i heq
    cases heq
  · rename_i heq
    cases heq
  · rename_i heq
    cases heq
    rw [if_neg Bool.false_ne_true, if_pos rfl, skipGap_cons hgap]
    split
    · rename_i heq
      cases heq
    · rename_i heq
      cases heq
      exact absurd rfl hc
    · rfl

/-- The items behind the first are read up to the bracket, each behind its comma. -/
theorem itemsFrom_tail {item : List Char → Except ReadFault (Json × List Char)}
    {items : List Json} (hwritable : ∀ doc ∈ items, doc.isWritable)
    (hitems : ∀ doc ∈ items, ReadsBack item doc) {fuel : Nat} (hfuel : items.length < fuel)
    (read : List Json) (rest : List Char) :
    itemsFrom item fuel false read ((items.map chars).flatMap (',' :: ·) ++ ']' :: rest)
      = .ok (read.reverse ++ items, rest) := by
  induction items generalizing fuel read with
  | nil =>
    obtain ⟨fuel, rfl⟩ := Nat.exists_eq_succ_of_ne_zero (Nat.ne_zero_of_lt hfuel)
    rw [List.append_nil]
    rfl
  | cons doc items ih =>
    obtain ⟨fuel, rfl⟩ := Nat.exists_eq_succ_of_ne_zero (Nat.ne_zero_of_lt hfuel)
    obtain ⟨c, more, hmore, hgap, hc⟩ := exists_chars_eq_cons (hwritable doc List.mem_cons_self)
    have hread := hitems doc List.mem_cons_self _
      (numberEnd_tail (items.map chars) (.inl rfl) rest)
    have hnext := nextItem_comma hgap hc
      (more ++ ((items.map chars).flatMap (',' :: ·) ++ ']' :: rest))
    rw [← List.cons_append, ← hmore] at hnext
    rw [List.map_cons, List.flatMap_cons, List.append_assoc]
    show (nextItem false (',' :: (doc.chars ++ _)) >>= _) = _
    rw [hnext]
    show (item (doc.chars ++ _) >>= _) = _
    rw [hread]
    show itemsFrom item fuel false (doc :: read) _ = _
    rw [ih (fun d hd => hwritable d (List.mem_cons_of_mem _ hd))
      (fun d hd => hitems d (List.mem_cons_of_mem _ hd)) (Nat.lt_of_succ_lt_succ hfuel),
      List.reverse_cons, List.append_assoc]
    rfl

/-- **The items of an array are read as they were written.** -/
theorem readItems_separated {item : List Char → Except ReadFault (Json × List Char)}
    {items : List Json} (hwritable : ∀ doc ∈ items, doc.isWritable)
    (hitems : ∀ doc ∈ items, ReadsBack item doc) (rest : List Char) :
    readItems item (separated (itemChars items) ++ ']' :: rest) = .ok (items, rest) := by
  unfold readItems
  cases items with
  | nil => rfl
  | cons doc items =>
    obtain ⟨c, more, hmore, hgap, hc⟩ := exists_chars_eq_cons (hwritable doc List.mem_cons_self)
    have hread := hitems doc List.mem_cons_self _
      (numberEnd_tail (items.map chars) (.inl rfl) rest)
    have hnext := nextItem_true hgap hc
      (more ++ ((items.map chars).flatMap (',' :: ·) ++ ']' :: rest))
    rw [← List.cons_append, ← hmore] at hnext
    rw [itemChars_eq_map, List.map_cons, separated_cons, List.append_assoc]
    show (nextItem true (doc.chars ++ _) >>= _) = _
    rw [hnext]
    show (item (doc.chars ++ _) >>= _) = _
    rw [hread]
    show itemsFrom item _ false [doc] _ = _
    -- the budget is the length of the text, and every item has a character at least
    refine itemsFrom_tail (fun d hd => hwritable d (List.mem_cons_of_mem _ hd))
      (fun d hd => hitems d (List.mem_cons_of_mem _ hd)) ?_ [doc] rest
    have hlength : (items.map chars).length ≤ ((items.map chars).flatMap (',' :: ·)).length :=
      length_le_length_flatMap (List.cons_ne_nil ',') _
    rw [List.length_map] at hlength
    rw [hmore, List.length_append, List.length_append, List.length_cons]
    omega

/-- **What a reader of members gathers**: it takes one member after the other, the
value of each being written behind its colon. -/
inductive Gathers {α : Type} (step : α → String → List Char → Except ReadFault (α × List Char)) :
    α → List (String × Json) → α → Prop
  /-- No member changes nothing. -/
  | none (gathered : α) : Gathers step gathered [] gathered
  /-- One member is taken, and then the others. -/
  | member {gathered result : α} (next : α) {key : String} {value : Json}
      {members : List (String × Json)}
      (hstep : ∀ rest, NumberEnd rest →
        step gathered key (':' :: value.chars ++ rest) = .ok (next, rest))
      (hmembers : Gathers step next members result) :
      Gathers step gathered ((key, value) :: members) result

theorem nextKey_comma (strict : Bool) (key : String) (rest : List Char) :
    nextKey strict false (',' :: (stringChars key ++ rest)) = .ok (some (key, rest)) := by
  show (readBody strict (key.toList.flatMap escapedChar ++ ['"'] ++ rest)).map some = _
  rw [List.append_assoc, List.singleton_append, readBody_stringChars]
  rfl

theorem nextKey_true (strict : Bool) (key : String) (rest : List Char) :
    nextKey strict true (stringChars key ++ rest) = .ok (some (key, rest)) := by
  show (readBody strict (key.toList.flatMap escapedChar ++ ['"'] ++ rest)).map some = _
  rw [List.append_assoc, List.singleton_append, readBody_stringChars]
  rfl

section Members

variable {α : Type} {strict : Bool}
  {step : α → String → List Char → Except ReadFault (α × List Char)}

/-- The members behind the first are gathered up to the brace. -/
theorem membersFrom_tail {members : List (String × Json)} {gathered result : α}
    (h : Gathers step gathered members result) {fuel : Nat} (hfuel : members.length < fuel)
    (rest : List Char) :
    membersFrom strict step fuel false gathered
      ((members.map entryChars).flatMap (',' :: ·) ++ '\x7d' :: rest) = .ok (result, rest) := by
  induction h generalizing fuel with
  | none gathered =>
    obtain ⟨fuel, rfl⟩ := Nat.exists_eq_succ_of_ne_zero (Nat.ne_zero_of_lt hfuel)
    rw [List.map_nil, List.flatMap_nil]
    rfl
  | @member gathered result next key value members hstep hmembers ih =>
    obtain ⟨fuel, rfl⟩ := Nat.exists_eq_succ_of_ne_zero (Nat.ne_zero_of_lt hfuel)
    have hread := hstep _ (numberEnd_tail (members.map entryChars) (.inr rfl) rest)
    rw [List.map_cons, List.flatMap_cons, List.append_assoc]
    show (nextKey strict false (',' :: (stringChars key ++ ':' :: value.chars ++ _)) >>= _) = _
    rw [List.append_assoc, nextKey_comma]
    show (step gathered key (':' :: value.chars ++ _) >>= _) = _
    rw [hread]
    exact ih (Nat.lt_of_succ_lt_succ hfuel)

/-- **The members of an object are gathered as they were written.** -/
theorem gatherMembers_separated {members : List (String × Json)} {gathered result : α}
    (h : Gathers step gathered members result) (rest : List Char) :
    gatherMembers strict step gathered (separated (memberChars members) ++ '\x7d' :: rest)
      = .ok (result, rest) := by
  unfold gatherMembers
  cases h with
  | none => rfl
  | @member gathered result next key value members hstep hmembers =>
    have hread := hstep _ (numberEnd_tail (members.map entryChars) (.inr rfl) rest)
    rw [memberChars_eq_map, List.map_cons, separated_cons, List.append_assoc]
    show (nextKey strict true (stringChars key ++ ':' :: value.chars ++ _) >>= _) = _
    rw [List.append_assoc, nextKey_true]
    show (step gathered key (':' :: value.chars ++ _) >>= _) = _
    rw [hread]
    refine membersFrom_tail hmembers ?_ rest
    have hlength : (members.map entryChars).length
        ≤ ((members.map entryChars).flatMap (',' :: ·)).length :=
      length_le_length_flatMap (List.cons_ne_nil ',') _
    rw [List.length_map] at hlength
    rw [List.length_append, List.length_append, entryChars, List.length_append, List.length_cons]
    omega

end Members

section Members

variable {value : List Char → Except ReadFault (Json × List Char)}

/-- A member whose value is read back is put before those already read. -/
theorem keepMember_chars {doc : Json} (h : ReadsBack value doc) (read : List (String × Json))
    (key : String) {rest : List Char} (hrest : NumberEnd rest) :
    keepMember value read key (':' :: doc.chars ++ rest) = .ok ((key, doc) :: read, rest) := by
  show (value (doc.chars ++ rest) >>= _) = _
  rw [h rest hrest]
  rfl

/-- A plain reader gathers the members one by one, the last one first. -/
theorem gathers_keepMember {members : List (String × Json)}
    (hmembers : ∀ member ∈ members, ReadsBack value member.2) (read : List (String × Json)) :
    Gathers (keepMember value) read members (members.reverse ++ read) := by
  induction members generalizing read with
  | nil => exact .none read
  | cons first members ih =>
    rw [List.reverse_cons, List.append_assoc]
    refine .member (first :: read) ?_
      (ih (fun m hm => hmembers m (List.mem_cons_of_mem _ hm)) (first :: read))
    intro rest hrest
    exact keepMember_chars (hmembers first List.mem_cons_self) read first.1 hrest

theorem readMembers_separated {members : List (String × Json)}
    (hmembers : ∀ member ∈ members, ReadsBack value member.2) (strict : Bool)
    (rest : List Char) :
    readMembers strict value (separated (memberChars members) ++ '\x7d' :: rest)
      = .ok (members, rest) := by
  rw [readMembers, gatherMembers_separated (gathers_keepMember hmembers [])]
  show Except.ok ((members.reverse ++ []).reverse, rest) = _
  rw [List.append_nil, List.reverse_reverse]

end Members

/-- **A document is read as it was written**, if it can be written and is not
nested too deep. -/
theorem readValue_chars (strict : Bool) {doc : Json} (hwritable : doc.isWritable) {depth : Nat}
    (hdepth : doc.nesting ≤ depth) : ReadsBack (readValue strict depth) doc := by
  intro rest hrest
  -- the reader recurses on the depth that is left, and so does the proof; at depth zero
  -- there is no array and no object
  induction depth generalizing doc rest with
  | zero =>
    cases doc with
    | null => rfl
    | bool b => cases b <;> rfl
    | number n => exact readValue_number hwritable strict 0 hrest
    | string s => exact readValue_string strict 0 s rest
    | array items => exact absurd hdepth (Nat.not_succ_le_zero _)
    | object members => exact absurd hdepth (Nat.not_succ_le_zero _)
  | succ depth ih =>
    cases doc with
    | null => rfl
    | bool b => cases b <;> rfl
    | number n => exact readValue_number hwritable strict _ hrest
    | string s => exact readValue_string strict _ s rest
    | array items =>
      rw [isWritable] at hwritable
      rw [nesting] at hdepth
      have hitems : ∀ doc ∈ items, doc.isWritable := fun _ => isWritable_of_mem_items hwritable
      rw [chars, List.cons_append, List.cons_append, List.append_assoc]
      show (readItems (readValue strict depth) (separated (itemChars items) ++ ']' :: rest) >>= _)
        = _
      rw [readItems_separated hitems]
      · rfl
      · intro doc hdoc rest hrest
        have hle := nesting_le_of_mem_items hdoc
        exact ih (hitems doc hdoc) (by omega) rest hrest
    | object members =>
      rw [isWritable] at hwritable
      rw [nesting] at hdepth
      rw [chars, List.cons_append, List.cons_append, List.append_assoc]
      show (readMembers strict (readValue strict depth)
        (separated (memberChars members) ++ '\x7d' :: rest) >>= _) = _
      rw [readMembers_separated]
      · rfl
      · intro member hmember rest hrest
        have hle := nesting_le_of_mem_members hmember
        exact ih (isWritable_of_mem_members hwritable hmember) (by omega) rest hrest

/-- **The text of a document is read as the document.** -/
theorem read_text {doc : Json} (hwritable : doc.isWritable) (hdepth : doc.nesting ≤ nestingLimit) :
    read doc.text = .ok doc := by
  have hread := readValue_chars true hwritable hdepth [] (fun c hc => by cases hc)
  rw [List.append_nil] at hread
  unfold read text
  rw [String.toList_ofList, hread]
  rfl

end Json

end Rulebook
