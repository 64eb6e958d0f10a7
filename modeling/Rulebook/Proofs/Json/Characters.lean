import Rulebook.Proofs.Json.RoundTrip

/-!
# The characters of a document

A document is written without control characters: a text escapes those that it
holds, and nothing else that is written has any (`isPlain_chars`).
-/

namespace Rulebook

/-- **Whether a text holds no control character** below the space. -/
def isPlain (text : List Char) : Bool := text.all fun c => 0x20 ≤ c.toNat

theorem isPlain_cons {c : Char} {text : List Char} :
    isPlain (c :: text) ↔ 0x20 ≤ c.toNat ∧ isPlain text := by
  rw [isPlain, List.all_cons, Bool.and_eq_true, decide_eq_true_iff]
  rfl

theorem isPlain_append {text more : List Char} :
    isPlain (text ++ more) ↔ isPlain text ∧ isPlain more := by
  rw [isPlain, List.all_append, Bool.and_eq_true]
  rfl

theorem isPlain_flatMap {α : Type} {f : α → List Char} {row : List α}
    (h : ∀ x ∈ row, isPlain (f x)) : isPlain (row.flatMap f) := by
  rw [isPlain, List.all_flatMap, List.all_eq_true]
  exact h

/-- A control character is not in a text that holds none. -/
theorem notMem_of_isPlain {c : Char} {text : List Char} (h : isPlain text)
    (hc : c.toNat < 0x20) : c ∉ text := fun hmem =>
  Nat.not_le_of_lt hc (of_decide_eq_true (List.all_eq_true.mp h c hmem))

namespace Json

/-! ## Texts -/

theorem toNat_digitChar_ge {n : Nat} (h : n < 16) : 0x20 ≤ n.digitChar.toNat := by
  revert n
  decide

/-- What is written for a character holds no control character. -/
theorem isPlain_escapedChar (c : Char) : isPlain (escapedChar c) := by
  unfold escapedChar
  split
  iterate 7 · rfl
  · split
    · rename_i hcontrol
      have hhigh := toNat_digitChar_ge (n := c.toNat / 16) (by omega)
      have hlow := toNat_digitChar_ge (n := c.toNat % 16) (by omega)
      have hdigits : isPlain [Nat.digitChar (c.toNat / 16), Nat.digitChar (c.toNat % 16)] :=
        isPlain_cons.mpr ⟨hhigh, isPlain_cons.mpr ⟨hlow, rfl⟩⟩
      have hmark : isPlain ['\\', 'u', '0', '0'] := rfl
      exact isPlain_append.mpr ⟨hmark, hdigits⟩
    · rename_i hcontrol
      exact isPlain_cons.mpr ⟨Nat.le_of_not_lt hcontrol, rfl⟩

/-- Something is written for every character. -/
theorem escapedChar_ne_nil (c : Char) : escapedChar c ≠ [] := by
  unfold escapedChar
  split
  iterate 7 · exact List.cons_ne_nil _ _
  · split <;> exact List.cons_ne_nil _ _

/-- A text is written with its quotes, and with one character at least for each of its own. -/
theorem length_stringChars_ge (s : String) : s.toList.length + 2 ≤ (stringChars s).length := by
  have hescaped := length_le_length_flatMap escapedChar_ne_nil s.toList
  rw [stringChars, List.length_append, List.length_cons, List.length_singleton]
  omega

theorem isPlain_stringChars (s : String) : isPlain (stringChars s) := by
  rw [stringChars, List.cons_append, isPlain_cons, isPlain_append]
  exact ⟨by decide, isPlain_flatMap fun c _ => isPlain_escapedChar c, rfl⟩

/-! ## Numbers -/

theorem isPlain_of_isDigit {text : List Char} (h : ∀ c ∈ text, c.isDigit) : isPlain text :=
  List.all_eq_true.mpr fun c hc =>
    decide_eq_true (Nat.le_trans (by decide) (toNat_of_isDigit (h c hc)).1)

theorem isPlain_exponentChars (exponent : Option Int) :
    isPlain (Spelling.exponentChars exponent) := by
  cases exponent with
  | none => rfl
  | some e =>
    have hdigits : isPlain (Nat.toDigits 10 e.natAbs) :=
      isPlain_of_isDigit fun _ => isDigit_of_mem_toDigits
    rw [Spelling.exponentChars, isPlain_cons, isPlain_cons]
    refine ⟨by decide, ?_, hdigits⟩
    split <;> decide

theorem isPlain_fractionChars (fraction : Option DigitRow) :
    isPlain (Spelling.fractionChars fraction) := by
  cases fraction with
  | none => rfl
  | some places => exact isPlain_cons.mpr ⟨by decide, isPlain_of_isDigit places.isDigit⟩

theorem isPlain_numberChars {n : JsonNumber} (h : n.isWritable) : isPlain (numberChars n) := by
  obtain ⟨s, hchars, -⟩ := exists_spelling h
  rw [← hchars, chars_eq_sign_append, Spelling.unsignedChars, isPlain_append, isPlain_append,
    isPlain_append]
  refine ⟨?_, isPlain_of_isDigit s.whole.isDigit, isPlain_fractionChars _,
    isPlain_exponentChars _⟩
  cases s.negative <;> rfl

/-! ## Documents -/

/-- Parts with commas between them hold no control character if the parts do not. -/
theorem isPlain_separated {parts : List (List Char)} (h : ∀ part ∈ parts, isPlain part) :
    isPlain (separated parts) := by
  cases parts with
  | nil => rfl
  | cons part parts =>
    rw [separated_cons, isPlain_append]
    refine ⟨h part List.mem_cons_self, isPlain_flatMap fun next hnext => ?_⟩
    exact isPlain_cons.mpr ⟨by decide, h next (List.mem_cons_of_mem part hnext)⟩

/-- Brackets around such a text do not change that. -/
theorem isPlain_enclosed {first last : Char} {text : List Char} (hfirst : 0x20 ≤ first.toNat)
    (hlast : 0x20 ≤ last.toNat) (h : isPlain text) : isPlain (first :: text ++ [last]) := by
  rw [List.cons_append, isPlain_cons, isPlain_append]
  exact ⟨hfirst, h, isPlain_cons.mpr ⟨hlast, rfl⟩⟩

mutual

/-- **A document is written without control characters.** -/
theorem isPlain_chars : (doc : Json) → doc.isWritable → isPlain doc.chars
  | .null, _ => rfl
  | .bool true, _ => rfl
  | .bool false, _ => rfl
  | .number _, h => isPlain_numberChars h
  | .string s, _ => isPlain_stringChars s
  | .array items, h =>
    isPlain_enclosed (by decide) (by decide) (isPlain_separated (isPlain_itemChars items h))
  | .object members, h =>
    isPlain_enclosed (by decide) (by decide) (isPlain_separated (isPlain_memberChars members h))

theorem isPlain_itemChars : (items : List Json) → itemsWritable items →
    ∀ part ∈ itemChars items, isPlain part
  | [], _ => nofun
  | item :: items, h => by
    rw [itemsWritable, Bool.and_eq_true] at h
    rw [itemChars, List.forall_mem_cons]
    exact ⟨isPlain_chars item h.1, isPlain_itemChars items h.2⟩

theorem isPlain_memberChars : (members : List (String × Json)) → membersWritable members →
    ∀ part ∈ memberChars members, isPlain part
  | [], _ => nofun
  | (key, value) :: members, h => by
    rw [membersWritable, Bool.and_eq_true] at h
    rw [memberChars, List.forall_mem_cons, isPlain_append, isPlain_cons]
    exact ⟨⟨isPlain_stringChars key, by decide, isPlain_chars value h.1⟩,
      isPlain_memberChars members h.2⟩

end

end Json

end Rulebook
