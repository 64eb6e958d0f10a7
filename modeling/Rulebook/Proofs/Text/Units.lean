import Rulebook.Text.Units

/-!
# Units tell texts apart

The order of texts is read off their sixteen-bit units, so two different texts
could only be equal in it if they had the same units. They never have: a
character up to `U+FFFF` is its own unit, the first unit of a pair is a number
that no character has, and the two units of a pair say which character it was
(`unitsOfChar_append_inj`). So nothing but a text itself stands equal to it
(`unitOrder_eq_iff`).

The order of two rows of units is the lexicographic order of lists that the
standard library has (`rowOrder_eq_compare`), and inherits its laws.
-/

namespace Rulebook

/-- **The order of rows is the order of lists.** -/
theorem rowOrder_eq_compare (as bs : List Nat) : rowOrder as bs = compare as bs := by
  induction as generalizing bs with
  | nil => cases bs <;> rfl
  | cons a as ih =>
    cases bs with
    | nil => rfl
    | cons b bs => rw [rowOrder, ih, List.compare_cons_cons]

/-- **The units of a character come off the front of a row** in one way only. -/
theorem unitsOfChar_append_inj {c d : Char} {us vs : List Nat}
    (h : unitsOfChar c ++ us = unitsOfChar d ++ vs) : c = d ∧ us = vs := by
  have hc : c.toNat < 0xD800 ∨ 0xDFFF < c.toNat ∧ c.toNat < 0x110000 := c.valid
  have hd : d.toNat < 0xD800 ∨ 0xDFFF < d.toNat ∧ d.toNat < 0x110000 := d.valid
  rw [← Char.toNat_inj]
  -- a single unit is below the pairs or above them, so the first unit tells the two forms
  -- apart
  simp only [unitsOfChar] at h
  split at h <;> split at h <;>
    simp only [List.cons_append, List.nil_append, List.cons.injEq] at h
  · exact h
  · omega
  · omega
  · exact ⟨by omega, h.2.2⟩

theorem unitsOfChar_ne_nil (c : Char) : unitsOfChar c ≠ [] := by
  simp only [unitsOfChar]
  split <;> simp

/-- **A text is told by its units.** -/
theorem units_injective : Function.Injective units := by
  intro as bs h
  induction as generalizing bs with
  | nil =>
    cases bs with
    | nil => rfl
    | cons b bs => simp [units, unitsOfChar_ne_nil] at h
  | cons a as ih =>
    cases bs with
    | nil => simp [units, unitsOfChar_ne_nil] at h
    | cons b bs =>
      have hunits : unitsOfChar a ++ units as = unitsOfChar b ++ units bs := h
      obtain ⟨rfl, hrest⟩ := unitsOfChar_append_inj hunits
      rw [ih hrest]

/-- **Only a text itself stands equal to it.** -/
theorem unitOrder_eq_iff {a b : String} : unitOrder a b = .eq ↔ a = b := by
  rw [unitOrder, rowOrder_eq_compare, Std.compare_eq_iff_eq, units_injective.eq_iff,
    String.toList_inj]

end Rulebook
