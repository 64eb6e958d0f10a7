import Mathlib.Data.String.Basic
import Rulebook.Proofs.Text.Units

/-!
# Texts in the order of their encodings

A text is written down by writing one of its characters after the other, each as a row of
numbers. Two written texts compare as their first different characters do, whatever comes
behind these: `flatMap_lt_flatMap_iff` says that of any encoding in which the rows of two
different characters settle their order.

So an encoding keeps the order of texts exactly if it keeps that of single characters.
Bytes do (`utf8_lt_utf8_iff`). Sixteen-bit units do not. A character from `U+10000` on is
a pair of units that starts between `0xD800` and `0xDBFF`. That is above all single units
but those of `U+E000` to `U+FFFF`, and the characters that have these are below it. Between
two such characters, and no others, the order turns round (`unitsOfChar_append_lt_iff`),
and so it does between texts whose first difference is one of these
(`units_lt_units_iff`).
-/

namespace Rulebook

/-! ## Encodings -/

section Encoding

variable {α : Type}

/-- What two rows begin with in common does not count. -/
theorem lex_append_append_iff {below : α → α → Prop} [Std.Irrefl below] (shared as bs : List α) :
    List.Lex below (shared ++ as) (shared ++ bs) ↔ List.Lex below as bs := by
  induction shared with
  | nil => exact Iff.rfl
  | cons a shared ih => exact List.lex_cons_iff.trans ih

/-- **Written texts compare as their characters do**, one after the other, if the rows of
two different characters settle their order. -/
theorem flatMap_lt_flatMap_iff [LT α] [Std.Irrefl (α := α) (· < ·)] {encode : Char → List α}
    {below : Char → Char → Prop} [Std.Irrefl below] (hne : ∀ c, encode c ≠ [])
    (hbelow : ∀ {c d}, c ≠ d → ∀ us vs, encode c ++ us < encode d ++ vs ↔ below c d)
    (as bs : List Char) :
    as.flatMap encode < bs.flatMap encode ↔ List.Lex below as bs := by
  induction as generalizing bs with
  | nil =>
    cases bs with
    | nil => exact iff_of_false (List.lt_irrefl []) List.not_lex_nil
    | cons d bs =>
      obtain ⟨u, us, hd⟩ := List.exists_cons_of_ne_nil (hne d)
      rw [List.flatMap_cons, hd]
      exact iff_of_true (List.nil_lt_cons _ _) .nil
  | cons c as ih =>
    cases bs with
    | nil => exact iff_of_false (List.not_lt_nil _) List.not_lex_nil
    | cons d bs =>
      rw [List.flatMap_cons, List.flatMap_cons]
      by_cases hcd : c = d
      · subst hcd
        exact (lex_append_append_iff _ _ _).trans ((ih bs).trans List.lex_cons_iff.symm)
      · rw [hbelow hcd, List.cons_lex_cons_iff]
        exact (or_iff_left fun h => hcd h.1).symm

end Encoding

/-! ## Bytes -/

/-- **The bytes of two different characters** are in the order of the characters. -/
theorem utf8EncodeChar_append_lt_iff {c d : Char} (h : c ≠ d) (us vs : List UInt8) :
    String.utf8EncodeChar c ++ us < String.utf8EncodeChar d ++ vs ↔ c < d := by
  have hc : c.val.toNat < 0xD800 ∨ 0xDFFF < c.val.toNat ∧ c.val.toNat < 0x110000 := c.valid
  have hd : d.val.toNat < 0xD800 ∨ 0xDFFF < d.val.toNat ∧ d.val.toNat < 0x110000 := d.valid
  have hne : c.val.toNat ≠ d.val.toNat := mt Char.toNat_inj.mp h
  rw [Char.lt_def, UInt32.lt_iff_toNat_lt]
  simp only [String.utf8EncodeChar]
  -- rows of different lengths are told apart by their first bytes; in rows of one length the
  -- bytes are the digits of the two characters, behind marks that are the same in both
  split_ifs <;>
    simp (disch := omega) only [List.cons_append, List.nil_append, List.cons_lt_cons_iff,
      UInt8.lt_iff_toNat_lt, ← UInt8.toNat_inj, UInt8.toNat_ofNat', Nat.mod_eq_of_lt] <;>
    exact ⟨fun h => by omega, fun h => by omega⟩

/-- **Texts are in the order of their bytes.** -/
theorem utf8_lt_utf8_iff {a b : String} :
    a.toUTF8.data.toList < b.toUTF8.data.toList ↔ a < b := by
  have hbytes (s : String) : s.toUTF8.data.toList = s.toList.flatMap String.utf8EncodeChar := by
    rw [String.toUTF8_eq_toByteArray, ← String.utf8Encode_toList, List.utf8Encode,
      List.toList_data_toByteArray]
  rw [hbytes, hbytes, String.lt_iff_toList_lt]
  exact flatMap_lt_flatMap_iff (fun c => String.utf8EncodeChar_ne_nil)
    utf8EncodeChar_append_lt_iff a.toList b.toList

/-! ## Sixteen-bit units -/

/-- A row is below another in the order of rows if it is below it as a list. -/
theorem rowOrder_eq_lt_iff {as bs : List Nat} : rowOrder as bs = .lt ↔ as < bs := by
  induction as generalizing bs with
  | nil =>
    cases bs with
    | nil => exact iff_of_false Ordering.noConfusion (List.lt_irrefl [])
    | cons b bs => exact iff_of_true rfl (List.nil_lt_cons b bs)
  | cons a as ih =>
    cases bs with
    | nil => exact iff_of_false Ordering.noConfusion (List.not_lt_nil _)
    | cons b bs =>
      rw [rowOrder, Ordering.then_eq_lt, ih, Nat.compare_eq_lt, Nat.compare_eq_eq,
        List.cons_lt_cons_iff]

/-- **A pair below a single unit**: the first character is a pair of units, and the second a
single unit above all pairs. -/
def PairBelow (c d : Char) : Prop := 0x10000 ≤ c.toNat ∧ 0xE000 ≤ d.toNat ∧ d.toNat ≤ 0xFFFF

/-- **Characters between which the order turns round**, when they are taken by their
units. -/
def Turned (c d : Char) : Prop := PairBelow c d ∨ PairBelow d c

/-- **The order of characters by their units.** -/
def UnitBelow (c d : Char) : Prop := (¬ Turned c d ∧ c < d) ∨ (Turned c d ∧ d < c)

instance : Std.Irrefl UnitBelow where
  irrefl c := by simp [UnitBelow]

/-- **The units of two different characters** are in the order of the characters, or in the
other one if the order turns round between these. -/
theorem unitsOfChar_append_lt_iff {c d : Char} (h : c ≠ d) (us vs : List Nat) :
    unitsOfChar c ++ us < unitsOfChar d ++ vs ↔ UnitBelow c d := by
  have hc : c.toNat < 0xD800 ∨ 0xDFFF < c.toNat ∧ c.toNat < 0x110000 := c.valid
  have hd : d.toNat < 0xD800 ∨ 0xDFFF < d.toNat ∧ d.toNat < 0x110000 := d.valid
  have hne : c.toNat ≠ d.toNat := mt Char.toNat_inj.mp h
  have hlt (c d : Char) : c < d ↔ c.toNat < d.toNat := Iff.rfl
  rw [UnitBelow, Turned, PairBelow, PairBelow, hlt, hlt]
  simp only [unitsOfChar]
  split_ifs <;> simp only [List.cons_append, List.nil_append, List.cons_lt_cons_iff] <;>
    exact ⟨fun h => by omega, fun h => by omega⟩

/-- **The first difference** of two texts: behind what they have in common, one goes on with
`c` and the other with a different character `d`. -/
def DifferFirst (as bs : List Char) (c d : Char) : Prop :=
  c ≠ d ∧ ∃ shared as' bs', as = shared ++ c :: as' ∧ bs = shared ++ d :: bs'

/-- **Texts between which the order turns round**, when they are taken by their units. -/
def FirstTurned (as bs : List Char) : Prop := ∃ c d, DifferFirst as bs c d ∧ Turned c d

theorem DifferFirst.cons {as bs : List Char} {c d : Char} (h : DifferFirst as bs c d)
    (shared : Char) : DifferFirst (shared :: as) (shared :: bs) c d := by
  obtain ⟨hne, before, as', bs', rfl, rfl⟩ := h
  exact ⟨hne, shared :: before, as', bs', rfl, rfl⟩

/-- The first difference of two texts decides about their order. -/
theorem DifferFirst.lex_iff {below : Char → Char → Prop} [Std.Irrefl below] {as bs : List Char}
    {c d : Char} (h : DifferFirst as bs c d) : List.Lex below as bs ↔ below c d := by
  obtain ⟨hne, shared, as', bs', rfl, rfl⟩ := h
  rw [lex_append_append_iff, List.cons_lex_cons_iff]
  exact or_iff_left fun h => hne h.1

theorem DifferFirst.ne {as bs : List Char} {c d : Char} (h : DifferFirst as bs c d) : as ≠ bs := by
  obtain ⟨hne, shared, as', bs', rfl, rfl⟩ := h
  exact fun heq => hne (List.cons.inj (List.append_cancel_left heq)).1

theorem DifferFirst.symm {as bs : List Char} {c d : Char} (h : DifferFirst as bs c d) :
    DifferFirst bs as d c := by
  obtain ⟨hne, shared, as', bs', has, hbs⟩ := h
  exact ⟨hne.symm, shared, bs', as', hbs, has⟩

/-- If the order does not turn round at the first difference, it is that of characters. -/
theorem lex_unitBelow_iff {as bs : List Char} (h : ¬ FirstTurned as bs) :
    List.Lex UnitBelow as bs ↔ as < bs := by
  induction as generalizing bs with
  | nil =>
    cases bs with
    | nil => exact iff_of_false List.not_lex_nil (List.lt_irrefl [])
    | cons d bs => exact iff_of_true .nil (List.nil_lt_cons d bs)
  | cons c as ih =>
    cases bs with
    | nil => exact iff_of_false List.not_lex_nil (List.not_lt_nil _)
    | cons d bs =>
      by_cases hcd : c = d
      · subst hcd
        have hrest : ¬ FirstTurned as bs := fun ⟨x, y, hdiffer, hturned⟩ =>
          h ⟨x, y, hdiffer.cons c, hturned⟩
        exact List.lex_cons_iff.trans ((ih hrest).trans List.cons_lt_cons_self.symm)
      · have hdiffer : DifferFirst (c :: as) (d :: bs) c d := ⟨hcd, [], as, bs, rfl, rfl⟩
        have hturned : ¬ Turned c d := fun hturned => h ⟨c, d, hdiffer, hturned⟩
        have hchars : c :: as < d :: bs ↔ c < d := hdiffer.lex_iff
        rw [hdiffer.lex_iff, hchars, UnitBelow]
        simp [hturned]

/-- **Texts are in the order of their units** as they are in the order of their characters,
unless their first difference turns the order round. -/
theorem units_lt_units_iff (as bs : List Char) :
    units as < units bs ↔
      (¬ FirstTurned as bs ∧ as < bs) ∨ (FirstTurned as bs ∧ bs < as) := by
  rw [units, units, flatMap_lt_flatMap_iff unitsOfChar_ne_nil unitsOfChar_append_lt_iff]
  by_cases h : FirstTurned as bs
  · obtain ⟨c, d, hdiffer, hturned⟩ := id h
    have hchars : bs < as ↔ d < c := hdiffer.symm.lex_iff
    rw [hdiffer.lex_iff, hchars, UnitBelow]
    simp [hturned, h]
  · simp [lex_unitBelow_iff h, h]

end Rulebook
