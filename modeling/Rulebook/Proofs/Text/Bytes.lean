import Rulebook.Text.Bytes

/-!
# What the bytes of a text tell

Any bytes tell something, and the bytes of a text tell that text, except that a
character that looks like the mark of a stray byte is told as another one
(`charsOf_bytesOf`). A text without that character is told as it is
(`charsOf_bytesOf_of_notMem`).
-/

namespace Rulebook

/-- A row of parts that are not empty has no fewer items than parts. -/
theorem length_le_length_flatMap {α β : Type} {f : α → List β} (h : ∀ x, f x ≠ [])
    (row : List α) : row.length ≤ (row.flatMap f).length := by
  induction row with
  | nil => exact Nat.le_refl 0
  | cons x row ih =>
    have hpos := List.length_pos_iff.mpr (h x)
    rw [List.flatMap_cons, List.length_append, List.length_cons]
    omega

/-- The bytes of a character begin with that character. -/
theorem leadingChar?_append (c : Char) (rest : List UInt8) :
    leadingChar? (String.utf8EncodeChar c ++ rest) = some c := by
  have hlength : (String.utf8EncodeChar c).length ≤ 4 := by
    rw [String.length_utf8EncodeChar]
    exact c.utf8Size_le_four
  unfold leadingChar?
  rw [List.take_append, List.take_of_length_le hlength, List.toByteArray_append,
    ByteArray.utf8DecodeChar?_utf8EncodeChar_append]

/-- Bytes of a character that has been told are passed over. -/
theorem tellFrom_length_append (told : List Char) (bytes rest : List UInt8) :
    tellFrom bytes.length told (bytes ++ rest) = tellFrom 0 told rest := by
  induction bytes with
  | nil => rfl
  | cons b bytes ih => exact ih

/-- The bytes of a character tell that character. -/
theorem tellFrom_encode_append (told : List Char) (c : Char) (rest : List UInt8) :
    tellFrom 0 told (String.utf8EncodeChar c ++ rest) = tellFrom 0 (toldAs c :: told) rest := by
  obtain ⟨b, bytes, hbytes⟩ := List.exists_cons_of_ne_nil (String.utf8EncodeChar_ne_nil (c := c))
  have hlength : c.utf8Size - 1 = bytes.length := by
    rw [← String.length_utf8EncodeChar, hbytes, List.length_cons, Nat.add_sub_cancel]
  have hlead : leadingChar? (b :: (bytes ++ rest)) = some c := by
    rw [← List.cons_append, ← hbytes, leadingChar?_append]
  rw [hbytes, List.cons_append, tellFrom, hlead]
  show tellFrom (c.utf8Size - 1) (toldAs c :: told) (bytes ++ rest) = _
  rw [hlength, tellFrom_length_append]

theorem tellFrom_bytesOf (told text : List Char) :
    tellFrom 0 told (bytesOf text) = told.reverse ++ text.map toldAs := by
  induction text generalizing told with
  | nil => exact (List.append_nil told.reverse).symm
  | cons c text ih =>
    rw [bytesOf, List.flatMap_cons, tellFrom_encode_append, ← bytesOf, ih, List.reverse_cons,
      List.append_assoc, List.map_cons]
    rfl

/-- **The bytes of a text tell its characters.** -/
theorem charsOf_bytesOf (text : List Char) : charsOf (bytesOf text) = text.map toldAs :=
  tellFrom_bytesOf [] text

/-- **A text without the mark of a stray byte** is told as it is. -/
theorem charsOf_bytesOf_of_notMem {text : List Char} (h : strayMark ∉ text) :
    charsOf (bytesOf text) = text := by
  have htold : ∀ c ∈ text, toldAs c = id c := by
    intro c hc
    refine if_neg fun hmark => h ?_
    rwa [← hmark]
  rw [charsOf_bytesOf, List.map_congr_left htold, List.map_id]

/-- A text has no fewer bytes than characters. -/
theorem length_le_length_bytesOf (text : List Char) : text.length ≤ (bytesOf text).length :=
  length_le_length_flatMap (fun _ => String.utf8EncodeChar_ne_nil) text

end Rulebook
