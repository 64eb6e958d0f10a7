import Mathlib.Data.String.Basic
import Rulebook.Http.Message

/-!
# Header values and texts

A header value is a row of bytes, and two checks lie between it and a text. Reading it as a
text takes visible ASCII characters, spaces and tabs only; writing a text takes everything
but control characters. The second check is the wider one, so what was read as a text can
always be written again, and it is written with the same bytes
(`HeaderValue.ofText?_of_text?`).
-/

namespace Rulebook

namespace HeaderValue

/-- An ASCII character is sent as one byte. -/
theorem utf8EncodeChar_of_toNat_lt {c : Char} (h : c.toNat < 128) :
    String.utf8EncodeChar c = [c.val.toUInt8] := by
  refine String.utf8EncodeChar_eq_singleton ?_
  rw [Char.utf8Size_eq_one_iff, UInt32.le_iff_toNat_le]
  exact Nat.le_of_lt_succ h

/-- The byte of an ASCII character is its number. -/
theorem toNat_toUInt8_of_toNat_lt {c : Char} (h : c.toNat < 128) :
    c.val.toUInt8.toNat = c.toNat := by
  rw [UInt32.toNat_toUInt8]
  exact Nat.mod_eq_of_lt (Nat.lt_trans h (by decide))

/-- The character of a byte is sent as that byte. -/
theorem utf8EncodeChar_ofNat {b : UInt8} (h : b.toNat < 128) :
    String.utf8EncodeChar (Char.ofNat b.toNat) = [b] := by
  have hvalid : b.toNat.isValidChar := Or.inl (Nat.lt_trans h (by decide))
  have hchar : (Char.ofNat b.toNat).toNat = b.toNat := by
    rw [Char.ofNat, dif_pos hvalid]
    rfl
  have hlt : (Char.ofNat b.toNat).toNat < 128 := hchar.trans_lt h
  rw [utf8EncodeChar_of_toNat_lt hlt, List.singleton_inj, ← UInt8.toNat_inj,
    toNat_toUInt8_of_toNat_lt hlt, hchar]

theorem toNat_lt_of_isVisibleByte {b : UInt8} (h : isVisibleByte b) : b.toNat < 128 := by
  simp only [isVisibleByte, Bool.or_eq_true, Bool.and_eq_true, decide_eq_true_eq,
    beq_iff_eq, UInt8.le_iff_toNat_le, ← UInt8.toNat_inj] at h
  have hhigh : (0x7e : UInt8).toNat = 126 := rfl
  have htab : (0x09 : UInt8).toNat = 9 := rfl
  omega

/-- What can be read can be written. -/
theorem isSendableByte_of_isVisibleByte {b : UInt8} (h : isVisibleByte b) : isSendableByte b := by
  simp only [isVisibleByte, isSendableByte, Bool.or_eq_true, Bool.and_eq_true, decide_eq_true_eq,
    bne_iff_ne, beq_iff_eq] at h ⊢
  refine h.imp_left fun hrange => ⟨hrange.1, ?_⟩
  rintro rfl
  exact absurd hrange.2 (by decide)

/-- A value that can be read as a text is what that text is sent as. -/
theorem ofText_of_text? {value : HeaderValue} {text : String} (h : value.text? = some text) :
    ofText text = value := by
  obtain ⟨bytes⟩ := value
  unfold text? at h
  split at h
  · rename_i hvisible
    cases h
    rw [List.all_eq_true] at hvisible
    show HeaderValue.mk _ = _
    rw [String.toList_ofList, bytesOf, List.flatMap_map, mk.injEq,
      List.flatMap_congr fun b hb =>
        utf8EncodeChar_ofNat (toNat_lt_of_isVisibleByte (hvisible b hb)),
      List.flatMap_singleton']
  · cases h

/-- **What was read as a text can be written again**, and with the same bytes. -/
theorem ofText?_of_text? {value : HeaderValue} {text : String} (h : value.text? = some text) :
    ofText? text = some value := by
  have hsendable : (ofText text).bytes.all isSendableByte := by
    rw [ofText_of_text? h, List.all_eq_true]
    unfold text? at h
    split at h
    · rename_i hvisible
      exact fun b hb => isSendableByte_of_isVisibleByte (List.all_eq_true.mp hvisible b hb)
    · cases h
  unfold ofText?
  dsimp only
  rw [if_pos hsendable, ofText_of_text? h]

/-- A value can be read as a text exactly if all its bytes are visible. -/
theorem isSome_text?_iff {value : HeaderValue} :
    value.text?.isSome ↔ ∀ b ∈ value.bytes, isVisibleByte b := by
  unfold text?
  split
  · rename_i h
    exact iff_of_true rfl (List.all_eq_true.mp h)
  · rename_i h
    exact iff_of_false Bool.false_ne_true fun hall => h (List.all_eq_true.mpr hall)

/-- A text may be sent as what it is sent as, and as nothing else. -/
theorem ofText?_eq_some_iff {text : String} {value : HeaderValue} :
    ofText? text = some value ↔ (ofText? text).isSome ∧ ofText text = value := by
  unfold ofText?
  dsimp only
  split
  · exact ⟨fun h => ⟨rfl, Option.some.inj h⟩, fun h => congrArg some h.2⟩
  · exact iff_of_false nofun fun h => Bool.false_ne_true h.1

/-- A text of visible characters may be sent. -/
theorem isSome_ofText? {text : String} (h : ∀ c ∈ text.toList, 0x20 ≤ c.toNat ∧ c.toNat < 0x7f) :
    (ofText? text).isSome := by
  have hbytes : (ofText text).bytes.all isSendableByte := by
    rw [List.all_eq_true]
    intro b hb
    obtain ⟨c, hc, hb⟩ := List.mem_flatMap.mp hb
    have hlt : c.toNat < 128 := Nat.lt_trans (h c hc).2 (by decide)
    rw [utf8EncodeChar_of_toNat_lt hlt, List.mem_singleton] at hb
    have hnat : b.toNat = c.toNat := by rw [hb, toNat_toUInt8_of_toNat_lt hlt]
    obtain ⟨hlow, hhigh⟩ := h c hc
    simp only [isSendableByte, Bool.or_eq_true, Bool.and_eq_true, decide_eq_true_eq, bne_iff_ne,
      UInt8.le_iff_toNat_le, ne_eq, ← UInt8.toNat_inj, hnat]
    exact Or.inl ⟨hlow, Nat.ne_of_lt hhigh⟩
  unfold ofText?
  dsimp only
  rw [if_pos hbytes]
  rfl

end HeaderValue

/-- A header that was put into a response is there once, with the value it was given. -/
theorem Response.filter_headers_put (response : Response) (name value : String) :
    (response.put name value).headers.filter (fun h => h.1 == name) = [(name, value)] := by
  have hnone :
      (response.headers.filter fun h => h.1 != name).filter (fun h => h.1 == name) = [] := by
    rw [List.filter_filter, List.filter_eq_nil_iff]
    intro h _
    simp
  rw [put, List.filter_append, hnone]
  simp

end Rulebook
