import Rulebook.Json.Reader

/-!
# Percent escapes

In a path any byte can be written as a percent sign and two hexadecimal
digits. A percent sign without two digits behind it stands for itself. What
is decoded has to be a text again.
-/

namespace Rulebook

/-- The bytes of one character. -/
def bytesOfChar (c : Char) : List UInt8 := (String.singleton c).toUTF8.toList

/-- The bytes that a piece of a path stands for. -/
def percentBytes : List Char → List UInt8
  | [] => []
  | '%' :: a :: b :: rest =>
    match Json.hexValue? a, Json.hexValue? b with
    | some high, some low => UInt8.ofNat (16 * high + low) :: percentBytes rest
    | _, _ => bytesOfChar '%' ++ percentBytes (a :: b :: rest)
  | c :: rest => bytesOfChar c ++ percentBytes rest

/-- **The text that a piece of a path stands for**, if its bytes are one. -/
def percentDecode? (piece : List Char) : Option String :=
  String.fromUTF8? (ByteArray.mk (percentBytes piece).toArray)

end Rulebook
