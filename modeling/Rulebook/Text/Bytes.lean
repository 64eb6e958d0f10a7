/-!
# Texts as bytes

A text is sent as one to four bytes for each of its characters. What comes in
are bytes, too, and they need not be those of a text. They are told as
characters nevertheless, because a part that is only skipped is never asked
whether it is a text: a byte that belongs to no character is told as
`strayMark`. The mark is a control character. Where the bytes hold that very
character, another control character is told for it, so the mark always means
a stray byte.
-/

namespace Rulebook

/-- The bytes of characters. -/
def bytesOf (text : List Char) : List UInt8 := text.flatMap String.utf8EncodeChar

/-- What is told for a byte that belongs to no character. -/
def strayMark : Char := '\x00'

/-- What is told for a character. -/
def toldAs (c : Char) : Char := if c = strayMark then '\x01' else c

/-- The character whose bytes a row begins with. -/
def leadingChar? (bytes : List UInt8) : Option Char :=
  (bytes.take 4).toByteArray.utf8DecodeChar? 0

/-- What is told for bytes of which the first `skip` belong to a character that
has been told, behind what is `told` already, the last of it first. -/
def tellFrom : (skip : Nat) → (told : List Char) → List UInt8 → List Char
  | _, told, [] => told.reverse
  | skip + 1, told, _ :: rest => tellFrom skip told rest
  | 0, told, b :: rest =>
    match leadingChar? (b :: rest) with
    | some c => tellFrom (c.utf8Size - 1) (toldAs c :: told) rest
    | none => tellFrom 0 (strayMark :: told) rest

/-- **What bytes tell**: their characters, and a mark for each stray byte. -/
def charsOf (bytes : List UInt8) : List Char := tellFrom 0 [] bytes

end Rulebook
