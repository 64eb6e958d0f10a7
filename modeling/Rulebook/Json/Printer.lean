import Rulebook.Json.Basic
import Rulebook.Number.Layout

/-!
# Writing JSON

Documents are written without any space. A text escapes only the quote, the
backslash and the control characters below the space.
-/

namespace Rulebook

namespace Json

/-- One character inside a JSON text. -/
def escapedChar (c : Char) : List Char :=
  match c with
  | '"' => ['\\', '"']
  | '\\' => ['\\', '\\']
  | '\x08' => ['\\', 'b']
  | '\t' => ['\\', 't']
  | '\n' => ['\\', 'n']
  | '\x0c' => ['\\', 'f']
  | '\r' => ['\\', 'r']
  | c =>
    if c.toNat < 0x20 then
      ['\\', 'u', '0', '0', Nat.digitChar (c.toNat / 16), Nat.digitChar (c.toNat % 16)]
    else [c]

/-- A text as a JSON text, with its quotes. -/
def stringChars (s : String) : List Char := '"' :: s.toList.flatMap escapedChar ++ ['"']

/-- A number as it stands in a document. -/
def numberChars : JsonNumber → List Char
  | .integer n => (toString n).toList
  | .real x => x.documentText.toList

/-- Texts between commas. -/
def separated : List (List Char) → List Char
  | [] => []
  | [part] => part
  | part :: parts => part ++ ',' :: separated parts

mutual

/-- **The text of a document**, as characters. -/
def chars : Json → List Char
  | .null => ['n', 'u', 'l', 'l']
  | .bool true => ['t', 'r', 'u', 'e']
  | .bool false => ['f', 'a', 'l', 's', 'e']
  | .number n => numberChars n
  | .string s => stringChars s
  | .array items => '[' :: separated (itemChars items) ++ [']']
  | .object members => '\x7b' :: separated (memberChars members) ++ ['\x7d']

/-- The text of each item. -/
def itemChars : List Json → List (List Char)
  | [] => []
  | item :: items => item.chars :: itemChars items

/-- The text of each member: the key, a colon, the value. -/
def memberChars : List (String × Json) → List (List Char)
  | [] => []
  | (key, value) :: members => (stringChars key ++ ':' :: value.chars) :: memberChars members

end

/-- The text of a document. -/
def text (doc : Json) : String := String.ofList doc.chars

end Json

end Rulebook
