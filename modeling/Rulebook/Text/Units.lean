/-!
# The order of sixteen-bit units

Texts are ordered by the units of their UTF-16 encoding. Up to `U+FFFF` a
character is its own unit, and a character above is a pair of units from
`0xD800` on. The pair starts lower than the characters from `U+E000` to
`U+FFFF`, so this order is not the order of characters.
-/

namespace Rulebook

/-- The sixteen-bit units of one character. -/
def unitsOfChar (c : Char) : List Nat :=
  let n := c.toNat
  if n < 0x10000 then [n]
  else [0xD800 + (n - 0x10000) / 0x400, 0xDC00 + (n - 0x10000) % 0x400]

/-- The sixteen-bit units of a text. -/
def units (text : List Char) : List Nat := text.flatMap unitsOfChar

/-- The lexicographic order of two rows of numbers; a row stands before its
own continuations. -/
def rowOrder : List Nat → List Nat → Ordering
  | [], [] => .eq
  | [], _ :: _ => .lt
  | _ :: _, [] => .gt
  | a :: as, b :: bs => (compare a b).then (rowOrder as bs)

/-- **The order of two texts** by their sixteen-bit units. -/
def unitOrder (a b : String) : Ordering := rowOrder (units a.toList) (units b.toList)

end Rulebook
