/-!
# Blank characters

The characters that Unicode counts as white space. Texts are trimmed of
them at both ends before they are read as something else.
-/

namespace Rulebook

/-- **White space**, by Unicode's property of that name. -/
def isBlank (c : Char) : Bool :=
  let n := c.toNat
  (0x09 ≤ n && n ≤ 0x0D) || n = 0x20 || n = 0x85 || n = 0xA0 || n = 0x1680
    || (0x2000 ≤ n && n ≤ 0x200A) || n = 0x2028 || n = 0x2029 || n = 0x202F
    || n = 0x205F || n = 0x3000

/-- A text without the characters at either end that a test admits. -/
def trimBy (drop : Char → Bool) (text : List Char) : List Char :=
  ((text.dropWhile drop).reverse.dropWhile drop).reverse

/-- A text without the white space at either end. -/
def trim (text : List Char) : List Char := trimBy isBlank text

end Rulebook
