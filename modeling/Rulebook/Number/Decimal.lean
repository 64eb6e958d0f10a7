import Rulebook.Number.Binary64

/-!
# Decimal numerals

A numeral is a sign, a row of digits and a power of ten. Reading one is
two separate acts: finding the numeral in the text, which is grammar, and
taking the binary64 number nearest to it, which is arithmetic
(`Decimal.toBinary64`). Each text format of the library has a grammar of
its own for numerals and shares the arithmetic.
-/

namespace Rulebook

/-- **A decimal numeral**: `± digits · 10 ^ exponent`. -/
structure Decimal where
  /-- Whether there is a minus sign. -/
  negative : Bool
  /-- The digits, read as one natural number. -/
  digits : Nat
  /-- The power of ten. -/
  exponent : Int
deriving DecidableEq

namespace Decimal

/-- **The number nearest to a numeral.** The first three cases decide what
lies far outside the range without raising ten to a huge power: a nonzero
numeral above `10⁴⁰⁰` is an infinity, and one below `2⁻¹¹⁰⁰` is zero. -/
def toBinary64 (d : Decimal) : Binary64 :=
  if d.digits = 0 then .finite d.negative .zero
  else if 400 < d.exponent then .infinite d.negative
  else if (d.digits.log2 + 1101 : Int) < 3 * -d.exponent then .finite d.negative .zero
  else
    match d.exponent with
    | .ofNat e => .nearest d.negative (d.digits * 10 ^ e * stepsPerUnit) 1
    | .negSucc e => .nearest d.negative (d.digits * stepsPerUnit) (10 ^ (e + 1))

end Decimal

/-! ## Digits in a text -/

/-- The value of one decimal digit. -/
def digitValue (c : Char) : Nat := c.toNat - '0'.toNat

/-- The natural number a row of decimal digits denotes. -/
def natOfDigits (digits : List Char) : Nat :=
  digits.foldl (fun n c => 10 * n + digitValue c) 0

/-- The leading decimal digits of a text, and what follows them. -/
def takeDigits (text : List Char) : List Char × List Char :=
  (text.takeWhile Char.isDigit, text.dropWhile Char.isDigit)

/-- The digits behind a point, if the text begins with one, and what follows
them. -/
def takeFraction : List Char → List Char × List Char
  | '.' :: text => takeDigits text
  | text => ([], text)

/-- An optional sign, and what follows it; the flag tells a minus sign. -/
def takeSign : List Char → Bool × List Char
  | '-' :: rest => (true, rest)
  | '+' :: rest => (false, rest)
  | text => (false, text)

/-- **A natural number written out**: digits, with a plus sign before them or
not, below a limit. -/
def readNatural? (limit : Nat) (text : List Char) : Option Nat :=
  let digits :=
    match text with
    | '+' :: rest => rest
    | text => text
  if digits.isEmpty ∨ !digits.all Char.isDigit then none
  else
    let n := natOfDigits digits
    if n < limit then some n else none

/-- The exponent after the digits of a numeral: absent, or a letter `e`, an
optional sign and at least one digit. -/
def takeExponent? : List Char → Option (Int × List Char)
  | [] => some (0, [])
  | c :: text =>
    if c = 'e' ∨ c = 'E' then
      let (negative, unsigned) := takeSign text
      let (digits, rest) := takeDigits unsigned
      if digits.isEmpty then none
      else
        let size : Int := natOfDigits digits
        some (if negative then -size else size, rest)
    else some (0, c :: text)

/-- **The plain numeral grammar**: an optional sign, digits with an optional
point among them or at either end, at least one digit in all, and an
optional exponent. The whole text has to be used. -/
def Decimal.read? (text : List Char) : Option Decimal :=
  let (negative, unsigned) := takeSign text
  let (whole, rest) := takeDigits unsigned
  let (fraction, rest) := takeFraction rest
  if whole.isEmpty && fraction.isEmpty then none
  else
    match takeExponent? rest with
    | some (exponent, []) =>
      some ⟨negative, natOfDigits (whole ++ fraction), exponent - fraction.length⟩
    | _ => none

/-- A lower-case copy of a text, for ASCII letters only. -/
def lowerAscii (text : List Char) : List Char := text.map Char.toLower

/-- **A number written out**: a plain numeral, or in any letter case `inf`,
`infinity` or `nan`, each with an optional sign. -/
def Binary64.ofText? (text : List Char) : Option Binary64 :=
  let (negative, unsigned) := takeSign text
  let name := String.ofList (lowerAscii unsigned)
  if name = "inf" ∨ name = "infinity" then some (.infinite negative)
  else if name = "nan" then some .nan
  else (Decimal.read? text).map Decimal.toBinary64

end Rulebook
