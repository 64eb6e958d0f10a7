import Rulebook.Instant
import Rulebook.Json.Reader
import Rulebook.Settings.Value

/-!
# Single values of TOML

A value that is no text, no row and no table is one word: a truth value, an
integer, a number with a fraction, or a date. Digits can be grouped by single
underscores. Dates are kept as texts, written in one form.
-/

namespace Rulebook

namespace Toml

/-! ## Digits -/

/-- Digits without their underscores, each of which has to stand between two
digits. -/
def plainDigits? (isDigit : Char → Bool) (text : List Char) : Option (List Char) :=
  let groups := text.splitOn '_'
  if groups.all fun g => !g.isEmpty && g.all isDigit then
    some (text.filter (· ≠ '_'))
  else none

/-- The digits of a decimal number before its point, which do not begin with a
superfluous zero. -/
def wholeDigits? (text : List Char) : Option (List Char) :=
  match plainDigits? Char.isDigit text with
  | some ('0' :: _ :: _) => none
  | digits => digits

/-- An integer that fits 64 bits with a sign. -/
def fitting? (n : Int) : Option Setting :=
  if -2 ^ (63 : Nat) ≤ n ∧ n < 2 ^ (63 : Nat) then some (.integer n) else none

/-- Digits of a radix read as a natural number. -/
def natInRadix (radix : Nat) (digits : List Char) : Nat :=
  digits.foldl (fun n c => radix * n + (Json.hexValue? c).getD 0) 0

/-- An integer with a mark for its radix, which has no sign. -/
def radixInteger? (radix : Nat) (text : List Char) : Option Setting :=
  let isDigit (c : Char) : Bool := ((Json.hexValue? c).map fun d => decide (d < radix)).getD false
  (plainDigits? isDigit text).bind fun digits => fitting? (natInRadix radix digits)

/-- **An integer.** -/
def integer? : List Char → Option Setting
  | '0' :: 'x' :: text => radixInteger? 16 text
  | '0' :: 'o' :: text => radixInteger? 8 text
  | '0' :: 'b' :: text => radixInteger? 2 text
  | text =>
    let (negative, digits) := takeSign text
    (wholeDigits? digits).bind fun digits =>
      fitting? (if negative then -(natOfDigits digits : Int) else natOfDigits digits)

/-- The exponent of a number, without the letter before it. -/
def exponent? (text : List Char) : Option Int :=
  let (negative, digits) := takeSign text
  (plainDigits? Char.isDigit digits).map fun digits =>
    if negative then -(natOfDigits digits : Int) else natOfDigits digits

/-- **A number with a fraction or an exponent**, or one of the names `inf` and
`nan`. -/
def real? (text : List Char) : Option Setting := do
  let (negative, unsigned) := takeSign text
  let name := String.ofList unsigned
  if name = "inf" then return .real (.infinite negative)
  else if name = "nan" then return .real .nan
  else
    let mantissa := unsigned.takeWhile fun c => c ≠ 'e' ∧ c ≠ 'E'
    let exponent ←
      match unsigned.drop mantissa.length with
      | [] => some 0
      | _ :: text => exponent? text
    let whole := mantissa.takeWhile (· ≠ '.')
    let fraction ←
      match mantissa.drop whole.length with
      | [] => if mantissa.length = unsigned.length then none else some []
      | _ :: text => plainDigits? Char.isDigit text
    let whole ← wholeDigits? whole
    let x := Decimal.toBinary64 ⟨negative, natOfDigits (whole ++ fraction),
      exponent - fraction.length⟩
    if x.isFinite then return .real x else none

/-! ## Dates -/

/-- Two digits as a number in a range. -/
def twoDigits? (low high : Nat) : List Char → Option (Nat × List Char)
  | a :: b :: rest =>
    if a.isDigit ∧ b.isDigit then
      let n := 10 * digitValue a + digitValue b
      if low ≤ n ∧ n ≤ high then some (n, rest) else none
    else none
  | _ => none

/-- The rest of a text behind a mark. -/
def afterMark? (mark : Char) : List Char → Option (List Char)
  | c :: rest => if c = mark then some rest else none
  | [] => none

/-- A day, as it is written. -/
def day? (text : List Char) : Option (String × List Char) := do
  let year := text.take 4
  if year.length = 4 ∧ year.all Char.isDigit then
    let (month, rest) ← twoDigits? 1 12 (← afterMark? '-' (text.drop 4))
    let (day, rest) ← twoDigits? 1 31 (← afterMark? '-' rest)
    if day ≤ Instant.daysInMonth (natOfDigits year) month then
      return (String.ofList (text.take 10), rest)
    else none
  else none

/-- A fraction of a second without superfluous zeros; nine digits count. -/
def fraction? (text : List Char) : Option (String × List Char) :=
  match text with
  | '.' :: rest =>
    let (digits, rest) := takeDigits rest
    let kept := ((digits.take 9).reverse.dropWhile (· = '0')).reverse
    if digits.isEmpty then none
    else some (if kept.isEmpty then "" else "." ++ String.ofList kept, rest)
  | text => some ("", text)

/-- A time of day, as it is written. -/
def time? (text : List Char) : Option (String × List Char) := do
  let (_, rest) ← twoDigits? 0 23 text
  let (_, rest) ← twoDigits? 0 59 (← afterMark? ':' rest)
  let (_, rest) ← twoDigits? 0 60 (← afterMark? ':' rest)
  let (fraction, rest) ← fraction? rest
  return (String.ofList (text.take 8) ++ fraction, rest)

/-- The offset behind a time, if there is one. -/
def offset? (text : List Char) : Option String :=
  match text with
  | [] => some ""
  | ['Z'] | ['z'] => some "Z"
  | sign :: rest => do
    if sign = '+' ∨ sign = '-' then
      let (_, minutes) ← twoDigits? 0 23 rest
      let (_, rest) ← twoDigits? 0 59 (← afterMark? ':' minutes)
      if rest.isEmpty then return String.ofList text else none
    else none

/-- **A date**: a day, a time of day, or both with an offset if one likes. -/
def date? (text : List Char) : Option Setting :=
  match day? text with
  | some (day, []) => some (.text day)
  | some (day, mark :: rest) => do
    if mark = 'T' ∨ mark = 't' ∨ mark = ' ' then
      let (time, rest) ← time? rest
      let offset ← offset? rest
      return .text (day ++ "T" ++ time ++ offset)
    else none
  | none =>
    match time? text with
    | some (time, []) => some (.text time)
    | _ => none

/-! ## Words -/

/-- The characters that words are made of. -/
def isWordChar (c : Char) : Bool :=
  c.isAlphanum || c == '_' || c == '+' || c == '-' || c == '.' || c == ':'

/-- A word, and what follows it. A day and a time can stand together with a
space between them. -/
def takeWord (text : List Char) : List Char × List Char :=
  let word := text.takeWhile isWordChar
  let rest := text.drop word.length
  match day? word, rest with
  | some (_, []), ' ' :: c :: more =>
    if c.isDigit then
      let time := (c :: more).takeWhile isWordChar
      (word ++ ' ' :: time, (c :: more).drop time.length)
    else (word, rest)
  | _, _ => (word, rest)

/-- **The value that a word stands for.** -/
def wordValue? (word : List Char) : Option Setting :=
  if word = ['t', 'r', 'u', 'e'] then some (.truth true)
  else if word = ['f', 'a', 'l', 's', 'e'] then some (.truth false)
  else ((integer? word).or (real? word)).or (date? word)

end Toml

end Rulebook
