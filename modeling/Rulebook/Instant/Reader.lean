import Rulebook.Instant
import Rulebook.Number.Decimal
import Rulebook.Text.Blank

/-!
# Reading points in time

A point in time is written as RFC 3339 has it, `2024-01-09T12:00:00.25+08:00`,
with some freedom: a space or a small `t` can separate the day from the time,
blanks can stand around the separators, and the zone can be named `Z` or
`UTC`. A year of more than four digits has a sign.
-/

namespace Rulebook

/-- **Why a text is no point in time.** -/
inductive TimeFault where
  /-- The text ends too early. -/
  | tooShort
  /-- A character stands where it cannot. -/
  | invalid
  /-- A field has a value that it cannot have. -/
  | outOfRange
  /-- Something follows. -/
  | trailing
  /-- A part is missing. -/
  | incomplete
  /-- There is no such point in time. -/
  | impossible
deriving DecidableEq

/-- The message about a text that is no point in time. -/
def TimeFault.message : TimeFault → String
  | .tooShort => "premature end of input"
  | .invalid => "input contains invalid characters"
  | .outOfRange => "input is out of range"
  | .trailing => "trailing input"
  | .incomplete => "input is not enough for unique date and time"
  | .impossible => "no possible date and time matching input"

namespace Instant

/-- Digits, at least one and at most `most`. -/
def scanNumber (most : Nat) (text : List Char) : Except TimeFault (Nat × List Char) :=
  let digits := (text.take most).takeWhile Char.isDigit
  if text.isEmpty then .error .tooShort
  else if digits.isEmpty then .error .invalid
  else if 2 ^ (63 : Nat) ≤ natOfDigits digits then .error .outOfRange
  else .ok (natOfDigits digits, text.drop digits.length)

/-- A field of up to two digits, with blanks before it, in a range. -/
def scanField (low high : Nat) (text : List Char) : Except TimeFault (Nat × List Char) := do
  let (n, rest) ← scanNumber 2 (text.dropWhile isBlank)
  if low ≤ n ∧ n ≤ high then return (n, rest) else throw .outOfRange

/-- A separator, with blanks before it. -/
def scanMark (mark : Char) (text : List Char) : Except TimeFault (List Char) :=
  match text.dropWhile isBlank with
  | [] => .error .tooShort
  | c :: rest => if c = mark then .ok rest else .error .invalid

/-- A year: four digits at most, or any number of them behind a sign. -/
def scanYear (text : List Char) : Except TimeFault (Int × List Char) := do
  let text := text.dropWhile isBlank
  let (year, rest) ←
    match text with
    | '-' :: digits => do
      let (n, rest) ← scanNumber digits.length digits
      pure (-(n : Int), rest)
    | '+' :: digits => do
      let (n, rest) ← scanNumber digits.length digits
      pure ((n : Int), rest)
    | digits => do
      let (n, rest) ← scanNumber 4 digits
      pure ((n : Int), rest)
  if -2 ^ (31 : Nat) ≤ year ∧ year < 2 ^ (31 : Nat) then return (year, rest) else throw .outOfRange

/-- An optional fraction of a second, of which nine digits count. -/
def scanFraction : List Char → Except TimeFault (Nat × List Char)
  | '.' :: text => do
    let (n, rest) ← scanNumber 9 text
    let read := text.length - rest.length
    return (n * 10 ^ (9 - read), rest.dropWhile Char.isDigit)
  | text => .ok (0, text)

/-- The next two digits. A single character that fills two bytes is not taken
for the end of the text. -/
def scanTwoDigits : List Char → Except TimeFault (Nat × Nat × List Char)
  | a :: b :: rest =>
    if a.isDigit && b.isDigit then .ok (digitValue a, digitValue b, rest) else .error .invalid
  | [a] => if a.utf8Size < 2 then .error .tooShort else .error .invalid
  | [] => .error .tooShort

/-- An offset from universal time, in minutes. -/
def scanOffset (text : List Char) : Except TimeFault (Int × List Char) :=
  match text with
  | [] => .error .tooShort
  | c :: rest =>
    if c = 'Z' ∨ c = 'z' then .ok (0, rest)
    else if c = '+' ∨ c = '-' ∨ c = '\u2212' then do
      let (h, h', rest) ← scanTwoDigits rest
      let (m, m', rest) ← scanTwoDigits (rest.dropWhile fun c => c == ':' || isBlank c)
      if 5 < m then throw .outOfRange
      else
        let minutes : Int := 60 * (10 * h + h') + (10 * m + m')
        return (if c = '+' then minutes else -minutes, rest)
    else .error .invalid

/-- The zone at the end of a text: `UTC`, or an offset. -/
def scanZone (text : List Char) : Except TimeFault (Int × List Char) :=
  match text with
  | a :: b :: c :: rest =>
    if lowerAscii [a, b, c] = ['u', 't', 'c'] then .ok (0, rest) else scanOffset text
  | _ => scanOffset text

/-- The separator between the day and the time. -/
def scanSeparator : List Char → Except TimeFault (List Char)
  | [] => .error .incomplete
  | c :: rest => if c = 't' ∨ c = 'T' ∨ c = ' ' then .ok rest else .error .invalid

/-- **The point in time that a text gives.** -/
def read (text : String) : Except TimeFault Instant := do
  let (year, rest) ← scanYear text.toList
  let (month, rest) ← scanField 1 12 (← scanMark '-' rest)
  let (day, rest) ← scanField 1 31 (← scanMark '-' rest)
  let (hour, rest) ← scanField 0 23 (← scanSeparator rest)
  let (minute, rest) ← scanField 0 59 (← scanMark ':' rest)
  let (second, rest) ← scanField 0 60 (← scanMark ':' rest)
  let (nano, rest) ← scanFraction rest
  let rest := rest.dropWhile isBlank
  if rest.isEmpty then throw .incomplete
  let (offset, rest) ← scanZone rest
  if !(rest.dropWhile isBlank).isEmpty then throw .trailing
  let clock : Instant := ⟨year, month, day, hour, minute, second, nano⟩
  if !clock.isKept || daysInMonth year month < day || 1440 ≤ offset.natAbs then throw .outOfRange
  let instant := clock.atOffset offset
  if instant.isKept then return instant else throw .impossible

end Instant

end Rulebook
