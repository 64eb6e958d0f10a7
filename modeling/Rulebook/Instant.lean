/-!
# Points in time

A rule remembers when it was created. A point in time is kept by its fields
in universal time, so that it is written from what is kept; the order of
points in time is the order of the fields, the year first.
-/

namespace Rulebook

/-- **A point in time**, in universal time. The second 60 is a leap second. -/
structure Instant where
  /-- The year; the year before 1 is 0. -/
  year : Int
  /-- The month, from 1. -/
  month : Nat
  /-- The day of the month, from 1. -/
  day : Nat
  /-- The hour, from 0. -/
  hour : Nat
  /-- The minute, from 0. -/
  minute : Nat
  /-- The second, from 0. -/
  second : Nat
  /-- The billionths of a second. -/
  nano : Nat
deriving DecidableEq

namespace Instant

/-- The first and the last year that can be kept. -/
def yearRange : Int × Int := (-262143, 262142)

/-- Whether a year has a 29th of February. -/
def isLeapYear (year : Int) : Bool :=
  year % 4 = 0 && (year % 100 ≠ 0 || year % 400 = 0)

/-- The number of days of a month. -/
def daysInMonth (year : Int) (month : Nat) : Nat :=
  if month = 2 then (if isLeapYear year then 29 else 28)
  else if month = 4 ∨ month = 6 ∨ month = 9 ∨ month = 11 then 30
  else 31

/-- The order of two points in time. -/
def order (a b : Instant) : Ordering :=
  (compare a.year b.year).then <|
  (compare a.month b.month).then <|
  (compare a.day b.day).then <|
  (compare a.hour b.hour).then <|
  (compare a.minute b.minute).then <|
  (compare a.second b.second).then (compare a.nano b.nano)

/-- Whether a point in time is not after another. -/
def notAfter (a b : Instant) : Bool := (a.order b).isLE

/-- The day before, which may be in the month or the year before. -/
def previousDay (t : Instant) : Instant :=
  if 1 < t.day then { t with day := t.day - 1 }
  else if 1 < t.month then
    { t with month := t.month - 1, day := daysInMonth t.year (t.month - 1) }
  else { t with year := t.year - 1, month := 12, day := 31 }

/-- The day after, which may be in the month or the year after. -/
def nextDay (t : Instant) : Instant :=
  if t.day < daysInMonth t.year t.month then { t with day := t.day + 1 }
  else if t.month < 12 then { t with month := t.month + 1, day := 1 }
  else { t with year := t.year + 1, month := 1, day := 1 }

/-- The same clock time read in universal time, when the clock is `minutes`
ahead of it, by less than a day. -/
def atOffset (t : Instant) (minutes : Int) : Instant :=
  let ofDay : Int := 60 * t.hour + t.minute - minutes
  let t' :=
    if ofDay < 0 then t.previousDay
    else if 1440 ≤ ofDay then t.nextDay
    else t
  let ofDay := (ofDay % 1440).toNat
  { t' with hour := ofDay / 60, minute := ofDay % 60 }

/-- Whether the year can be kept. -/
def isKept (t : Instant) : Bool := yearRange.1 ≤ t.year && t.year ≤ yearRange.2

/-! ## Writing -/

/-- A natural number in at least `width` digits. -/
def padded (width n : Nat) : String :=
  let digits := Nat.toDigits 10 n
  String.ofList (List.replicate (width - digits.length) '0' ++ digits)

/-- A year in four digits; one outside of 0 to 9999 has a sign. -/
def yearText (year : Int) : String :=
  if 0 ≤ year ∧ year ≤ 9999 then padded 4 year.toNat
  else (if year < 0 then "-" else "+") ++ padded 4 year.natAbs

/-- A fraction of a second in the fewest of 0, 3, 6 or 9 digits that lose
nothing. -/
def fractionText (nano : Nat) : String :=
  if nano = 0 then ""
  else if nano % 1000000 = 0 then "." ++ padded 3 (nano / 1000000)
  else if nano % 1000 = 0 then "." ++ padded 6 (nano / 1000)
  else "." ++ padded 9 nano

/-- **A point in time as text**, in universal time. -/
def text (t : Instant) : String :=
  yearText t.year ++ "-" ++ padded 2 t.month ++ "-" ++ padded 2 t.day ++ "T" ++ padded 2 t.hour
    ++ ":" ++ padded 2 t.minute ++ ":" ++ padded 2 t.second ++ fractionText t.nano ++ "Z"

end Instant

end Rulebook
