import Rulebook.Number.Shortest

/-!
# Numbers as text

The digits of a number are settled by `Magnitude.shortest`; what is left is
where the point goes and when an exponent is written. A `Layout` holds
those decisions, and two of them are in use: `Layout.plain` for messages
and descriptions, which never writes an exponent, and `Layout.json` for
documents.
-/

namespace Rulebook

/-- **The decisions of a number format.** -/
structure Layout where
  /-- The choice between two candidates at the same distance. -/
  tie : Tie
  /-- The leading powers of ten, from the first up to but not including the
  second, that are written without an exponent; `none` for all of them. -/
  positional : Option (Int × Int)
  /-- Whether a whole number gets a point and a zero. -/
  pointed : Bool

namespace Layout

/-- Messages never write an exponent nor a point after a whole number, and
a half goes up. -/
def plain : Layout := ⟨.up, none, false⟩

/-- Documents write an exponent below `10⁻⁵` and from `10¹⁶` on, mark a
whole number by `.0`, and settle a half by the even digit. -/
def json : Layout := ⟨.even, some (-5, 16), true⟩

/-- Digits in place without an exponent. -/
def positionalText (pointed : Bool) (p : PlacedDigits) : String :=
  let digits := Nat.toDigits 10 p.digits
  match p.exponent with
  | .ofNat e =>
    String.ofList (digits ++ List.replicate e '0') ++ (if pointed then ".0" else "")
  | .negSucc e =>
    let places := e + 1
    let padded := List.replicate (places + 1 - digits.length) '0' ++ digits
    let split := padded.length - places
    String.ofList (padded.take split ++ '.' :: padded.drop split)

/-- Digits in place with an exponent: one digit before the point, and a sign
on every exponent. -/
def scientificText (lead : Int) (p : PlacedDigits) : String :=
  let digits := Nat.toDigits 10 p.digits
  let mantissa :=
    match digits with
    | [] => []
    | [d] => [d]
    | d :: more => d :: '.' :: more
  let sign := if lead < 0 then "e-" else "e+"
  String.ofList mantissa ++ sign ++ toString lead.natAbs

/-- The text of a magnitude. -/
def magnitudeText (layout : Layout) (m : Magnitude) : String :=
  if m.steps = 0 then (if layout.pointed then "0.0" else "0")
  else
    let p := m.shortest layout.tie
    let lead := p.exponent + (Nat.toDigits 10 p.digits).length - 1
    match layout.positional with
    | none => positionalText layout.pointed p
    | some (low, high) =>
      if low ≤ lead ∧ lead < high then positionalText layout.pointed p
      else scientificText lead p

end Layout

namespace Binary64

/-- **The plain text of a number**: the shortest digits, never an exponent;
`NaN`, `inf` and `-inf` for the rest. -/
def text : Binary64 → String
  | .nan => "NaN"
  | .infinite negative => if negative then "-inf" else "inf"
  | .finite negative m => (if negative then "-" else "") ++ Layout.plain.magnitudeText m

/-- **The text of a number in a document**: the shortest digits, with an
exponent where `Layout.json` asks for one. What is not finite cannot be
written and becomes `null`. -/
def documentText : Binary64 → String
  | .finite negative m => (if negative then "-" else "") ++ Layout.json.magnitudeText m
  | _ => "null"

end Binary64

end Rulebook
