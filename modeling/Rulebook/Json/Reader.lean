import Rulebook.Json.Basic
import Rulebook.Number.Decimal

/-!
# Reading JSON

A reader takes what it reads off the front of a text and hands on the rest.
When it cannot, the fault says which of three things went wrong: the text is
no JSON (`malformed`), it ends too early (`truncated`), or it is JSON of a
form that was not asked for (`mismatch`). Faults are found from left to
right, so a reader that knows what form it wants can object to the form
before a later part of the text turns out to be no JSON at all.

Arrays and objects may be nested `nestingLimit` deep. What is read only to be
skipped is looked at less closely: it may be nested to any depth, its numbers
may be out of range, and its texts may hold half a surrogate pair. The flag
`strict` tells the two ways apart.
-/

namespace Rulebook

/-- **What is wrong with a text** that should hold a document. -/
inductive ReadFault where
  /-- The text is no JSON. -/
  | malformed
  /-- The text ends too early. -/
  | truncated
  /-- The text is JSON of another form. -/
  | mismatch
deriving DecidableEq

namespace Json

/-- The most arrays and objects around a value. -/
def nestingLimit : Nat := 127

/-- The characters that may stand between the parts of a text. -/
def isGap (c : Char) : Bool := c == ' ' || c == '\n' || c == '\t' || c == '\r'

/-- A text without the gap at its start. -/
def skipGap (text : List Char) : List Char := text.dropWhile isGap

/-! ## Words and numbers -/

/-- The rest of a word of which the first letter has been seen. -/
def expectWord : (word : List Char) → (text : List Char) → Except ReadFault (List Char)
  | [], text => .ok text
  | _ :: _, [] => .error .truncated
  | w :: word, c :: text => if c = w then expectWord word text else .error .malformed

/-- Digits that have to be there. -/
def expectDigits (text : List Char) : Except ReadFault (List Char × List Char) :=
  let (digits, rest) := takeDigits text
  if digits.isEmpty then .error (if rest.isEmpty then .truncated else .malformed)
  else .ok (digits, rest)

/-- The digits before the point; a zero stands alone. -/
def wholePart (text : List Char) : Except ReadFault (List Char × List Char) := do
  let (digits, rest) ← expectDigits text
  match digits with
  | '0' :: _ :: _ => .error .malformed
  | digits => return (digits, rest)

/-- A point and the digits behind it, if there is one. -/
def fractionPart : List Char → Except ReadFault (Option (List Char) × List Char)
  | '.' :: text => do
    let (digits, rest) ← expectDigits text
    return (some digits, rest)
  | text => .ok (none, text)

/-- An exponent, if there is one. -/
def exponentPart : List Char → Except ReadFault (Option Int × List Char)
  | [] => .ok (none, [])
  | c :: text =>
    if c = 'e' ∨ c = 'E' then do
      let (negative, unsigned) := takeSign text
      let (digits, rest) ← expectDigits unsigned
      let size : Int := natOfDigits digits
      return (some (if negative then -size else size), rest)
    else .ok (none, c :: text)

/-- A number without a point and an exponent: an integer if it fits 64 bits.
There is no integer `-0`. -/
def wholeNumber (negative : Bool) (n : Nat) : JsonNumber :=
  let x : Int := if negative then -n else n
  if (if negative then 0 < n ∧ n ≤ 2 ^ (63 : Nat) else n < 2 ^ (64 : Nat)) then .integer x
  else .real (Decimal.toBinary64 ⟨negative, n, 0⟩)

/-- **A number** at the start of a text. One that is too large for a number is
not accepted, unless it is only skipped. -/
def readNumber (strict : Bool) (text : List Char) : Except ReadFault (JsonNumber × List Char) :=
  do
  let (negative, text) :=
    match text with
    | '-' :: rest => (true, rest)
    | text => (false, text)
  let (whole, text) ← wholePart text
  let (fraction, text) ← fractionPart text
  let (exponent, text) ← exponentPart text
  let number :=
    match fraction, exponent with
    | none, none => wholeNumber negative (natOfDigits whole)
    | fraction, exponent =>
      let places := fraction.getD []
      .real (Decimal.toBinary64
        ⟨negative, natOfDigits (whole ++ places), exponent.getD 0 - places.length⟩)
  if strict && !number.toBinary64.isFinite then .error .malformed
  else return (number, text)

/-! ## Texts -/

/-- Where the reader stands inside a text. -/
inductive TextState where
  /-- Behind a whole character. -/
  | plain
  /-- Behind a backslash. -/
  | escape
  /-- Inside the four digits of an escape: how many are still to come, the
  value of those read, and the first half of a pair if this is the second. -/
  | digits (left value : Nat) (high : Option Nat)
  /-- Behind the first half of a pair. -/
  | half (high : Nat)
  /-- Behind the first half of a pair and a backslash. -/
  | halfEscape (high : Nat)

/-- The character that a letter behind a backslash stands for. -/
def escapeOf? (c : Char) : Option Char :=
  match c with
  | '"' => some '"'
  | '\\' => some '\\'
  | '/' => some '/'
  | 'b' => some '\x08'
  | 'f' => some '\x0c'
  | 'n' => some '\n'
  | 'r' => some '\r'
  | 't' => some '\t'
  | _ => none

/-- The value of a hexadecimal digit. -/
def hexValue? (c : Char) : Option Nat :=
  if c.isDigit then some (c.toNat - '0'.toNat)
  else if 'a' ≤ c ∧ c ≤ 'f' then some (c.toNat - 'a'.toNat + 10)
  else if 'A' ≤ c ∧ c ≤ 'F' then some (c.toNat - 'A'.toNat + 10)
  else none

/-- Whether at least four bytes are left. -/
def hasFourBytes (text : List Char) : Bool :=
  4 ≤ (text.take 4).foldr (fun c size => c.utf8Size + size) 0

/-- Whether a unit is the first half of a pair. -/
def isHighHalf (n : Nat) : Bool := 0xD800 ≤ n && n ≤ 0xDBFF

/-- Whether a unit is the second half of a pair. -/
def isLowHalf (n : Nat) : Bool := 0xDC00 ≤ n && n ≤ 0xDFFF

/-- The character of a pair of units. -/
def charOfPair (high low : Nat) : Char :=
  Char.ofNat (0x10000 + (high - 0xD800) * 0x400 + (low - 0xDC00))

/-- What four digits of an escape lead to: a character or half a pair. -/
def afterDigits (strict : Bool) (value : Nat) (high : Option Nat) :
    Except ReadFault (TextState × List Char) :=
  match high with
  | some high =>
    if isLowHalf value then .ok (.plain, [charOfPair high value]) else .error .malformed
  | none =>
    if isHighHalf value then .ok (if strict then .half value else .plain, [])
    else if isLowHalf value then (if strict then .error .malformed else .ok (.plain, []))
    else .ok (.plain, [Char.ofNat value])

/-- The rest of a text behind its opening quote, when the characters `read`
have been read already, the last one first. -/
def textBody (strict : Bool) :
    TextState → (read : List Char) → List Char → Except ReadFault (String × List Char)
  | _, _, [] => .error .truncated
  | .plain, read, c :: rest =>
    if c = '"' then .ok (String.ofList read.reverse, rest)
    else if c = '\\' then textBody strict .escape read rest
    else if c < ' ' then .error .malformed
    else textBody strict .plain (c :: read) rest
  | .escape, read, c :: rest =>
    if c = 'u' then
      if hasFourBytes rest then textBody strict (.digits 3 0 none) read rest
      else .error .truncated
    else
      match escapeOf? c with
      | some meant => textBody strict .plain (meant :: read) rest
      | none => .error .malformed
  | .digits left value high, read, c :: rest =>
    match hexValue? c with
    | none => .error .malformed
    | some d =>
      let value := 16 * value + d
      match left with
      | left + 1 => textBody strict (.digits left value high) read rest
      | 0 =>
        match afterDigits strict value high with
        | .error fault => .error fault
        | .ok (state, meant) => textBody strict state (meant ++ read) rest
  | .half high, read, c :: rest =>
    if c = '\\' then textBody strict (.halfEscape high) read rest else .error .malformed
  | .halfEscape high, read, c :: rest =>
    if c = 'u' then
      if hasFourBytes rest then textBody strict (.digits 3 0 (some high)) read rest
      else .error .truncated
    else .error .malformed

/-- **A text** behind its opening quote. -/
def readBody (strict : Bool) (text : List Char) : Except ReadFault (String × List Char) :=
  textBody strict .plain [] text

/-! ## The parts of arrays and objects -/

/-- The place of the next item of an array, or none at its end. -/
def nextItem (first : Bool) (text : List Char) : Except ReadFault (Option (List Char)) :=
  match skipGap text with
  | [] => .error .truncated
  | ']' :: _ => .ok none
  | c :: rest =>
    if first then .ok (some (c :: rest))
    else if c = ',' then
      match skipGap rest with
      | [] => .error .truncated
      | ']' :: _ => .error .malformed
      | rest => .ok (some rest)
    else .error .malformed

/-- The end of an array; nothing else may follow. -/
def closeItems (text : List Char) : Except ReadFault (List Char) :=
  match skipGap text with
  | [] => .error .truncated
  | ']' :: rest => .ok rest
  | _ => .error .malformed

/-- The key of the next member of an object and what follows it, or none at
the end of the object. -/
def nextKey (strict first : Bool) (text : List Char) :
    Except ReadFault (Option (String × List Char)) :=
  let key : List Char → Except ReadFault (Option (String × List Char))
    | '"' :: rest => (readBody strict rest).map some
    | [] => .error .truncated
    | _ => .error .malformed
  match skipGap text with
  | [] => .error .truncated
  | '\x7d' :: _ => .ok none
  | c :: rest =>
    if first then key (c :: rest)
    else if c = ',' then key (skipGap rest)
    else .error .malformed

/-- The colon behind a key. -/
def expectColon (text : List Char) : Except ReadFault (List Char) :=
  match skipGap text with
  | [] => .error .truncated
  | ':' :: rest => .ok rest
  | _ => .error .malformed

/-- The end of an object. -/
def closeMembers (text : List Char) : Except ReadFault (List Char) :=
  match skipGap text with
  | [] => .error .truncated
  | '\x7d' :: rest => .ok rest
  | _ => .error .malformed

/-- The items of an array up to its end, each read by `item`. Every item has a
character at least, so the length of the text is `fuel` enough. -/
def itemsFrom {α : Type} (item : List Char → Except ReadFault (α × List Char)) :
    (fuel : Nat) → (first : Bool) → (read : List α) → List Char →
      Except ReadFault (List α × List Char)
  | 0, _, _, _ => .error .malformed
  | fuel + 1, first, read, text => do
    match ← nextItem first text with
    | none => return (read.reverse, ← closeItems text)
    | some text => do
      let (x, rest) ← item text
      itemsFrom item fuel false (x :: read) rest

/-- The members of an object up to its end, taken one after the other into
what has been gathered. `step` is given a key and the text behind it, where
the colon has still to come. -/
def membersFrom {α : Type} (strict : Bool)
    (step : α → String → List Char → Except ReadFault (α × List Char)) :
    (fuel : Nat) → (first : Bool) → (gathered : α) → List Char → Except ReadFault (α × List Char)
  | 0, _, _, _ => .error .malformed
  | fuel + 1, first, gathered, text => do
    match ← nextKey strict first text with
    | none => return (gathered, ← closeMembers text)
    | some (key, rest) => do
      let (gathered, rest) ← step gathered key rest
      membersFrom strict step fuel false gathered rest

/-- The items of an array behind its opening bracket. -/
def readItems {α : Type} (item : List Char → Except ReadFault (α × List Char))
    (text : List Char) : Except ReadFault (List α × List Char) :=
  itemsFrom item (text.length + 1) true [] text

/-- The members of an object behind its opening brace, gathered by `step`. -/
def gatherMembers {α : Type} (strict : Bool)
    (step : α → String → List Char → Except ReadFault (α × List Char)) (none : α)
    (text : List Char) : Except ReadFault (α × List Char) :=
  membersFrom strict step (text.length + 1) true none text

/-- One more member, its value read by `value`; the last one read stands
first. -/
def keepMember {α : Type} (value : List Char → Except ReadFault (α × List Char))
    (read : List (String × α)) (key : String) (text : List Char) :
    Except ReadFault (List (String × α) × List Char) := do
  let (x, rest) ← value (← expectColon text)
  return ((key, x) :: read, rest)

/-- The members of an object behind its opening brace, each value read by
`value`. -/
def readMembers {α : Type} (strict : Bool)
    (value : List Char → Except ReadFault (α × List Char))
    (text : List Char) : Except ReadFault (List (String × α) × List Char) := do
  let (read, rest) ← gatherMembers strict (keepMember value) [] text
  return (read.reverse, rest)

/-! ## Values -/

/-- **A value** at the start of a text, with at most `depth` arrays and objects
inside one another. -/
def readValue (strict : Bool) : (depth : Nat) → List Char → Except ReadFault (Json × List Char)
  | depth, text =>
    match skipGap text with
    | [] => .error .truncated
    | 'n' :: rest => do return (.null, ← expectWord ['u', 'l', 'l'] rest)
    | 't' :: rest => do return (.bool true, ← expectWord ['r', 'u', 'e'] rest)
    | 'f' :: rest => do return (.bool false, ← expectWord ['a', 'l', 's', 'e'] rest)
    | '"' :: rest => do
      let (s, rest) ← readBody strict rest
      return (.string s, rest)
    | '[' :: rest =>
      match depth with
      | 0 => .error .malformed
      | depth + 1 => do
        let (items, rest) ← readItems (readValue strict depth) rest
        return (.array items, rest)
    | '\x7b' :: rest =>
      match depth with
      | 0 => .error .malformed
      | depth + 1 => do
        let (members, rest) ← readMembers strict (readValue strict depth) rest
        return (.object members, rest)
    | c :: rest =>
      if c = '-' ∨ c.isDigit then do
        let (n, rest) ← readNumber strict (c :: rest)
        return (.number n, rest)
      else .error .malformed

/-- A value that is only skipped. -/
def skipValue (text : List Char) : Except ReadFault (Unit × List Char) := do
  let (_, rest) ← readValue false text.length text
  return ((), rest)

/-- Nothing but a gap may follow. -/
def expectEnd (text : List Char) : Except ReadFault Unit :=
  if (skipGap text).isEmpty then .ok () else .error .malformed

/-- **The document of a text.** -/
def read (text : String) : Except ReadFault Json := do
  let (doc, rest) ← readValue true nestingLimit text.toList
  expectEnd rest
  return doc

/-! ## Values of a form -/

/-- The fault of a value of the wrong form at the start of a text. A single
value is read first; of an array or an object the opening is enough. -/
def mismatchHere {α : Type} (text : List Char) : Except ReadFault α :=
  match skipGap text with
  | '[' :: _ => .error .mismatch
  | '\x7b' :: _ => .error .mismatch
  | text => do
    let _ ← readValue true 0 text
    .error .mismatch

/-- A value that has to be a text. -/
def textAt (text : List Char) : Except ReadFault (String × List Char) :=
  match skipGap text with
  | '"' :: rest => readBody true rest
  | text => mismatchHere text

/-- A value that has to be a truth value. -/
def truthAt (text : List Char) : Except ReadFault (Bool × List Char) :=
  match skipGap text with
  | 't' :: rest => do return (true, ← expectWord ['r', 'u', 'e'] rest)
  | 'f' :: rest => do return (false, ← expectWord ['a', 'l', 's', 'e'] rest)
  | text => mismatchHere text

/-- An outcome of looking at a document, taken for a fault of its text. -/
def orMismatch {ε α : Type} : Except ε α → Except ReadFault α
  | .ok x => .ok x
  | .error _ => .error .mismatch

end Json

end Rulebook
