import Rulebook.Number.Decimal
import Rulebook.Number.Layout
import Rulebook.Table

/-!
# Settings

A setting comes from a file or from the environment and may have been written
in another kind than the one that is needed: a port as a text, a flag as a
number. The conversions below say what is taken for what.

Settings come in layers, and a later layer is laid over an earlier one. Where
both have a table the tables are joined key by key, and a setting for one place
of a row leaves the other places as they are; anything else takes the place of
what was there.
-/

namespace Rulebook

/-- **A setting.** -/
inductive Setting where
  /-- A text. -/
  | text (s : String)
  /-- An integer. -/
  | integer (n : Int)
  /-- A number with a fraction. -/
  | real (x : Binary64)
  /-- A truth value. -/
  | truth (b : Bool)
  /-- Nothing, at a place of a row that was skipped. -/
  | nothing
  /-- A row of settings. -/
  | array (items : List Setting)
  /-- Settings under names. -/
  | table (entries : List (String × Setting))
  /-- A setting for one place of a row; a place below zero counts from the end. -/
  | place (index : Int) (item : Setting)

namespace Setting

/-! ## Conversions -/

/-- The words that stand for yes. -/
def yesWords : List String := ["true", "on", "yes"]

/-- The words that stand for no. -/
def noWords : List String := ["false", "off", "no"]

/-- A text in small letters. -/
def lowered (s : String) : String := String.ofList (lowerAscii s.toList)

/-- **A setting as a text.** -/
def asText? : Setting → Option String
  | .text s => some s
  | .integer n => some (toString n)
  | .real x => some x.text
  | .truth b => some (toString b)
  | _ => none

/-- **A setting as a truth value.** A number that is zero counts as false and
every other one as true. -/
def asTruth? : Setting → Option Bool
  | .truth b => some b
  | .integer n => some (n ≠ 0)
  | .real x => some (!x.same .zero)
  | .text s =>
    if s = "1" ∨ yesWords.contains (lowered s) then some true
    else if s = "0" ∨ noWords.contains (lowered s) then some false
    else none
  | _ => none

/-- The natural number nearest to a number: what is negative or no number
counts as zero, and there is none for the positive infinity. -/
def nearestNat? : Binary64 → Option Nat
  | .nan => some 0
  | .infinite negative => if negative then some 0 else none
  | x => x.roundAway?.map Int.toNat

/-- **A setting as a port**, which is a number below `2¹⁶`. -/
def asPort? (s : Setting) : Option Nat :=
  let n? : Option Nat :=
    match s with
    | .truth b => some b.toNat
    | .integer n => if n < 0 then none else some n.toNat
    | .real x => nearestNat? x
    | .text s =>
      if yesWords.contains (lowered s) then some 1
      else if noWords.contains (lowered s) then some 0
      else readNatural? (2 ^ (64 : Nat)) s.toList
    | _ => none
  n?.filter (· < 2 ^ (16 : Nat))

/-! ## Laying over -/

/-- The entries of a table; what is no table has none. -/
def entries : Setting → List (String × Setting)
  | .table entries => entries
  | _ => []

/-- The items of a row; what is no row has none. -/
def items : Setting → List Setting
  | .array items => items
  | _ => []

/-- **A row in which something was laid over one place.** The row is filled up so that the
place is there: behind its end, or before its beginning if the place counts from the end. -/
def withPlace (row : List Setting) (index : Int) (lay : Option Setting → Setting) :
    List Setting :=
  let before := (-index - row.length).toNat
  let row := List.replicate before nothing ++ row
  let place := (if index < 0 then index + row.length else index).toNat
  let row := row ++ List.replicate (place + 1 - row.length) nothing
  row.set place (lay row[place]?)

mutual

/-- **A setting laid over what was there before.** What is no table becomes an empty one
before a table is laid over it, and what is no row an empty one before one of its places
is told. -/
def laidOver (before : Option Setting) : Setting → Setting
  | .table new => .table (joined ((before.map entries).getD []) new)
  | .place index item =>
    .array (withPlace ((before.map items).getD []) index fun before => laidOver before item)
  | value => value

/-- Entries with others laid over them, one after the other. -/
def joined (old : List (String × Setting)) :
    List (String × Setting) → List (String × Setting)
  | [] => old
  | (key, value) :: more =>
    joined (insertEntry key (laidOver (findEntry key old) value) old) more

end

/-! ## Keys that are paths -/

/-- **A step of a path** into a setting. -/
inductive Step where
  /-- To what a table has under a key. -/
  | key (name : String)
  /-- To a place of a row. -/
  | place (index : Int)
deriving DecidableEq

/-- A setting at the end of a path. -/
def atPath : List Step → Setting → Setting
  | [], value => value
  | .key name :: path, value => .table [(name, atPath path value)]
  | .place index :: path, value => .place index (atPath path value)

/-- The characters of the keys in a path. -/
def isKeyChar (c : Char) : Bool := c.isAlphanum || c == '_' || c == '-'

/-- The characters that may stand around the number of a place. -/
def isPadding (c : Char) : Bool := c == ' ' || c == '\t'

/-- An integer that fits 64 bits with a sign. -/
def signed? (text : List Char) : Option Int :=
  let (negative, digits) := takeSign text
  if digits.isEmpty ∨ !digits.all Char.isDigit then none
  else
    let n : Int := natOfDigits digits
    let n := if negative then -n else n
    if -2 ^ (63 : Nat) ≤ n ∧ n < 2 ^ (63 : Nat) then some n else none

/-- The rest of a path behind a key: further keys behind points, and places in brackets.
Each step shortens what is left. -/
def steps? : (fuel : Nat) → List Char → Option (List Step)
  | _, [] => some []
  | fuel + 1, '.' :: rest =>
    let name := rest.takeWhile isKeyChar
    if name.isEmpty then none
    else do return .key (String.ofList name) :: (← steps? fuel (rest.drop name.length))
  | fuel + 1, '[' :: rest => do
    let rest := rest.dropWhile isPadding
    let number := rest.takeWhile fun c => c == '-' || c.isDigit
    let index ← signed? number
    match (rest.drop number.length).dropWhile isPadding with
    | ']' :: rest => return .place index :: (← steps? fuel rest)
    | _ => none
  | _, _ => none

/-- A key that is written as a path, with its first part apart; any other key stands for
itself. -/
def pathOfKey (key : String) : String × List Step :=
  let first := key.toList.takeWhile isKeyChar
  if first.isEmpty then (key, [])
  else
    match steps? key.toList.length (key.toList.drop first.length) with
    | some path => (String.ofList first, path)
    | none => (key, [])

/-- The entries of a layer, where keys that are paths lead into tables and rows. -/
def rooted (layer : List (String × Setting)) : List (String × Setting) :=
  layer.map fun e => ((pathOfKey e.1).1, atPath (pathOfKey e.1).2 e.2)

/-- **A layer laid over a setting**; its keys can be paths. -/
def overlayLayer (under : Setting) (layer : List (String × Setting)) : Setting :=
  .table (joined under.entries (rooted layer))

/-! ## Sections -/

/-- A member of a section: by its name if the section is a table, and by its
place if it is a row. What is neither has no members. -/
def member? (group : Setting) (key : String) (place : Nat) : Option (Option Setting) :=
  match group with
  | .table entries => some (findEntry key entries)
  | .array items => some items[place]?
  | _ => none

/-- A member of a section read by a conversion, or its default if it is
missing. -/
def readMember? {α : Type} (group : Setting) (key : String) (place : Nat)
    (convert : Setting → Option α) (default : α) : Option α :=
  match group.member? key place with
  | none => none
  | some none => some default
  | some (some value) => convert value

end Setting

end Rulebook
