import Rulebook.Number.Binary64
import Rulebook.Table

/-!
# JSON values

Rules are kept and sent as JSON documents. `Json` keeps what the text says
and no more: the members of an object stand in the order of the text, with
repetitions, and a number remembers whether it was written as an integer.

Two readings of an object are in use. A decoder goes through the members in
order and objects to a repeated key; everything else looks a key up with
`Json.get?`, where the last member of that key counts. `Json.sorted` is the
form in which both readings agree: each key once, in ascending order.
-/

namespace Rulebook

/-- **A number in a document**: an integer that fits 64 bits, with or
without sign, or any other number. -/
inductive JsonNumber where
  /-- An integer from `-2⁶³` to `2⁶⁴ - 1`. -/
  | integer (n : Int)
  /-- A number with a fraction or an exponent, or out of the range of
  integers. -/
  | real (x : Binary64)
deriving DecidableEq

/-- The number that is meant. -/
def JsonNumber.toBinary64 : JsonNumber → Binary64
  | .integer n => .ofInt n
  | .real x => x

/-- **A JSON value.** -/
inductive Json where
  /-- The value `null`. -/
  | null
  /-- A truth value. -/
  | bool (b : Bool)
  /-- A number. -/
  | number (n : JsonNumber)
  /-- A text. -/
  | string (s : String)
  /-- A row of values. -/
  | array (items : List Json)
  /-- Members in the order of the text. -/
  | object (members : List (String × Json))

namespace Json

/-- The value of the last member of a given key. -/
def lookupLast (key : String) : List (String × Json) → Option Json
  | [] => none
  | (k, v) :: members =>
    match lookupLast key members with
    | some found => some found
    | none => if k = key then some v else none

/-- The value under a key of an object; nothing else has keys. -/
def get? (key : String) : Json → Option Json
  | .object members => lookupLast key members
  | _ => none

/-- The text, if the value is one. -/
def asText? : Json → Option String
  | .string s => some s
  | _ => none

theorem sizeOf_lt_of_lookupLast {key : String} {members : List (String × Json)} {v : Json}
    (h : lookupLast key members = some v) : sizeOf v < sizeOf members := by
  induction members with
  | nil => simp [lookupLast] at h
  | cons m members ih =>
    obtain ⟨k, w⟩ := m
    simp only [lookupLast] at h
    split at h
    · rename_i found hfound
      cases h
      have := ih hfound
      simp only [List.cons.sizeOf_spec]
      omega
    · split at h
      · cases h
        simp only [List.cons.sizeOf_spec, Prod.mk.sizeOf_spec]
        omega
      · cases h

/-- What is found under a key is smaller than the object. -/
theorem sizeOf_lt_of_get? {key : String} {doc v : Json} (h : doc.get? key = some v) :
    sizeOf v < sizeOf doc := by
  cases doc with
  | object members =>
    have := sizeOf_lt_of_lookupLast h
    simp only [object.sizeOf_spec]
    omega
  | _ => simp [get?] at h

/-! ## Sorted objects -/

mutual

/-- **The sorted form of a value**: at every level each key once, the last
member of a key being kept, in ascending order of keys. -/
def sorted : Json → Json
  | .array items => .array (sortedItems items)
  | .object members => .object (sortedMembers [] members)
  | .null => .null
  | .bool b => .bool b
  | .number n => .number n
  | .string s => .string s

/-- The sorted form of each item. -/
def sortedItems : List Json → List Json
  | [] => []
  | item :: items => item.sorted :: sortedItems items

/-- The sorted forms of members, put in their places one after the other. -/
def sortedMembers (placed : List (String × Json)) :
    List (String × Json) → List (String × Json)
  | [] => placed
  | (key, value) :: members => sortedMembers (insertEntry key value.sorted placed) members

end

end Json

end Rulebook
