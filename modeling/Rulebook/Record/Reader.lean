import Rulebook.Json.Reader
import Rulebook.Record

/-!
# Reading a record from a text

Each field of a record is read as a whole and then has to be a single value,
so a field of the wrong form is found before anything behind it is looked at.
-/

namespace Rulebook

namespace Record

open Json

/-- One more field of a record, where arrays and objects may be nested `depth`
deep. -/
def readField (depth : Nat) (record : Record) (field : String) (text : List Char) :
    Except ReadFault (Record × List Char) := do
  let (doc, rest) ← readValue true depth (← expectColon text)
  let value ← orMismatch (Value.ofDocument doc)
  return (record.insert field value, rest)

/-- **A record** at the start of a text. -/
def readRecord (depth : Nat) (text : List Char) : Except ReadFault (Record × List Char) :=
  match skipGap text with
  | '\x7b' :: rest =>
    match depth with
    | 0 => .error .malformed
    | depth + 1 => gatherMembers true (readField depth) Table.empty rest
  | text => mismatchHere text

/-- **The record of a text** that holds its document. -/
def ofText (text : String) : Except ReadFault Record := do
  let (record, rest) ← readRecord nestingLimit text.toList
  expectEnd rest
  return record

end Record

end Rulebook
