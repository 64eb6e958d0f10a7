import Rulebook.Table
import Rulebook.Value

/-!
# Records

A record gives values to the fields that it has.
-/

namespace Rulebook

/-- **A record**: fields and their values. -/
abbrev Record := Table Value

namespace Record

/-- The document of a record. -/
def toDocument (record : Record) : Json :=
  .object (record.entries.map fun e => (e.1, e.2.toDocument))

/-- A record from the members of a document; of members of one name the last
one counts. -/
def ofMembers (record : Record) : List (String × Json) → Except Mismatch Record
  | [] => .ok record
  | (field, doc) :: members => do
    let value ← Value.ofDocument doc
    ofMembers (record.insert field value) members

/-- **The record of a document.** -/
def ofDocument : Json → Except Mismatch Record
  | .object members => ofMembers .empty members
  | doc => .error (.unexpected doc .record)

end Record

end Rulebook
