import Rulebook.Formula.Document
import Rulebook.Json.Reader

/-!
# Reading a formula from a text

The document of a formula can be read straight from its text. The kind of the
outermost node is looked at as soon as it is met, so a kind that does not
exist is found before a later part of the text turns out to be no JSON; the
nodes inside are looked at when the whole document has been read.
-/

namespace Rulebook

namespace Formula

open Json

/-- A kind of node at the start of a text. -/
def readKind (text : List Char) : Except ReadFault (Json × List Char) := do
  let (name, rest) ← textAt text
  let _ ← orMismatch (NodeKind.ofName name)
  return (.string name, rest)

/-- One more member of the outermost node. -/
def readMember (read : List (String × Json)) (key : String) (text : List Char) :
    Except ReadFault (List (String × Json) × List Char) := do
  if key = "type" then
    if (lookupLast key read).isSome then throw .mismatch
    let (kind, rest) ← readKind (← expectColon text)
    return ((key, kind) :: read, rest)
  else
    let (doc, rest) ← readValue true (nestingLimit - 1) (← expectColon text)
    return ((key, doc) :: read, rest)

/-- The document of a node, with the kind of the outermost node looked at. -/
def readNode (text : List Char) : Except ReadFault (Json × List Char) :=
  match skipGap text with
  | '\x7b' :: rest => do
    let (gathered, rest) ← gatherMembers true readMember [] rest
    return (.object gathered.reverse, rest)
  | '[' :: rest => do
    match ← nextItem true rest with
    | none => throw .mismatch
    | some first => do
      let (kind, rest) ← readKind first
      let (items, rest) ←
        itemsFrom (readValue true (nestingLimit - 1)) (rest.length + 1) false [] rest
      return (.array (kind :: items), rest)
  | text => mismatchHere text

/-- **The formula of a text** that holds its document. -/
def ofText (text : String) : Except ReadFault Formula := do
  let (doc, rest) ← readNode text.toList
  let formula ← orMismatch (ofDocument doc)
  expectEnd rest
  return formula

end Formula

end Rulebook
