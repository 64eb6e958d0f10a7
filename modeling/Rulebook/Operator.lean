import Rulebook.Json.Mismatch

/-!
# Comparators and connectives

A condition compares by a comparator, and two formulas are joined by a
connective. Any text can stand in the place of either: a text that is not
one of the known ones is kept as it is, and a condition or a node that has
it never holds.
-/

namespace Rulebook

/-- **A comparator** of a field with a value. -/
inductive Comparator where
  /-- Below. -/
  | lt
  /-- Above. -/
  | gt
  /-- Below or equal. -/
  | le
  /-- Above or equal. -/
  | ge
  /-- Equal. -/
  | eq
  /-- Not equal. -/
  | ne
  /-- A text that is no known comparator. -/
  | other (text : String)
deriving DecidableEq

namespace Comparator

/-- The text of a comparator. -/
def text : Comparator → String
  | .lt => "<"
  | .gt => ">"
  | .le => "<="
  | .ge => ">="
  | .eq => "="
  | .ne => "!="
  | .other text => text

/-- The comparator of a text. -/
def ofText (text : String) : Comparator :=
  if text = "<" then .lt
  else if text = ">" then .gt
  else if text = "<=" then .le
  else if text = ">=" then .ge
  else if text = "=" then .eq
  else if text = "!=" then .ne
  else .other text

/-- Whether the comparator is one of the six that mean something. -/
def isKnown : Comparator → Bool
  | .other _ => false
  | _ => true

/-- **Every text is the text of its comparator.** -/
@[simp]
theorem text_ofText (t : String) : (ofText t).text = t := by
  unfold ofText
  split
  · simp_all [text]
  split
  · simp_all [text]
  split
  · simp_all [text]
  split
  · simp_all [text]
  split
  · simp_all [text]
  split
  · simp_all [text]
  · rfl

/-- The comparator of a document, which has to be a text. -/
def ofDocument (doc : Json) : Except Mismatch Comparator := do
  return ofText (← doc.readText)

end Comparator

/-- **A connective** of two formulas. -/
inductive Connective where
  /-- Both have to hold. -/
  | and
  /-- One has to hold. -/
  | or
  /-- A text that is no known connective. -/
  | other (text : String)
deriving DecidableEq

namespace Connective

/-- The text of a connective. -/
def text : Connective → String
  | .and => "AND"
  | .or => "OR"
  | .other text => text

/-- The connective of a text. -/
def ofText (text : String) : Connective :=
  if text = "AND" then .and
  else if text = "OR" then .or
  else .other text

/-- Whether the connective is one of the two that mean something. -/
def isKnown : Connective → Bool
  | .other _ => false
  | _ => true

/-- **Every text is the text of its connective.** -/
@[simp]
theorem text_ofText (t : String) : (ofText t).text = t := by
  unfold ofText
  split
  · simp_all [text]
  split
  · simp_all [text]
  · rfl

/-- The connective of a document, which has to be a text. -/
def ofDocument (doc : Json) : Except Mismatch Connective := do
  return ofText (← doc.readText)

end Connective

end Rulebook
