import Rulebook.Formula.Document
import Rulebook.Instant.Reader

/-!
# Rules

A rule is a formula with the text it was made from, an id, and the time of
its creation. It is kept as a document with these four members, which can
also be written as a row of items in the order `id`, text, formula, time. A
document need not tell the time.
-/

namespace Rulebook

/-- **A rule.** -/
structure Rule where
  /-- The name under which the rule is kept. -/
  id : String
  /-- The text of the rule. -/
  text : String
  /-- The formula. -/
  formula : Formula
  /-- When the rule was created. -/
  createdAt : Instant
deriving DecidableEq

namespace Rule

/-- **The document of a rule.** -/
def toDocument (rule : Rule) : Json :=
  .object [("id", .string rule.id), ("rule_string", .string rule.text),
    ("ast", rule.formula.toDocument), ("created_at", .string rule.createdAt.text)]

/-- The point in time of a document. -/
def readTime : Json → Except Mismatch Instant
  | .string s =>
    match Instant.read s with
    | .ok t => .ok t
    | .error fault => .error (.notTime fault.message)
  | doc => .error (.unexpected doc .time)

/-- The members of a rule that have been read so far. -/
structure Parts where
  /-- The id. -/
  id : Option String
  /-- The text. -/
  text : Option String
  /-- The formula. -/
  formula : Option Formula
  /-- The time of creation. -/
  createdAt : Option Instant

/-- A rule of which all members have been read; without a time it gets the
given one. -/
def Parts.whole (now : Instant) (parts : Parts) : Except Mismatch Rule :=
  match parts.id with
  | none => .error (.missing "id")
  | some id =>
    match parts.text with
    | none => .error (.missing "rule_string")
    | some text =>
      match parts.formula with
      | none => .error (.missing "ast")
      | some formula => .ok ⟨id, text, formula, parts.createdAt.getD now⟩

/-- A rule from its members. -/
def ofMembers (now : Instant) (parts : Parts) : List (String × Json) → Except Mismatch Rule
  | [] => parts.whole now
  | (key, doc) :: members =>
    if key = "id" then
      if parts.id.isSome then .error (.repeated key)
      else do
        let id ← doc.readText
        ofMembers now { parts with id := some id } members
    else if key = "rule_string" then
      if parts.text.isSome then .error (.repeated key)
      else do
        let text ← doc.readText
        ofMembers now { parts with text := some text } members
    else if key = "ast" then
      if parts.formula.isSome then .error (.repeated key)
      else do
        let formula ← Formula.ofDocument doc
        ofMembers now { parts with formula := some formula } members
    else if key = "created_at" then
      if parts.createdAt.isSome then .error (.repeated key)
      else do
        let createdAt ← readTime doc
        ofMembers now { parts with createdAt := some createdAt } members
    else ofMembers now parts members

/-- A rule from a row of items. -/
def ofItems (now : Instant) : List Json → Except Mismatch Rule
  | [] => .error (.tooFewItems 0 .rule)
  | id :: items => do
    let id ← id.readText
    match items with
    | [] => .error (.tooFewItems 1 .rule)
    | text :: items => do
      let text ← text.readText
      match items with
      | [] => .error (.tooFewItems 2 .rule)
      | formula :: items => do
        let formula ← Formula.ofDocument formula
        match items with
        | [] => return ⟨id, text, formula, now⟩
        | createdAt :: surplus => do
          let createdAt ← readTime createdAt
          if surplus.isEmpty then return ⟨id, text, formula, createdAt⟩
          else .error (.surplusItems (4 + surplus.length))

/-- **The rule of a document**; one that does not tell its time was created
`now`. -/
def ofDocument (now : Instant) : Json → Except Mismatch Rule
  | .object members => ofMembers now ⟨none, none, none, none⟩ members
  | .array items => ofItems now items
  | doc => .error (.unexpected doc .rule)

end Rule

end Rulebook
