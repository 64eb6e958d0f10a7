import Rulebook.Formula.Parser

/-!
# Combining rules

Several rule texts make one formula: the first and the last of them, joined
by `AND`. Texts of length zero are left out, and the texts between have to be
rules but leave no trace in the result.
-/

namespace Rulebook

/-- The texts that count. -/
def spoken (rules : List String) : List String := rules.filter (· ≠ "")

/-- The first and the last of a row of formulas, joined; a single one stands
for itself, and none for no formula. -/
def joinEnds : List Formula → Option Formula
  | [] => none
  | first :: more =>
    match more.getLast? with
    | none => some first
    | some last => some (.join .and first last)

/-- **The formula of several rule texts**; the first text that is no rule
decides the error. -/
def combine (rules : List String) : Except Malformed (Option Formula) := do
  return joinEnds (← (spoken rules).mapM parse)

/-- The texts that are read: all that count, up to the first that is no
rule. -/
def readTexts : List String → List String
  | [] => []
  | text :: texts =>
    match parse text with
    | .ok _ => text :: readTexts texts
    | .error _ => [text]

/-- What the journal says when all texts have been read. -/
def combinationEntries (count : Nat) : Journal :=
  (if 2 < count then
    [.event .warn .combination "合并超过两条规则，仅保留第一条和最后一条"
      [("parsed", .number count), ("discarded", .number (count - 2))]]
  else [])
    ++ [.event .debug .combination "规则合并完成" [("parsed", .number count)]]

/-- **The journal of a combination.** -/
def combinationJournal (rules : List String) : Journal :=
  (readTexts (spoken rules)).flatMap tokenizeJournal
    ++ match combine rules with
      | .ok _ => combinationEntries (spoken rules).length
      | .error _ => []

end Rulebook
