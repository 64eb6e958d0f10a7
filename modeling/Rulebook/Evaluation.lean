import Rulebook.Comparison
import Rulebook.Record

/-!
# Evaluating a formula

A formula holds on a record or not. Both sides of a connective are always
evaluated, so an evaluation visits every node, and a node is named by the
steps that lead to it: `root`, `root.left`, `root.left.right`.

`Formula.holds` is the verdict alone. `Formula.run` gives the verdict with
what an evaluation reports: the conditions that hold, and on request a line
for each node, its sides before the node itself.
-/

namespace Rulebook

/-- Whether a condition holds on a record. -/
def Condition.holds (c : Condition) (record : Record) : Bool :=
  c.comparator.holds (record.get? c.field) c.literal

/-- The verdict of a connective on the verdicts of its sides; one that is not
known never holds. -/
def Connective.verdict (op : Connective) (left right : Bool) : Bool :=
  match op with
  | .and => left && right
  | .or => left || right
  | .other _ => false

/-- **Whether a formula holds on a record.** -/
def Formula.holds (record : Record) : Formula → Bool
  | .condition c => c.holds record
  | .join op left right => op.verdict (left.holds record) (right.holds record)

/-- A rule without a formula holds on every record. -/
def ruleHolds (rule : Option Formula) (record : Record) : Bool :=
  match rule with
  | some f => f.holds record
  | none => true

/-! ## Places in a formula -/

/-- The place of a whole formula. -/
def rootPath : String := "root"

/-- The place of the left side of a node. -/
def leftPath (path : String) : String := path ++ ".left"

/-- The place of the right side of a node. -/
def rightPath (path : String) : String := path ++ ".right"

/-! ## Reports -/

/-- **What an evaluation reports.** -/
structure Report where
  /-- The verdict. -/
  verdict : Bool
  /-- The conditions that hold, with their places. -/
  conditions : List String
  /-- A line for each node, if asked for. -/
  trace : List String
deriving DecidableEq

/-- The word for a verdict. -/
def verdictText (verdict : Bool) : String := if verdict then "MATCHED" else "NOT_MATCHED"

/-- The line about a condition. -/
def Condition.traceLine (c : Condition) (path : String) (verdict : Bool) : String :=
  path ++ ": " ++ c.description ++ " => " ++ verdictText verdict

/-- The line about a connective between two verdicts. -/
def Connective.traceLine (op : Connective) (path : String) (left right : Bool) : String :=
  path ++ ": " ++ op.text ++ " (" ++ toString left ++ ", " ++ toString right ++ ") => "
    ++ verdictText (op.verdict left right)

/-- The report on a condition. -/
def Condition.report (c : Condition) (traced : Bool) (record : Record) (path : String) :
    Report :=
  let verdict := c.holds record
  { verdict
    conditions := if verdict then [path ++ ": " ++ c.description] else []
    trace := if traced then [c.traceLine path verdict] else [] }

/-- The report on a node, from the reports on its sides. -/
def Connective.report (op : Connective) (traced : Bool) (path : String)
    (left right : Report) : Report :=
  { verdict := op.verdict left.verdict right.verdict
    conditions := left.conditions ++ right.conditions
    trace := left.trace ++ right.trace
      ++ if traced then [op.traceLine path left.verdict right.verdict] else [] }

/-- **The report on a formula** at a place. -/
def Formula.run (traced : Bool) (record : Record) (path : String) : Formula → Report
  | .condition c => c.report traced record path
  | .join op left right =>
    op.report traced path (left.run traced record (leftPath path))
      (right.run traced record (rightPath path))

/-- The report on a rule; one without a formula holds. -/
def runRule (traced : Bool) (rule : Option Formula) (record : Record) : Report :=
  match rule with
  | some f => f.run traced record rootPath
  | none =>
    { verdict := true
      conditions := []
      trace := if traced then [rootPath ++ ": 空规则 => " ++ verdictText true] else [] }

/-! ## The journal of an evaluation -/

/-- What the journal says about a connective: one that is not known is
told. -/
def Connective.journal (op : Connective) (path : String) : Journal :=
  match op with
  | .other text =>
    [.event .debug .evaluation "不支持的逻辑操作符，节点视为不满足"
      [("operator", .shown text), ("path", .quoted path)]]
  | _ => []

/-- **The journal of an evaluation**, which does not depend on the record. -/
def Formula.evaluationJournal (path : String) : Formula → Journal
  | .condition c => c.comparator.journal
  | .join op left right =>
    left.evaluationJournal (leftPath path) ++ right.evaluationJournal (rightPath path)
      ++ op.journal path

/-- The journal of an evaluation of a rule. -/
def ruleJournal (rule : Option Formula) : Journal :=
  match rule with
  | some f => f.evaluationJournal rootPath
  | none => []

end Rulebook
