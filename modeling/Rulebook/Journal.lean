/-!
# The journal

What the service does is recorded in a journal: **events**, each with a
level, the part of the service it comes from, a message and named fields,
and **spans**, which are entered and left and enclose the events between. A
field of the innermost span can be set after the span was entered.

An operation that is recorded comes with a function that gives its entries,
in the order in which they happen; what becomes of them, which are shown and
how, is settled elsewhere.
-/

namespace Rulebook

/-- **How serious an event is.** -/
inductive Level where
  /-- Something failed. -/
  | error
  /-- Something is odd. -/
  | warn
  /-- Something happened. -/
  | info
  /-- A detail. -/
  | debug
  /-- A detail of a detail. -/
  | trace
deriving DecidableEq

namespace Level

/-- The name of a level. -/
def name : Level → String
  | .error => "ERROR"
  | .warn => "WARN"
  | .info => "INFO"
  | .debug => "DEBUG"
  | .trace => "TRACE"

/-- The more that is shown, the higher the rank. -/
def rank : Level → Nat
  | .error => 1
  | .warn => 2
  | .info => 3
  | .debug => 4
  | .trace => 5

end Level

/-- **The parts of the service** that write to the journal. -/
inductive Source where
  /-- The service as a whole. -/
  | service
  /-- Cutting rule texts into tokens. -/
  | lexer
  /-- Comparing values. -/
  | condition
  /-- Evaluating formulas. -/
  | evaluation
  /-- Combining rules. -/
  | combination
  /-- Compiling rules. -/
  | compiler
  /-- Keeping rules. -/
  | store
  /-- Answering requests. -/
  | handlers
  /-- Answering failed requests. -/
  | failures
  /-- What surrounds every request. -/
  | requests
  /-- Setting up the journal. -/
  | observability
  /-- Serving the tallies. -/
  | metrics
deriving DecidableEq

/-- The name of a part in the journal. -/
def Source.path : Source → String
  | .service => "rule_engine"
  | .lexer => "rule_engine::lexer"
  | .condition => "rule_engine::evaluator"
  | .evaluation => "rule_engine::executor"
  | .combination => "rule_engine::combiner"
  | .compiler => "rule_engine::compiler"
  | .store => "rule_engine::store"
  | .handlers => "rule_engine::api::handlers"
  | .failures => "rule_engine::api::error"
  | .requests => "rule_shared::observability::middleware"
  | .observability => "rule_shared::observability"
  | .metrics => "rule_shared::observability::metrics"

/-- **The value of a field.** -/
inductive FieldValue where
  /-- A text that is shown as it is. -/
  | shown (text : String)
  /-- A text that is shown in quotes where lines are read by people. -/
  | quoted (text : String)
  /-- A number. -/
  | number (n : Int)
  /-- A truth value. -/
  | flag (b : Bool)
deriving DecidableEq

/-- Named fields, in the order in which they are given. -/
abbrev Fields := List (String × FieldValue)

/-- **An entry of the journal.** -/
inductive Entry where
  /-- Something that happened. -/
  | event (level : Level) (source : Source) (message : String) (fields : Fields)
  /-- A span is entered. Every span is of the level `info`. -/
  | enter (source : Source) (name : String) (fields : Fields)
  /-- A field of the innermost span is set. -/
  | note (key : String) (value : FieldValue)
  /-- The innermost span is left. -/
  | leave
deriving DecidableEq

/-- A journal, in the order of events. -/
abbrev Journal := List Entry

end Rulebook
