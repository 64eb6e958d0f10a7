import Rulebook.Table

/-!
# Tallies

The service counts what it does: requests, compilations, evaluations and its
own starts. Counters go by a name and by labels. A counter whose durations are
kept too has a second series for them, of which the number of durations is
told.
-/

namespace Rulebook

/-- **Something that is counted.** -/
inductive Tally where
  /-- A request was answered. -/
  | request (method path : String) (status : Nat)
  /-- A rule text was compiled, or could not be. -/
  | compilation (succeeded : Bool)
  /-- A rule was evaluated, one that came with the request or a stored one. -/
  | evaluation (stored verdict : Bool)
  /-- The service was started. -/
  | start (service : String)
deriving DecidableEq

/-- **A series**: what is counted together. -/
structure Series where
  /-- The name. -/
  name : String
  /-- The labels and their values. -/
  labels : List (String × String)
deriving DecidableEq

namespace Tally

/-- What the source of an evaluated rule is called. -/
def sourceName (stored : Bool) : String := if stored then "stored" else "inline"

/-- The counter of a tally. -/
def counter : Tally → Series
  | .request method path status =>
    ⟨"http_requests_total",
      [("method", method), ("path", path), ("status", toString status)]⟩
  | .compilation succeeded =>
    ⟨"rule_compilations_total", [("status", if succeeded then "success" else "malformed")]⟩
  | .evaluation stored verdict =>
    ⟨"rule_evaluations_total", [("source", sourceName stored), ("matched", toString verdict)]⟩
  | .start service => ⟨"service_starts_total", [("service", service)]⟩

/-- The durations that are kept with a tally. -/
def durations : Tally → Option Series
  | .request method path status =>
    some ⟨"http_request_duration_seconds",
      [("method", method), ("path", path), ("status", toString status)]⟩
  | .evaluation stored _ =>
    some ⟨"rule_evaluation_duration_seconds", [("source", sourceName stored)]⟩
  | _ => none

end Tally

/-- One character of the value of a label. -/
def labelChar (c : Char) : List Char :=
  match c with
  | '"' => ['\\', '"']
  | '\\' => ['\\', '\\']
  | '\n' => ['\\', 'n']
  | c => [c]

/-- A label with its value. -/
def labelText (label : String × String) : String :=
  label.1 ++ "=\"" ++ String.ofList (label.2.toList.flatMap labelChar) ++ "\""

/-- A series as it is written, with something behind its name. -/
def Series.text (series : Series) (ending : String) : String :=
  series.name ++ ending ++ "\x7b" ++ ",".intercalate (series.labels.map labelText) ++ "\x7d"

/-- The series that a tally adds one to, as they are written. -/
def Tally.series (t : Tally) : List String :=
  t.counter.text "" ::
    match t.durations with
    | some series => [series.text "_count"]
    | none => []

/-- **How often each series was counted**, in ascending order. -/
def countSeries (tallies : List Tally) : Table Nat :=
  (tallies.flatMap Tally.series).foldl (fun t s => t.insert s ((t.get? s).getD 0 + 1)) Table.empty

/-- The lines that tell the counts. -/
def tallyLines (tallies : List Tally) : List String :=
  (countSeries tallies).entries.map fun e => e.1 ++ " " ++ toString e.2

/-! ## What is told about the tallies -/

/-- The two kinds of series. -/
inductive SeriesKind where
  /-- A count. -/
  | counter
  /-- Durations. -/
  | histogram
deriving DecidableEq

/-- The name of a kind. -/
def SeriesKind.name : SeriesKind → String
  | .counter => "counter"
  | .histogram => "histogram"

/-- What each series is about. -/
def seriesDescriptions : List (SeriesKind × String × String) :=
  [(.counter, "http_requests_total", "Total number of HTTP requests"),
    (.histogram, "http_request_duration_seconds", "HTTP request duration in seconds"),
    (.counter, "rule_compilations_total", "Total number of rule strings compiled"),
    (.counter, "rule_evaluations_total", "Total number of rule evaluations"),
    (.histogram, "rule_evaluation_duration_seconds", "Rule evaluation duration in seconds")]

end Rulebook
