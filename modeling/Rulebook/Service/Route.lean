import Rulebook.Http.Percent

/-!
# Routes

A route is a path with the methods that it answers. Paths are compared as
they are sent, without decoding anything, and one piece of a path can be the
id of a rule.
-/

namespace Rulebook

/-- **The routes of the service.** -/
inductive Route where
  /-- A rule is created. -/
  | create
  /-- Rule texts are combined. -/
  | combine
  /-- A document is evaluated. -/
  | evaluate
  /-- The rules are listed. -/
  | rules
  /-- A rule is shown or deleted. -/
  | rule
  /-- A stored rule is evaluated. -/
  | judge
  /-- The service says that it is there. -/
  | health
deriving DecidableEq

namespace Route

/-- The path of a route, with a name for the id. -/
def template : Route → String
  | .create => "/create_rule"
  | .combine => "/combine_rules"
  | .evaluate => "/evaluate_rule"
  | .rules => "/rules"
  | .rule => "/rules/\x7bid\x7d"
  | .judge => "/rules/\x7bid\x7d/evaluate"
  | .health => "/health"

/-- The methods of a route, as a response lists them. -/
def methods : Route → String
  | .create | .combine | .evaluate | .judge => "POST"
  | .rules | .health => "GET,HEAD"
  | .rule => "GET,HEAD,DELETE"

/-- The pieces of a path between its slashes. -/
def pieces : List Char → List (List Char)
  | [] => [[]]
  | c :: path =>
    if c = '/' then [] :: pieces path
    else
      match pieces path with
      | piece :: more => (c :: piece) :: more
      | [] => [[c]]

/-- **The route of a path**, and the piece of the path that is an id. An id at
the end of a path is not empty. -/
def ofPath? (path : List Char) : Option (Route × List Char) :=
  match pieces path with
  | [[], first] =>
    match String.ofList first with
    | "create_rule" => some (.create, [])
    | "combine_rules" => some (.combine, [])
    | "evaluate_rule" => some (.evaluate, [])
    | "rules" => some (.rules, [])
    | "health" => some (.health, [])
    | _ => none
  | [[], first, id] =>
    if String.ofList first = "rules" ∧ !id.isEmpty then some (.rule, id) else none
  | [[], first, id, last] =>
    if String.ofList first = "rules" ∧ String.ofList last = "evaluate" then some (.judge, id)
    else none
  | _ => none

end Route

end Rulebook
