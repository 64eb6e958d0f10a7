import Rulebook.Combination
import Rulebook.Compiler
import Rulebook.Evaluation.Document
import Rulebook.Service.Body
import Rulebook.Service.Rejection
import Rulebook.Service.Route
import Rulebook.Store
import Rulebook.Tally

/-!
# The service

The service creates, shows, lists, deletes and evaluates rules. Serving a
request takes a few steps, each of which touches what requests share at most
once: a rule text is compiled, a repository is asked. Between two steps other
requests can be served, so a request that is under way is a value of its own,
its `Stage`, and `step` takes it one step further.

What a step needs from outside, the id and the time of a new rule and how long
an evaluation took, is given to it as `Circumstances`.
-/

namespace Rulebook

/-- **Where rules are kept**: in a store, or nowhere because everything
fails. -/
inductive Repository where
  /-- A store in memory. -/
  | memory (store : Store)
  /-- A repository that fails whatever it is asked, for the given reason. -/
  | failing (reason : String)

/-- **What all requests share.** -/
structure State where
  /-- The compiler. -/
  compiler : Compiler
  /-- The repository. -/
  repository : Repository

/-- The state of a service that has just been started. -/
def State.fresh : State := ⟨.fresh, .memory .empty⟩

/-- **What serving a request needs from outside.** -/
structure Circumstances where
  /-- The id and the time of a rule that is created. -/
  stamp : Compiler.Stamp
  /-- The id of a request that does not bring its own. -/
  requestId : String
  /-- How many milliseconds things take. -/
  elapsed : Nat

/-- **How far a request has come.** -/
inductive Stage where
  /-- A rule text has to be compiled. -/
  | compiling (text : String)
  /-- A compiled rule has to be saved. -/
  | saving (compiled : CompiledRule)
  /-- All rules have to be listed. -/
  | listing
  /-- A rule has to be found. -/
  | finding (id : String)
  /-- A rule has to be deleted. -/
  | erasing (id : String)
  /-- A rule has to be found and evaluated on a record. -/
  | judging (id : String) (record : Record) (traced : Bool)
  /-- The response is there. -/
  | answered (response : Response)

/-- **What a step leads to**: the next stage, and what the step wrote and
counted. -/
structure Turn where
  /-- The next stage. -/
  stage : Stage
  /-- What was written to the journal. -/
  journal : Journal
  /-- What was counted. -/
  tallies : List Tally

namespace Turn

/-- A turn that leads to a stage and leaves no trace. -/
def onward (stage : Stage) : Turn := ⟨stage, [], []⟩

/-- A turn that leads to a response. -/
def answer (response : Response) : Turn := .onward (.answered response)

/-- A turn that leads to a rejection. -/
def reject (rejection : Rejection) : Turn :=
  ⟨.answered rejection.response, rejection.journal, []⟩

/-- The turn with entries of the journal before its own. -/
def after (journal : Journal) (turn : Turn) : Turn :=
  { turn with journal := journal ++ turn.journal }

/-- The turn with one more thing counted. -/
def counting (tally : Tally) (turn : Turn) : Turn :=
  { turn with tallies := tally :: turn.tallies }

end Turn

/-! ## What a request asks for -/

/-- The turn of a request that needs a body. -/
def withBody {σ α : Type} (form : BodyForm σ α) (request : Request) (next : α → Turn) : Turn :=
  match form.ask request with
  | .ok asked => next asked
  | .error refusal => .answer refusal.response

/-- The turn of a request whose path holds an id. -/
def withId (piece : List Char) (next : String → Turn) : Turn :=
  match percentDecode? piece with
  | some id => next id
  | none => .answer (.plain 400 "Invalid URL: Invalid UTF-8 in `id`")

/-- The turn that begins the creation of a rule. -/
def beginCreation (text : String) : Turn :=
  if text.isEmpty then .reject (.validation "rule_string: 规则内容不能为空")
  else .onward (.compiling text)

/-- The turn of a combination. -/
def combination (rules : List String) : Turn :=
  .after (combinationJournal rules) <|
    match combine rules with
    | .error fault => .reject (.malformed fault.message)
    | .ok formula =>
      let doc : Json := .object [("message", .string "Combined rules"),
        ("ast", (formula.map Formula.toDocument).getD .null)]
      .after
        [.event .info .handlers "规则已合并"
          [("rules", .number rules.length), ("empty", .flag formula.isNone)]]
        (.answer (.json 200 doc.text))

/-- The document that tells a verdict. -/
def verdictDocument (verdict : Bool) : Json := .object [("result", .bool verdict)]

/-- The turn of an evaluation of a document. -/
def documentEvaluation (asked : EvaluateRequest) : Turn :=
  let doc := asked.document.getD .null
  let verdict := documentHolds (asked.record.getD .empty) doc
  .after (documentJournal doc) <|
    .counting (.evaluation false verdict) <|
      .answer (.json 200 (verdictDocument verdict).text)

/-- The turn of a request by its route and its method, if the route answers
that method. -/
def Route.begin? (route : Route) (piece : List Char) (request : Request) : Option Turn :=
  match route, request.method with
  | .create, "POST" => some (withBody createBody request beginCreation)
  | .combine, "POST" => some (withBody combineBody request combination)
  | .evaluate, "POST" => some (withBody evaluateBody request documentEvaluation)
  | .rules, "GET" | .rules, "HEAD" => some (.onward .listing)
  | .rule, "GET" | .rule, "HEAD" => some (withId piece fun id => .onward (.finding id))
  | .rule, "DELETE" => some (withId piece fun id => .onward (.erasing id))
  | .judge, "POST" =>
    some (withId piece fun id => withBody judgeBody request fun asked =>
      .onward (.judging id (asked.record.getD .empty) (asked.traced.getD false)))
  | .health, "GET" | .health, "HEAD" => some (.answer (.plain 200 "OK"))
  | _, _ => none

/-- **The first turn of a request**, which asks nothing of what requests
share. -/
def begin (request : Request) : Turn :=
  match Route.ofPath? request.path with
  | none => .answer (.bare 404)
  | some (route, piece) =>
    (route.begin? piece request).getD (.answer ((Response.bare 405).put "allow" route.methods))

/-! ## Steps -/

/-- The rejection of a request because the repository failed. -/
def repositoryFailed (reason : String) : Turn :=
  .reject (.ofError (.invalidDocument reason))

/-- A row of texts as the journal shows a set. -/
def setText (texts : List String) : String :=
  "\x7b" ++ ", ".intercalate (texts.map quoted) ++ "\x7d"

/-- The turn after a rule text was compiled, or could not be. -/
def afterCompiling (text : String) (result : Except Malformed CompiledRule) : Turn :=
  .after (Compiler.journal text) <|
    match result with
    | .ok compiled => .counting (.compilation true) (.onward (.saving compiled))
    | .error fault =>
      let error : RuleError := .malformed fault.message
      .counting (.compilation false) <|
        .after
          [.event .warn .handlers "规则解析失败"
            [("rule", .shown text), ("error", .shown error.message)]]
          (.reject (.ofError error))

/-- The document that tells of a rule that was created. -/
def creationDocument (rule : Rule) : Json :=
  .object [("message", .string "Rule created"), ("id", .string rule.id),
    ("ast", rule.formula.toDocument)]

/-- The turn after a rule was saved. -/
def afterSaving (compiled : CompiledRule) : Turn :=
  let rule := compiled.rule
  .after (Store.saveJournal rule.id) <|
    .after
      [.event .info .handlers "规则已创建"
        [("rule_id", .shown rule.id), ("fields", .shown (setText compiled.requiredFields)),
          ("compile_version", .number compiled.version)]]
      (.answer (.json 201 (creationDocument rule).text))

/-- The document that lists rules and says how many there are. -/
def listDocument (rules : List Rule) : Json :=
  .object [("rules", .array (rules.map Rule.toDocument)),
    ("total", .number (.integer rules.length))]

/-- The turn after all rules were listed. -/
def afterListing (rules : List Rule) : Turn := .answer (.json 200 (listDocument rules).text)

/-- The turn after a rule was looked for. -/
def afterFinding (id : String) : Option Rule → Turn
  | some rule => .answer (.json 200 rule.toDocument.text)
  | none => .reject (.ofError (.notFound id))

/-- The turn after a rule was deleted, if it was there. -/
def afterErasing (id : String) (found : Bool) : Turn :=
  .after (Store.deleteJournal id found) <|
    if found then
      .after [.event .info .handlers "规则已删除" [("rule_id", .shown id)]] (.answer (.bare 204))
    else .reject (.notFound id)

/-- The document of a report on a stored rule. -/
def reportDocument (id : String) (report : Report) (elapsed : Nat) : Json :=
  .object [("rule_id", .string id), ("matched", .bool report.verdict),
    ("matched_conditions", .array (report.conditions.map .string)),
    ("evaluation_trace", .array (report.trace.map .string)),
    ("evaluation_time_ms", .number (.integer elapsed))]

/-- The turn after a rule was looked for in order to be evaluated. -/
def afterJudging (id : String) (record : Record) (traced : Bool) (elapsed : Nat) :
    Option Rule → Turn
  | some rule =>
    let report := rule.formula.run traced record rootPath
    .after (rule.formula.evaluationJournal rootPath) <|
      .counting (.evaluation true report.verdict) <|
        .answer (.json 200 (reportDocument rule.id report elapsed).text)
  | none => .reject (.ofError (.notFound id))

/-- The turn after something was read from the store. -/
def afterReading {α : Type} (result : Except RuleError α) (next : α → Turn) : Turn :=
  match result with
  | .ok found => next found
  | .error error => .reject (.ofError error)

/-- **One step of a request**, which touches what requests share once. -/
def step (c : Circumstances) (state : State) : Stage → State × Turn
  | .compiling text =>
    let (compiler, result) := state.compiler.compile c.stamp text
    ({ state with compiler }, afterCompiling text result)
  | .answered response => (state, .answer response)
  | stage =>
    match state.repository with
    | .failing reason => (state, repositoryFailed reason)
    | .memory store =>
      match stage with
      | .saving compiled =>
        ({ state with repository := .memory (store.save compiled.rule) }, afterSaving compiled)
      | .listing => (state, afterReading store.list afterListing)
      | .finding id => (state, afterReading (store.find id) (afterFinding id))
      | .erasing id =>
        ({ state with repository := .memory (store.delete id) }, afterErasing id (store.has id))
      | .judging id record traced =>
        (state, afterReading (store.find id) (afterJudging id record traced c.elapsed))
      | stage => (state, .onward stage)

/-! ## Serving a request -/

/-- **What serving a request comes to.** -/
structure Outcome where
  /-- The response. -/
  response : Response
  /-- What was written to the journal. -/
  journal : Journal
  /-- What was counted. -/
  tallies : List Tally

/-- The steps of a request up to its response; no request takes more than
`steps` of them. -/
def runStages (c : Circumstances) : (steps : Nat) → State → Turn → State × Outcome
  | steps, state, turn =>
    match turn.stage, steps with
    | .answered response, _ => (state, ⟨response, turn.journal, turn.tallies⟩)
    | _, 0 => (state, ⟨.bare 500, turn.journal, turn.tallies⟩)
    | stage, steps + 1 =>
      let (state, next) := step c state stage
      runStages c steps state
        ⟨next.stage, turn.journal ++ next.journal, turn.tallies ++ next.tallies⟩

/-- The response to a method that asks for no body. -/
def Response.forMethod (response : Response) (method : String) : Response :=
  if method = "HEAD" then { response with body := "" } else response

/-- **Serving a request**: a rule text is compiled and saved in two steps, and
everything else takes one at most. -/
def serve (c : Circumstances) (state : State) (request : Request) : State × Outcome :=
  let (state, outcome) := runStages c 2 state (begin request)
  (state, { outcome with response := outcome.response.forMethod request.method })

end Rulebook
