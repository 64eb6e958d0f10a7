import Rulebook.Service
import Rulebook.Service.Origins

/-!
# What surrounds every request

Around the service itself three things are done for each request, from the
outside to the inside: it gets an id, it is written to the journal and
counted, and what it asks about other origins is answered. This holds for
every request, also for one that no route answers.
-/

namespace Rulebook

/-- The header that carries the id of a request. -/
def requestIdHeader : String := "x-request-id"

/-- **The id of a request**: the one that it brings, if it can be shown, and
else a new one. -/
def requestIdOf (request : Request) (generated : String) : String :=
  ((request.headers.first? requestIdHeader).bind HeaderValue.text?).getD generated

/-- What stands for an id that cannot be sent. -/
def unknownId : String := "unknown"

/-- An id as a response tells it. -/
def sentId (id : String) : String := if (HeaderValue.ofText? id).isSome then id else unknownId

/-- What a path leads to, as far as the surroundings need to know it. -/
structure Target where
  /-- The path with a name for the id. -/
  template : String
  /-- The methods that are answered. -/
  methods : String

/-- What the path of a request leads to. -/
def Route.target? (request : Request) : Option Target :=
  (Route.ofPath? request.path).map fun (route, _) => ⟨route.template, route.methods⟩

/-- The name of a target in the journal and the counts. -/
def targetName (target : Option Target) : String :=
  (target.map Target.template).getD "unmatched"

/-- Asking what is allowed is answered at once; everything else goes
inside. -/
def answerOrigins {σ : Type} (policy : OriginPolicy) (target : Option Target)
    (request : Request) (state : σ) (inner : σ × Outcome) : σ × Outcome :=
  if request.method = "OPTIONS" then
    let response := policy.preflight request
    let response :=
      match target with
      | some target => response.put "allow" target.methods
      | none => response
    (state, ⟨response, [], []⟩)
  else (inner.1, { inner.2 with response := policy.mark request inner.2.response })

/-- What the journal says about a request, around what happens inside. -/
def requestJournal (request : Request) (target : Option Target) (elapsed : Nat)
    (outcome : Outcome) : Journal :=
  .enter .requests "http_request"
      [("method", .shown request.method), ("uri", .shown (String.ofList request.path)),
        ("route", .shown (targetName target))]
    :: outcome.journal
    ++ [.note "status" (.number outcome.response.status),
      .note "latency_ms" (.number elapsed), .leave]

/-- A request that is written to the journal and counted. -/
def recordRequest (request : Request) (target : Option Target) (elapsed : Nat)
    (outcome : Outcome) : Outcome :=
  { outcome with
    journal := requestJournal request target elapsed outcome
    tallies := outcome.tallies
      ++ [.request request.method (targetName target) outcome.response.status] }

/-- **A request in its surroundings.** What is inside is given the id of the
request. -/
def surround {σ : Type} (policy : OriginPolicy) (c : Circumstances) (target : Option Target)
    (request : Request) (state : σ) (inner : String → σ × Outcome) : σ × Outcome :=
  let id := requestIdOf request c.requestId
  let (state, outcome) := answerOrigins policy target request state (inner id)
  let outcome := recordRequest request target c.elapsed outcome
  (state, { outcome with response := outcome.response.put requestIdHeader (sentId id) })

/-- **Serving a request in its surroundings.** -/
def serveSurrounded (policy : OriginPolicy) (c : Circumstances) (state : State)
    (request : Request) : State × Outcome :=
  surround policy c (Route.target? request) request state fun _ => serve c state request

end Rulebook
