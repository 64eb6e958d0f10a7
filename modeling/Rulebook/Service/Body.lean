import Rulebook.Http.MediaType
import Rulebook.Record.Reader

/-!
# The bodies of requests

What a request asks for stands in its body, an object with the members that
the request needs. The same can be written as a row of items in a fixed order.
Members that are not asked for are skipped, a member given twice is not
accepted, and a row must not have more items than there are members.

A body is a row of bytes. Every part of it that is read has to be a text; a part
that is skipped need not be one.
-/

namespace Rulebook

open Json

/-- **What a body of one kind is read by**: the members gathered one by one, or
the items in their order, and what is made of them in the end. -/
structure BodyForm (σ α : Type) where
  /-- What has been gathered before anything was read. -/
  none : σ
  /-- One more member, of which the key has been read. -/
  member : σ → String → List Char → Except ReadFault (σ × List Char)
  /-- The items of a row behind its opening bracket, as many as there are
  members. -/
  items : List Char → Except ReadFault (σ × List Char)
  /-- What was asked for, if everything needed was given. -/
  whole : σ → Except ReadFault α

/-- **Why a body is refused.** -/
inductive BodyRefusal where
  /-- The request does not say that it is JSON. -/
  | mediaType
  /-- It is too long. -/
  | length
  /-- It is no JSON. -/
  | malformed
  /-- It is JSON of another form. -/
  | mismatch
deriving DecidableEq

/-- The response to a request whose body is refused. -/
def BodyRefusal.response : BodyRefusal → Response
  | .mediaType => .plain 415 "Expected request with `Content-Type: application/json`"
  | .length => .plain 413 "Failed to buffer the request body: length limit exceeded"
  | .malformed => .plain 400 "Failed to parse the request body as JSON"
  | .mismatch => .plain 422 "Failed to deserialize the JSON body into the target type"

namespace BodyForm

/-- **What a body asks for.** -/
def read {σ α : Type} (form : BodyForm σ α) (body : Body) : Except ReadFault α := do
  match skipGap (charsOf body.bytes) with
  | '\x7b' :: rest => do
    let (gathered, rest) ← gatherMembers true form.member form.none rest
    let asked ← form.whole gathered
    expectEnd rest
    return asked
  | '[' :: rest => do
    let (gathered, rest) ← form.items rest
    let asked ← form.whole gathered
    let rest ← closeItems rest
    expectEnd rest
    return asked
  | text => mismatchHere text

/-- **What a request asks for.** Before its body is read it has to say that it is
JSON, and then it must not be too long. -/
def ask {σ α : Type} (form : BodyForm σ α) (request : Request) : Except BodyRefusal α :=
  if !request.isJson then .error .mediaType
  else if !request.body.fits then .error .length
  else
    match form.read request.body with
    | .ok asked => .ok asked
    | .error .mismatch => .error .mismatch
    | .error _ => .error .malformed

end BodyForm

/-- A member that may be given once. -/
def memberOnce {α σ : Type} (value : List Char → Except ReadFault (α × List Char))
    (before : Option α) (put : α → σ) (text : List Char) : Except ReadFault (σ × List Char) := do
  if before.isSome then throw .mismatch
  let (x, rest) ← value (← expectColon text)
  return (put x, rest)

/-- What a part is skipped as: a stray byte counts as any character there. -/
def skippedAs (c : Char) : Char := if c = strayMark then '\x7f' else c

/-- A member that is not asked for. -/
def memberSkipped {σ : Type} (gathered : σ) (text : List Char) :
    Except ReadFault (σ × List Char) := do
  let text ← expectColon text
  let (_, rest) ← skipValue (text.map skippedAs)
  return (gathered, text.drop (text.length - rest.length))

/-- The next item of a row, if it has one more. -/
def itemIfAny {α : Type} (first : Bool) (value : List Char → Except ReadFault (α × List Char))
    (text : List Char) : Except ReadFault (Option α × List Char) := do
  match ← nextItem first text with
  | none => return (none, text)
  | some text => do
    let (x, rest) ← value text
    return (some x, rest)

/-- The arrays and objects that may stand around a value inside a body. -/
def bodyDepth : Nat := nestingLimit - 1

/-- A member that has to be given. -/
def given {α : Type} : Option α → Except ReadFault α
  | some x => .ok x
  | none => .error .mismatch

/-- The text of a rule that is to be created. -/
def createBody : BodyForm (Option String) String where
  none := none
  member text key rest :=
    if key = "rule_string" then memberOnce textAt text some rest else memberSkipped text rest
  items := itemIfAny true textAt
  whole := given

/-- A row of texts. -/
def textsAt (text : List Char) : Except ReadFault (List String × List Char) :=
  match skipGap text with
  | '[' :: rest => readItems textAt rest
  | text => mismatchHere text

/-- The texts of rules that are to be combined. -/
def combineBody : BodyForm (Option (List String)) (List String) where
  none := none
  member texts key rest :=
    if key = "rules" then memberOnce textsAt texts some rest else memberSkipped texts rest
  items := itemIfAny true textsAt
  whole := given

/-- A document and the record to evaluate it on. -/
structure EvaluateRequest where
  /-- The document; without one every record is accepted. -/
  document : Option Json
  /-- The record. -/
  record : Option Record

/-- What an evaluation of a document needs; both parts can be left out. -/
def evaluateBody : BodyForm EvaluateRequest EvaluateRequest where
  none := ⟨none, none⟩
  member asked key rest :=
    if key = "ast" then
      memberOnce (readValue true bodyDepth) asked.document
        (fun doc => { asked with document := some doc }) rest
    else if key = "data" then
      memberOnce (Record.readRecord bodyDepth) asked.record
        (fun record => { asked with record := some record }) rest
    else memberSkipped asked rest
  items text := do
    let (document, rest) ← itemIfAny true (readValue true bodyDepth) text
    let (record, rest) ← itemIfAny false (Record.readRecord bodyDepth) rest
    return (⟨document, record⟩, rest)
  whole := .ok

/-- The record that a stored rule is evaluated on. -/
structure JudgeRequest where
  /-- The record. -/
  record : Option Record
  /-- Whether each step is to be told. -/
  traced : Option Bool

/-- What an evaluation of a stored rule needs; both parts can be left out. -/
def judgeBody : BodyForm JudgeRequest JudgeRequest where
  none := ⟨none, none⟩
  member asked key rest :=
    if key = "data" then
      memberOnce (Record.readRecord bodyDepth) asked.record
        (fun record => { asked with record := some record }) rest
    else if key = "trace" then
      memberOnce truthAt asked.traced (fun traced => { asked with traced := some traced }) rest
    else memberSkipped asked rest
  items text := do
    let (record, rest) ← itemIfAny true (Record.readRecord bodyDepth) text
    let (traced, rest) ← itemIfAny false truthAt rest
    return (⟨record, traced⟩, rest)
  whole := .ok

end Rulebook
