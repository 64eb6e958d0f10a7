import Rulebook.Json.Reader
import Rulebook.Lifecycle
import Rulebook.Service.Surroundings

/-!
# The service on streams

The service reads requests from its input, one document a line, and writes
responses to its output, one document a line; the lines of the journal go to
the stream of errors. The end of the input asks it to stop.

A request has the members `method`, `path`, `headers` and `body`, of which
only the first two are needed, and can bring what serving it needs from
outside: the `id` and the `time` of a rule that it creates, and the
`request_id` that it has if no header gives it one.
-/

namespace Rulebook.Shell

/-- The text under a key, or what stands for it. -/
def textOr (default : String) (doc : Json) (key : String) : String :=
  ((doc.get? key).bind Json.asText?).getD default

/-- The headers that a document lists as pairs. -/
def headersOf (doc : Json) : Headers :=
  match doc.get? "headers" with
  | some (.array items) =>
    items.filterMap fun
      | .array [.string name, .string value] =>
        some (String.ofList (lowerAscii name.toList), value)
      | _ => none
  | _ => []

/-- The request that a document describes. -/
def requestOf (doc : Json) : Request :=
  ⟨textOr "GET" doc "method", textOr "/" doc "path", headersOf doc, textOr "" doc "body"⟩

/-- The time that a document gives, or the beginning of 1970. -/
def timeOf (doc : Json) : Instant :=
  match Instant.read (textOr "" doc "time") with
  | .ok time => time
  | .error _ => ⟨1970, 1, 1, 0, 0, 0, 0⟩

/-- What a document brings from outside; the fresh ids are for what it does not
bring. -/
def circumstancesOf (doc : Json) (freshId freshRequestId : String) : Circumstances :=
  ⟨⟨textOr freshId doc "id", timeOf doc⟩, textOr freshRequestId doc "request_id", 0⟩

/-- A response as a document. -/
def responseDocument (response : Response) : Json :=
  .object [("status", .number (.integer response.status)),
    ("headers", .array (response.headers.map fun h => .array [.string h.1, .string h.2])),
    ("body", .string response.body)]

/-- Hexadecimal digits drawn at random. -/
def randomDigits : Nat → IO (List Char)
  | 0 => return []
  | n + 1 => do return Nat.digitChar (← IO.rand 0 15) :: (← randomDigits n)

/-- An id drawn at random. -/
def randomId : IO String := do
  let parts ← [8, 4, 3, 3, 12].mapM randomDigits
  match parts with
  | [a, b, c, d, e] =>
    return String.ofList (a ++ '-' :: b ++ '-' :: '4' :: c ++ '-' :: 'a' :: d ++ '-' :: e)
  | _ => return ""

/-- The variables that the service looks at. -/
def variableNames : List String :=
  ["CONFIG_DIR", "PORT", filterVariable, "RULE_ENV", "RULE_SERVICE_NAME", "RULE_ENVIRONMENT",
    "RULE_SERVER__HOST", "RULE_SERVER__PORT", "RULE_CORS__ALLOWED_ORIGINS",
    "RULE_OBSERVABILITY__SERVICE_NAME", "RULE_OBSERVABILITY__LOG_LEVEL",
    "RULE_OBSERVABILITY__JSON_LOGS", "RULE_OBSERVABILITY__METRICS_ENABLED",
    "RULE_OBSERVABILITY__METRICS_PORT"]

/-- The environment, as far as the service looks at it. -/
def readEnvironment : IO (Table String) := do
  let entries ← variableNames.filterMapM fun name => do
    return (← IO.getEnv name).map fun value => (name, value)
  return Table.ofList entries

/-- A file, if it is there. -/
def readFile (path : String) : IO Settings.Files := do
  try return [(path, ← IO.FS.readFile path)] catch _ => return []

/-- The files that the settings can be in. -/
def readFiles (env : Table String) : IO Settings.Files := do
  let own ← readFile ".env"
  let env := Settings.environmentWithFile env own
  let directory := (env.get? "CONFIG_DIR").getD "config"
  let names := ["default", (env.get? "RULE_ENV").getD "development", serviceTitle]
  let files ← (names.filterMap (Settings.settingsPath? directory)).mapM readFile
  return own ++ files.flatten

/-- What the service is told about its surroundings. -/
structure Setup where
  /-- The settings. -/
  settings : Settings
  /-- The wish of the environment for what is shown of the journal. -/
  wish : Option String

/-- Writes the part of a journal that is shown. -/
def Setup.write (setup : Setup) (journal : Journal) : IO Unit := do
  let margin : Margin := ⟨toString (← IO.monoMsNow), "main", "0ms", "0ms"⟩
  let stderr ← IO.getStderr
  for line in setup.settings.named.lines setup.wish margin journal do
    stderr.putStrLn line

/-- Answers requests until the input ends. -/
partial def answerAll (setup : Setup) (policy : OriginPolicy) (state : State) : IO Unit := do
  let line ← (← IO.getStdin).getLine
  if line.isEmpty then return
  let stdout ← IO.getStdout
  match Json.readValue true 128 line.toList with
  | .error _ =>
    stdout.putStrLn "null"
    answerAll setup policy state
  | .ok (doc, _) =>
    let circumstances := circumstancesOf doc (← randomId) (← randomId)
    let (state, outcome) := serveSurrounded policy circumstances state (requestOf doc)
    setup.write outcome.journal
    stdout.putStrLn (responseDocument outcome.response).text
    stdout.flush
    answerAll setup policy state

/-- A life of the service; it fails if the origins are refused. -/
def run : IO UInt32 := do
  let env ← readEnvironment
  let files ← readFiles env
  let settings := gatherSettings env files
  let setup : Setup := ⟨settings, (Settings.environmentWithFile env files).get? filterVariable⟩
  setup.write (settings.named.opening ++ settings.preparation)
  match OriginPolicy.ofSetting? settings.allowedOrigins with
  | none =>
    setup.write closingJournal
    return 1
  | some policy =>
    setup.write settings.listening
    answerAll setup policy .fresh
    setup.write (stopping .terminate ++ closingJournal)
    return 0

end Rulebook.Shell

/-- The service, from its start to its end. -/
def main : IO UInt32 := Rulebook.Shell.run
