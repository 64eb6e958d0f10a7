import Rulebook.Settings.EnvFile
import Rulebook.Settings.Toml

/-!
# The settings of the service

The settings are gathered in layers: the defaults, up to three files in the
directory of settings – one for all, one for the environment the service runs
in, one for the service – and the variables of the environment whose names
begin with `RULE_`. A later layer is laid over the earlier ones. The variable
`PORT` has the last word on the port, if it is one.
-/

namespace Rulebook

/-- **Where the service listens.** -/
structure ServerSettings where
  /-- The address. -/
  host : String
  /-- The port. -/
  port : Nat
deriving DecidableEq

/-- **What is written and counted, and how.** -/
structure ObservabilitySettings where
  /-- The name of the service in the journal. -/
  serviceName : String
  /-- Which entries of the journal are shown. -/
  logLevel : String
  /-- Whether they are shown as documents. -/
  jsonLogs : Bool
  /-- Whether tallies are kept. -/
  metricsEnabled : Bool
  /-- The port where the tallies are told. -/
  metricsPort : Nat
deriving DecidableEq

/-- **The settings.** -/
structure Settings where
  /-- The name of the service. -/
  serviceName : String
  /-- The environment it runs in. -/
  environment : String
  /-- Where it listens. -/
  server : ServerSettings
  /-- Which origins may use it. -/
  allowedOrigins : String
  /-- What is written and counted. -/
  observability : ObservabilitySettings
deriving DecidableEq

namespace ServerSettings

/-- The settings of a service that is told nothing. -/
def default : ServerSettings := ⟨"0.0.0.0", 9006⟩

/-- The settings in a section; what is not told has its default. -/
def ofSection? (group : Setting) : Option ServerSettings := do
  let host ← group.readMember? "host" 0 Setting.asText? default.host
  let port ← group.readMember? "port" 1 Setting.asPort? default.port
  return ⟨host, port⟩

end ServerSettings

namespace ObservabilitySettings

/-- The settings of a service that is told nothing. -/
def default : ObservabilitySettings := ⟨"unknown-service", "info", false, true, 9090⟩

/-- The settings in a section; what is not told has its default. -/
def ofSection? (group : Setting) : Option ObservabilitySettings := do
  let serviceName ← group.readMember? "service_name" 0 Setting.asText? default.serviceName
  let logLevel ← group.readMember? "log_level" 1 Setting.asText? default.logLevel
  let jsonLogs ← group.readMember? "json_logs" 2 Setting.asTruth? default.jsonLogs
  let metricsEnabled ←
    group.readMember? "metrics_enabled" 3 Setting.asTruth? default.metricsEnabled
  let metricsPort ← group.readMember? "metrics_port" 4 Setting.asPort? default.metricsPort
  return ⟨serviceName, logLevel, jsonLogs, metricsEnabled, metricsPort⟩

end ObservabilitySettings

namespace Settings

/-- The origins of a service that is told nothing. -/
def defaultOrigins : String := "*"

/-- The settings of a service that is told nothing. -/
def default : Settings :=
  ⟨"", "", ServerSettings.default, defaultOrigins, ObservabilitySettings.default⟩

/-- The settings under another name in the journal. -/
def withServiceName (s : ObservabilitySettings) (name : String) : ObservabilitySettings :=
  { s with serviceName := name }

/-- The address and the port. -/
def serverAddress (s : Settings) : String :=
  s.server.host ++ ":" ++ toString s.server.port

/-- Whether the service runs in production. -/
def isProduction (s : Settings) : Bool := s.environment == "production"

/-- The origins in a section. -/
def originsOfSection? (group : Setting) : Option String :=
  group.readMember? "allowed_origins" 0 Setting.asText? defaultOrigins

/-- **The settings in a table**; what is not told has its default, and nothing
may be of the wrong kind. -/
def ofTable? (table : Setting) : Option Settings := do
  let serviceName ← table.readMember? "service_name" 0 Setting.asText? default.serviceName
  let environment ← table.readMember? "environment" 1 Setting.asText? default.environment
  let server ← table.readMember? "server" 2 ServerSettings.ofSection? default.server
  let origins ← table.readMember? "cors" 3 originsOfSection? default.allowedOrigins
  let observability ←
    table.readMember? "observability" 4 ObservabilitySettings.ofSection? default.observability
  return ⟨serviceName, environment, server, origins, observability⟩

/-! ## The layer of the environment -/

/-- The letters before the names of variables that are settings. -/
def variableMark : List Char := ['r', 'u', 'l', 'e', '_']

/-- A text with a point in the place of any two underscores. -/
def joinLevels : List Char → List Char
  | '_' :: '_' :: rest => '.' :: joinLevels rest
  | c :: rest => c :: joinLevels rest
  | [] => []

/-- The key of a setting that a variable holds: names count without regard to
case, and two underscores lead into a section. -/
def variableKey? (name : String) : Option String :=
  let name := lowerAscii name.toList
  if variableMark.isPrefixOf name then
    some (String.ofList (joinLevels (name.drop variableMark.length)))
  else none

/-- **The value of a variable as a setting**: a truth value, an integer or a
number if it reads as one, and else a text. -/
def variableValue (value : String) : Setting :=
  let lowered := Setting.lowered value
  if lowered = "true" then .truth true
  else if lowered = "false" then .truth false
  else
    match Setting.signed? value.toList with
    | some n => .integer n
    | none =>
      match Binary64.ofText? value.toList with
      | some x => .real x
      | none => .text value

/-- The settings that the environment holds. In which order variables are taken whose names
differ in small and capital letters only, or of which one leads into what another one gives, is
not specified; here the one whose name comes later counts. -/
def variableLayer (env : Table String) : List (String × Setting) :=
  env.entries.filterMap fun (name, value) =>
    (variableKey? name).map fun key => (key, variableValue value)

/-! ## The layers of files -/

/-- Files: their paths and what they hold. Paths are written with slashes, without steps that
lead nowhere. One that begins with a slash starts at the root, and any other one where the
service runs. -/
abbrev Files := List (String × String)

/-- Whether a path starts at the root. -/
def isAbsolute (path : String) : Bool := path.toList.head? == some '/'

/-- The steps of a path. -/
def stepsOf (path : String) : List String :=
  ((path.toList.splitOn '/').map String.ofList).filter fun s => s ≠ "" ∧ s ≠ "."

/-- Whether some file lies below a directory. -/
def hasDirectory (files : Files) (steps : List String) : Bool :=
  files.any fun f => steps.isPrefixOf (stepsOf f.1) && steps.length < (stepsOf f.1).length

/-- The steps of a path with the ones that lead back taken; it can only be led
back out of a directory that is there. At the root it stays there. -/
def resolve? (files : Files) (atRoot : Bool) : (done : List String) → List String →
    Option (List String)
  | done, [] => some done
  | done, step :: steps =>
    if step = ".." then
      if done.isEmpty then if atRoot then resolve? files atRoot [] steps else none
      else if hasDirectory files done then resolve? files atRoot done.dropLast steps
      else none
    else resolve? files atRoot (done ++ [step]) steps

/-- What a file holds, if it is there. Where the service runs is not known, so files of the one
start are not found from the other. -/
def contents? (files : Files) (path : String) : Option String := do
  let files := files.filter fun f => isAbsolute f.1 == isAbsolute path
  let steps ← resolve? files (isAbsolute path) [] (stepsOf path)
  (files.find? fun f => stepsOf f.1 == steps).map Prod.snd

/-- The path of a file of settings. A name that starts at the root leaves the directory aside,
and one without letters before its ending names no file of settings. -/
def settingsPath? (directory name : String) : Option String :=
  if name.isEmpty ∨ name.endsWith "/" then none
  else if directory.isEmpty ∨ isAbsolute name then some (name ++ ".toml")
  else some (directory ++ "/" ++ name ++ ".toml")

/-- The settings of a file: none if it is not there, and a failure if it is not
well formed. -/
def fileLayer? (files : Files) (directory name : String) : Option (List (String × Setting)) :=
  match (settingsPath? directory name).bind (contents? files) with
  | none => some []
  | some file => Toml.read? file

/-! ## Loading -/

/-- A port that is told by a variable. -/
def portVariable? (env : Table String) : Option Nat :=
  (env.get? "PORT").bind fun value => readNatural? (2 ^ (16 : Nat)) value.toList

/-- The environment with the variables of the file `.env`. -/
def environmentWithFile (env : Table String) (files : Files) : Table String :=
  match contents? files ".env" with
  | some file => EnvFile.load env file
  | none => env

/-- The settings that hold before any layer is laid over them. -/
def baseLayer (service environment : String) : Setting :=
  .table [("environment", .text environment), ("service_name", .text service)]

/-- **The settings of a service**, from the environment and the files; there
are none if a file is not well formed or a setting is of the wrong kind. -/
def load? (service : String) (env : Table String) (files : Files) : Option Settings := do
  let env := environmentWithFile env files
  let environment := (env.get? "RULE_ENV").getD "development"
  let directory := (env.get? "CONFIG_DIR").getD "config"
  let general ← fileLayer? files directory "default"
  let special ← fileLayer? files directory environment
  let own ← fileLayer? files directory service
  let table :=
    [general, special, own, variableLayer env].foldl Setting.overlayLayer
      (baseLayer service environment)
  let settings ← ofTable? table
  match portVariable? env with
  | some port => return { settings with server := { settings.server with port } }
  | none => return settings

end Settings

end Rulebook
