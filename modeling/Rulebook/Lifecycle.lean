import Rulebook.Journal.Console
import Rulebook.Journal.Filter
import Rulebook.Service.Origins
import Rulebook.Settings
import Rulebook.Tally

/-!
# The life of the service

The service gathers its settings, opens its journal, prepares to answer
requests, answers them until it is asked to stop, and closes its journal. The
preparation can fail in two ways: the setting of the origins is not accepted,
or the service cannot listen at its address. Whatever happens after the
journal was opened, it is closed.
-/

namespace Rulebook

/-! ## The journal and the tallies -/

namespace ObservabilitySettings

/-- The filter of the journal, given the wish of the environment. -/
def filter (o : ObservabilitySettings) (wish : Option String) : Filter :=
  Filter.choose wish o.logLevel

/-- How the journal is written. -/
def manner (o : ObservabilitySettings) : Manner := if o.jsonLogs then .documents else .coloured

/-- What is written when the journal is opened. -/
def opening (o : ObservabilitySettings) : Journal :=
  .event .info .observability "Observability initialized"
      [("service", .shown o.serviceName), ("metrics_enabled", .flag o.metricsEnabled),
        ("metrics_port", .number o.metricsPort)]
    :: if o.metricsEnabled then
        [.event .info .metrics
          ("Metrics server listening on 0.0.0.0:" ++ toString o.metricsPort) []]
      else []

/-- What is counted when the journal is opened. -/
def openingTallies (o : ObservabilitySettings) : List Tally :=
  if o.metricsEnabled then [.start o.serviceName] else []

/-- What is told about the tallies, if they are kept. -/
def descriptions (o : ObservabilitySettings) : List (SeriesKind × String × String) :=
  if o.metricsEnabled then seriesDescriptions else []

end ObservabilitySettings

/-- What is written when the journal is closed. -/
def closingJournal : Journal :=
  [.event .info .observability "Shutting down observability..." []]

/-! ## A life -/

/-- **How the service is asked to stop.** -/
inductive StopSignal where
  /-- By the system. -/
  | terminate
  /-- By a person at the keyboard. -/
  | interrupt
deriving DecidableEq

/-- What is written when the service is asked to stop. -/
def StopSignal.message : StopSignal → String
  | .terminate => "Received SIGTERM, starting graceful shutdown..."
  | .interrupt => "Received Ctrl+C, starting graceful shutdown..."

/-- **How a life ends.** -/
inductive Ending where
  /-- The service was asked to stop. -/
  | stopped
  /-- It cannot listen at its address. -/
  | unreachable
  /-- The setting of the origins is not accepted. -/
  | originsRefused
deriving DecidableEq

/-- The name of the service. -/
def serviceTitle : String := "rule-engine"

/-- The settings of the service; if they cannot be gathered, the service runs
as if it were told nothing. -/
def gatherSettings (env : Table String) (files : Settings.Files) : Settings :=
  (Settings.load? serviceTitle env files).getD Settings.default

/-- What is written and counted, under the name of the service. -/
def Settings.named (s : Settings) : ObservabilitySettings :=
  Settings.withServiceName s.observability s.serviceName

/-- An event of the service as a whole. -/
def serviceEvent (level : Level) (message : String) : Entry := .event level .service message []

/-- Whether every origin may use the service in production. -/
def Settings.isTooOpen (s : Settings) : Bool :=
  s.isProduction && trim s.allowedOrigins.toList == ['*']

/-- What is written while the service prepares itself. -/
def Settings.preparation (s : Settings) : Journal :=
  [serviceEvent .info ("Starting " ++ serviceTitle ++ " on " ++ s.serverAddress),
      serviceEvent .info "Rule store initialized (in-memory)"]
    ++ (if s.isTooOpen then
        [serviceEvent .warn
          "CORS allows all origins in production, set cors.allowed_origins to restrict it"]
      else [])
    ++ OriginPolicy.journal s.allowedOrigins

/-- What is written when the service begins to listen. -/
def Settings.listening (s : Settings) : Journal :=
  [serviceEvent .info ("Listening on " ++ s.serverAddress)]

/-- What is written when the service stops. -/
def stopping (signal : StopSignal) : Journal :=
  [serviceEvent .info signal.message, serviceEvent .info "Service shutdown complete"]

/-- **A life of the service**: what was written and how it ended. -/
structure Life where
  /-- What was written. -/
  journal : Journal
  /-- How it ended. -/
  ending : Ending

namespace Life

/-- How a life ends, given whether the service can listen. -/
def endingOf (s : Settings) (canListen : Bool) : Ending :=
  match OriginPolicy.ofSetting? s.allowedOrigins with
  | none => .originsRefused
  | some _ => if canListen then .stopped else .unreachable

/-- What is written between the preparation and the end, where `served` is what
was written while requests were answered. -/
def middle (s : Settings) (signal : StopSignal) (served : Journal) : Ending → Journal
  | .stopped => s.listening ++ served ++ stopping signal
  | .unreachable => []
  | .originsRefused => []

/-- **A life under given settings.** -/
def run (s : Settings) (canListen : Bool) (signal : StopSignal) (served : Journal) : Life :=
  let ending := endingOf s canListen
  ⟨s.named.opening ++ s.preparation ++ middle s signal served ending ++ closingJournal, ending⟩

end Life

/-! ## What is shown -/

/-- The variable that tells what is shown. -/
def filterVariable : String := "RUST_LOG"

/-- **The lines of a journal** that is opened with given settings. -/
def ObservabilitySettings.lines (o : ObservabilitySettings) (wish : Option String)
    (margin : Margin) (journal : Journal) : List String :=
  Journal.lines o.manner margin ((o.filter wish).restrict journal)

end Rulebook
