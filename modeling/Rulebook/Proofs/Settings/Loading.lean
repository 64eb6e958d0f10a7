import Rulebook.Proofs.Settings.Layers
import Rulebook.Settings

/-!
# What the settings are

The settings are read from one table, on which the defaults of two settings lie at the
bottom and then the three files and the variables, joined key by key. Here is said what
that comes to for each setting on its own: it is what was last told about it, read as the
kind it should be, and its default if nothing was told (`Settings.Follows`). `PORT` has the
last word on the port, if it is a port, and does not count otherwise.

`Settings.load?_follows` says so whenever the settings are loaded. A setting of a section
is not simply the last one that some layer gives: a layer that gives the section as
something else than a table takes back what was told before it
(`Settings.not_forall_load?_lastOfTables`). Where no layer does that, it is
(`IsToldIn.lastOfTables`).
-/

namespace Rulebook

open Setting

/-- **A setting is told**: it is what was told about it, by a conversion, or its default if
nothing was. -/
def IsTold {α : Type} (told : Option Setting) (convert : Setting → Option α)
    (default value : α) : Prop :=
  told.elim (some default) convert = some value

/-- A setting of a section is what was last told about it by layers. -/
def IsToldIn {α : Type} (layers : List (List (String × Setting))) (section_ key : String)
    (place : Nat) (convert : Setting → Option α) (default value : α) : Prop :=
  IsTold (lastTold key place (given layers section_).reverse) convert default value

/-- A setting of a section that is only given as a table is the last one that a table gave. -/
theorem IsToldIn.lastOfTables {α : Type} {layers : List (List (String × Setting))}
    {section_ key : String} {place : Nat} {convert : Setting → Option α} {default value : α}
    (h : IsToldIn layers section_ key place convert default value)
    (htables : ∀ group ∈ given layers section_, group.isTable) :
    IsTold (Setting.lastOfTables key (given layers section_)) convert default value := by
  rw [← lastTold_of_isTable htables key place]
  exact h

namespace ServerSettings

/-- Where the service listens follows layers. -/
structure Follows (s : ServerSettings) (layers : List (List (String × Setting))) : Prop where
  /-- The address. -/
  host : IsToldIn layers "server" "host" 0 asText? "0.0.0.0" s.host
  /-- The port. -/
  port : IsToldIn layers "server" "port" 1 asPort? 9006 s.port

end ServerSettings

namespace ObservabilitySettings

/-- What is written and counted follows layers. -/
structure Follows (s : ObservabilitySettings) (layers : List (List (String × Setting))) :
    Prop where
  /-- The name of the service in the journal. -/
  serviceName :
    IsToldIn layers "observability" "service_name" 0 asText? "unknown-service" s.serviceName
  /-- Which entries of the journal are shown. -/
  logLevel : IsToldIn layers "observability" "log_level" 1 asText? "info" s.logLevel
  /-- Whether they are shown as documents. -/
  jsonLogs : IsToldIn layers "observability" "json_logs" 2 asTruth? false s.jsonLogs
  /-- Whether tallies are kept. -/
  metricsEnabled :
    IsToldIn layers "observability" "metrics_enabled" 3 asTruth? true s.metricsEnabled
  /-- The port where the tallies are told. -/
  metricsPort : IsToldIn layers "observability" "metrics_port" 4 asPort? 9090 s.metricsPort

end ObservabilitySettings

namespace Settings

/-- **Settings follow layers**: each is what was last told about it. -/
structure Follows (s : Settings) (layers : List (List (String × Setting)))
    (service environment : String) : Prop where
  /-- The name of the service. -/
  serviceName : IsTold (given layers "service_name").getLast? asText? service s.serviceName
  /-- The environment it runs in. -/
  environment : IsTold (given layers "environment").getLast? asText? environment s.environment
  /-- Where it listens. -/
  server : s.server.Follows layers
  /-- Which origins may use it. -/
  origins : IsToldIn layers "cors" "allowed_origins" 0 asText? "*" s.allowedOrigins
  /-- What is written and counted. -/
  observability : s.observability.Follows layers

/-- The environment that the service runs in, if no layer tells another. -/
def environmentOf (env : Table String) : String := (env.get? "RULE_ENV").getD "development"

/-- **The layers in their order**: the file for all, the one for the environment, the one
for the service, and the variables. -/
def layers? (service : String) (env : Table String) (files : Files) :
    Option (List (List (String × Setting))) := do
  let directory := (env.get? "CONFIG_DIR").getD "config"
  let general ← fileLayer? files directory "default"
  let special ← fileLayer? files directory (environmentOf env)
  let own ← fileLayer? files directory service
  return [general, special, own, variableLayer env]

/-- The settings with another port, if one is told. -/
def withPort (s : Settings) (port? : Option Nat) : Settings :=
  { s with server := { s.server with port := port?.getD s.server.port } }

/-! ## Sections -/

/-- A setting read from a section is what was last told about it. -/
theorem isToldIn_of_readMember? {α : Type} {layers : List (List (String × Setting))}
    {section_ key : String} {place : Nat} {convert : Setting → Option α} {default value : α}
    {group : Setting} (hconvert : RefusesGroups convert)
    (hgroup : laidAll none (given layers section_) = some group)
    (h : group.readMember? key place convert default = some value) :
    IsToldIn layers section_ key place convert default value := by
  unfold readMember? at h
  cases hmember : group.member? key place with
  | none => rw [hmember] at h; cases h
  | some member =>
    have hread : member.elim (some default) convert = some value := by
      rw [hmember] at h
      cases member <;> exact h
    exact ((member_section hgroup hmember).elim_eq hconvert (some default)).symm.trans hread

/-- A setting of a section that no layer gives has its default. -/
theorem isToldIn_default {α : Type} {layers : List (List (String × Setting))} {section_ : String}
    (h : laidAll none (given layers section_) = none) (key : String) (place : Nat)
    (convert : Setting → Option α) (default : α) :
    IsToldIn layers section_ key place convert default default := by
  rw [IsToldIn, laidAll_eq_none.mp h]
  rfl

/-- What holds of the defaults of a section that no layer gives, and of everything that is
read from a section, holds of what is there in the end. -/
theorem of_section {α : Type} (Holds : α → Prop) {layers : List (List (String × Setting))}
    {section_ : String} {ofSection? : Setting → Option α} {default s : α}
    (h : (laidAll none (given layers section_)).elim (some default) ofSection? = some s)
    (hdefault : laidAll none (given layers section_) = none → Holds default)
    (hread : ∀ group, laidAll none (given layers section_) = some group →
      ofSection? group = some s → Holds s) : Holds s := by
  cases hgroup : laidAll none (given layers section_) with
  | none =>
    rw [hgroup] at h
    cases h
    exact hdefault hgroup
  | some group =>
    rw [hgroup] at h
    exact hread group hgroup h

theorem follows_server {layers : List (List (String × Setting))} {s : ServerSettings}
    (h : (laidAll none (given layers "server")).elim (some .default) ServerSettings.ofSection?
      = some s) : s.Follows layers := by
  refine of_section (·.Follows layers) h (fun hnone => ?_) fun group hgroup hread => ?_
  · exact ⟨isToldIn_default hnone .., isToldIn_default hnone ..⟩
  · simp only [ServerSettings.ofSection?, Option.bind_eq_bind, Option.bind_eq_some_iff] at hread
    obtain ⟨host, hhost, port, hport, ⟨⟩⟩ := hread
    exact ⟨isToldIn_of_readMember? refusesGroups_asText? hgroup hhost,
      isToldIn_of_readMember? refusesGroups_asPort? hgroup hport⟩

theorem follows_origins {layers : List (List (String × Setting))} {origins : String}
    (h : (laidAll none (given layers "cors")).elim (some defaultOrigins) originsOfSection?
      = some origins) :
    IsToldIn layers "cors" "allowed_origins" 0 asText? "*" origins :=
  of_section (IsToldIn layers "cors" "allowed_origins" 0 asText? "*") h
    (fun hnone => isToldIn_default hnone ..)
    fun _ hgroup hread => isToldIn_of_readMember? refusesGroups_asText? hgroup hread

theorem follows_observability {layers : List (List (String × Setting))}
    {s : ObservabilitySettings}
    (h : (laidAll none (given layers "observability")).elim (some .default)
      ObservabilitySettings.ofSection? = some s) : s.Follows layers := by
  refine of_section (·.Follows layers) h (fun hnone => ?_) fun group hgroup hread => ?_
  · exact ⟨isToldIn_default hnone .., isToldIn_default hnone .., isToldIn_default hnone ..,
      isToldIn_default hnone .., isToldIn_default hnone ..⟩
  · simp only [ObservabilitySettings.ofSection?, Option.bind_eq_bind,
      Option.bind_eq_some_iff] at hread
    obtain ⟨serviceName, hname, logLevel, hlevel, jsonLogs, hjson, metricsEnabled, henabled,
      metricsPort, hport, ⟨⟩⟩ := hread
    exact ⟨isToldIn_of_readMember? refusesGroups_asText? hgroup hname,
      isToldIn_of_readMember? refusesGroups_asText? hgroup hlevel,
      isToldIn_of_readMember? refusesGroups_asTruth? hgroup hjson,
      isToldIn_of_readMember? refusesGroups_asTruth? hgroup henabled,
      isToldIn_of_readMember? refusesGroups_asPort? hgroup hport⟩

/-! ## The table -/

theorem readMember?_table {α : Type} (entries : List (String × Setting)) (key : String)
    (place : Nat) (convert : Setting → Option α) (default : α) :
    (table entries).readMember? key place convert default
      = (findEntry key entries).elim (some default) convert := by
  rw [readMember?, member?]
  cases findEntry key entries <;> rfl

/-- A member of the table that all layers make is read from what was laid under its key. -/
theorem readMember?_layers {α : Type} (layers : List (List (String × Setting)))
    (service environment key : String) (place : Nat) (convert : Setting → Option α)
    (default : α) :
    (layers.foldl overlayLayer (baseLayer service environment)).readMember? key place convert
        default
      = (laidAll (findEntry key (baseLayer service environment).entries)
          (given layers key)).elim (some default) convert := by
  rw [baseLayer, foldl_overlayLayer_eq, readMember?_table, findEntry_joined,
    givenUnder_flatMap_rooted, entries]

/-- A setting outside of all sections, with a default at the bottom of the layers. -/
theorem isTold_of_laidAll {α : Type} {values : List Setting} {convert : Setting → Option α}
    {bottom : Setting} {unused default value : α}
    (hconvert : RefusesGroups convert) (hdefault : convert bottom = some default)
    (h : (laidAll (some bottom) values).elim (some unused) convert = some value) :
    IsTold values.getLast? convert default value := by
  have hlast := (alike_laidAll (.refl (some bottom)) values).elim_eq hconvert (some unused)
  rw [h] at hlast
  rw [IsTold, hlast]
  cases values.getLast? with
  | none => exact hdefault.symm
  | some last => rfl

/-- **The settings in the table that all layers make** follow the layers. -/
theorem follows_ofTable? {layers : List (List (String × Setting))} {service environment : String}
    {s : Settings}
    (h : ofTable? (layers.foldl overlayLayer (baseLayer service environment)) = some s) :
    s.Follows layers service environment := by
  simp only [ofTable?, readMember?_layers, Option.bind_eq_bind, Option.bind_eq_some_iff] at h
  obtain ⟨serviceName, hname, environment', henvironment, server, hserver, origins, horigins,
    observability, hobservability, ⟨⟩⟩ := h
  exact
    { serviceName := isTold_of_laidAll refusesGroups_asText? rfl hname
      environment := isTold_of_laidAll refusesGroups_asText? rfl henvironment
      server := follows_server hserver
      origins := follows_origins horigins
      observability := follows_observability hobservability }

/-! ## Loading -/

/-- **The settings of a service.** Whenever they are loaded they follow the layers, but for
the port, which is that of the variable `PORT` if it tells one. -/
theorem load?_follows {service : String} {env : Table String} {files : Files} {s : Settings}
    (h : load? service env files = some s) :
    ∃ (layers : List (List (String × Setting))) (told : Settings),
      layers? service (environmentWithFile env files) files = some layers ∧
      told.Follows layers service (environmentOf (environmentWithFile env files)) ∧
      s = told.withPort (portVariable? (environmentWithFile env files)) := by
  unfold load? at h
  generalize environmentWithFile env files = env at h ⊢
  simp only [Option.bind_eq_bind, Option.bind_eq_some_iff] at h
  obtain ⟨general, hgeneral, special, hspecial, own, hown, told, htold, hport⟩ := h
  refine ⟨[general, special, own, variableLayer env], told, ?_, follows_ofTable? htold, ?_⟩
  · rw [← environmentOf] at hspecial
    simp only [layers?, hgeneral, hspecial, hown, Option.bind_eq_bind, Option.bind_some]
    rfl
  · unfold withPort
    cases hvariable : portVariable? env with
    | none => rw [hvariable] at hport; cases hport; rfl
    | some port => rw [hvariable] at hport; cases hport; rfl

/-! ## Sections that are told twice

A section that a later layer gives as a number is gone, and a table laid over the number
begins anew. -/

/-- Files of which the first tells an address, the second takes the section back, and the
third tells a port. -/
def sampleFiles : Files :=
  [("config/default.toml", "[server]\nhost = \"10.0.0.1\"\n"),
    ("config/development.toml", "server = 5\n"),
    ("config/s.toml", "[server]\nport = 80\n")]

/-- The settings that these files tell a service. -/
def sampleSettings : Settings :=
  ⟨"s", "development", ⟨"0.0.0.0", 80⟩, "*", .default⟩

/-- The settings of the sample, with another port from the environment. -/
theorem load?_follows_sample :
    load? "s" (Table.empty.insert "PORT" "8080") sampleFiles
        = some (sampleSettings.withPort (some 8080)) ∧
      ∃ (layers : List (List (String × Setting))) (told : Settings),
        layers? "s" (Table.empty.insert "PORT" "8080") sampleFiles = some layers ∧
        told.Follows layers "s" "development" ∧
        sampleSettings.withPort (some 8080) = told.withPort (some 8080) := by
  have h : load? "s" (Table.empty.insert "PORT" "8080") sampleFiles
      = some (sampleSettings.withPort (some 8080)) := by decide +kernel
  exact ⟨h, load?_follows h⟩

/-- **A setting of a section is not always the last one that a table gives**, since what
comes between can take it back. -/
theorem not_forall_load?_lastOfTables :
    ¬ ∀ (service : String) (env : Table String) (files : Files) (s : Settings),
      load? service env files = some s →
      ∃ layers : List (List (String × Setting)),
        layers? service (environmentWithFile env files) files = some layers ∧
        IsTold (lastOfTables "host" (given layers "server")) asText? "0.0.0.0" s.server.host := by
  intro hall
  have h : load? "s" .empty sampleFiles = some sampleSettings := by decide +kernel
  obtain ⟨layers, hlayers, htold⟩ := hall "s" .empty sampleFiles sampleSettings h
  have hlast : ((layers? "s" (environmentWithFile .empty sampleFiles) sampleFiles).bind
      fun layers => (lastOfTables "host" (given layers "server")).elim (some "0.0.0.0") asText?)
        = some "10.0.0.1" := by decide +kernel
  rw [hlayers] at hlast
  have hhost : some "10.0.0.1" = some sampleSettings.server.host := hlast.symm.trans htold
  exact absurd hhost (by decide)

end Settings

end Rulebook
