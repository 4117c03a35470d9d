import Provision.Progress
import Provision.Seconds
import Provision.Text.Case

/-!
# Configuration

What an operator can set: the account, which disks and processors to offer,
how orders are priced, the timing of stages, and the log. Everything has a
default. `Config.ofEnvironment` reads the settings from environment variables;
numbers and logical values are checked there.
-/

namespace Provision

/-- The stages whose timing can be set. -/
def Stage.timed : List Stage := [orderApproved, transactionsStarted, transactionsEnded, loginReady]

structure Account (τ : Type) where
  username : String := ""
  apiKey : String := ""
  endpoint : String := "https://api.softlayer.com/rest/v3"
  timeout : τ

structure Config (τ : Type) where
  account : Account τ
  externalDiskIds : String := ""
  controllerId : String := "487"
  disk0Type : String := ""
  cpuPattern : String := "[0-9]+ x ([0-9.]+) GHz Core[s]?"
  hourly : Option Bool := none
  powerOffFirst : Bool := false
  /-- Timeouts by stage name. -/
  timeouts : List (String × τ) := []
  intervals : List (String × τ) := []
  logLevel : String := "INFO"
  logFormat : String := "json"

/-- The account's timeout if nothing else is set: half a minute. -/
def Account.usualTimeout {τ : Type} [Duration τ] : τ := Duration.ofTenths 300

def Account.isConfigured {τ : Type} (a : Account τ) : Bool := a.username != "" && a.apiKey != ""

namespace Config

variable {τ : Type}

def usual [Duration τ] : Config τ := { account := { timeout := Account.usualTimeout } }

/-- The identity under which catalogs are cached. -/
def session (c : Config τ) : String := c.account.username

/-- The entry for a stage in a table by stage name. -/
def entryFor (stage : Stage) (table : List (String × τ)) : Option τ :=
  (table.find? (·.1 == stage.name)).map (·.2)

def timeoutOf (c : Config τ) (stage : Stage) : Option τ := entryFor stage c.timeouts

def intervalOf (c : Config τ) (stage : Stage) : Option τ := entryFor stage c.intervals

end Config

/-! ## Environment -/

/-- Environment variables with their values. -/
abbrev Environment := List (String × String)

namespace Environment

def get? (env : Environment) (name : String) : Option String :=
  (env.find? (·.1 == name)).map (·.2)

def get (env : Environment) (name : String) (fallback : String := "") : String :=
  (env.get? name).getD fallback

/-- The number in a variable, none if it is blank. -/
def number? (env : Environment) (name : String) : Except Fault (Option Float) :=
  let text := Text.trim (env.get name)
  if text == "" then .ok none
  else match Decimal.read? text with
    | some x => .ok (some x)
    | none => .error (.configuration (.notANumber name text))

/-- The logical value in a variable, none if it is blank. -/
def logical? (env : Environment) (name : String) : Except Fault (Option Bool) :=
  let text := Text.lowered (Text.trim (env.get name))
  if text == "" then .ok none
  else if ["1", "true", "yes", "on"].contains text then .ok (some true)
  else if ["0", "false", "no", "off"].contains text then .ok (some false)
  else .error (.configuration (.notABoolean name text))

/-- The tables of timeouts and intervals for some stages, after those read so far. -/
def timings (env : Environment) :
    List Stage → Except Fault (List (String × Seconds) × List (String × Seconds))
  | [] => .ok ([], [])
  | stage :: rest => do
    let timeout ← env.number? s!"PROVISIONER_{stage.name}_TIMEOUT"
    let interval ← env.number? s!"PROVISIONER_{stage.name}_INTERVAL"
    let (timeouts, intervals) ← env.timings rest
    let entry (x : Option Float) : List (String × Seconds) :=
      (x.map fun x => (stage.name, Seconds.real x)).toList
    pure (entry timeout ++ timeouts, entry interval ++ intervals)

end Environment

/-- The configuration that environment variables make. A timeout of zero is none. -/
def Config.ofEnvironment (env : Environment) : Except Fault (Config Seconds) := do
  let (timeouts, intervals) ← env.timings Stage.timed
  let timeout ← env.number? "SOFTLAYER_TIMEOUT"
  let hourly ← env.logical? "PROVISIONER_HOURLY_PRICING"
  let powerOff ← env.logical? "PROVISIONER_POWER_OFF_BEFORE_CANCEL"
  let standard : Config Seconds := Config.usual
  pure
    { account :=
        { username := env.get "SOFTLAYER_USERNAME"
          apiKey := env.get "SOFTLAYER_API_KEY"
          endpoint := env.get "SOFTLAYER_ENDPOINT" standard.account.endpoint
          timeout := match timeout with
            | some x => if x == 0 then Account.usualTimeout else .real x
            | none => Account.usualTimeout }
      externalDiskIds := env.get "PROVISIONER_EXTERNAL_DISK_IDS"
      controllerId := env.get "PROVISIONER_DISK_CONTROLLER_ID" standard.controllerId
      disk0Type := env.get "PROVISIONER_DISK0_TYPE"
      cpuPattern := env.get "PROVISIONER_CPU_REGEX" standard.cpuPattern
      hourly
      powerOffFirst := powerOff.getD false
      timeouts
      intervals
      logLevel := env.get "LOG_LEVEL" standard.logLevel
      logFormat := env.get "LOG_FORMAT" standard.logFormat }

end Provision
