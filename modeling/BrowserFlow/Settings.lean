import BrowserFlow.Disk
import BrowserFlow.Text.Case

/-!
# Settings

How the program is set up by the variables of its environment. A variable that is missing or empty
leaves a setting as it is.
-/

namespace BrowserFlow

structure Settings where
  apiKey : Option String := none
  baseUrl : Option String := none
  model : String := "gpt-4o"
  maxAttempts : Int := 5
  /-- The usual time limit of a step. -/
  stepTimeoutMs : Int := 30000
  stepDelayMs : Int := 100
  /-- The time limit of the model in seconds; zero and none stand for no limit. -/
  modelTimeout : Option Float := none
  /-- The folder in which everything is kept. -/
  home : String := ".workflow_agent"
  headless : Bool := false

namespace Settings

/-- The folder of the journal. -/
def journal (s : Settings) : String :=
  pathIn s.home "run-logs"

/-- The folder of the saved workflows. -/
def library (s : Settings) : String :=
  pathIn s.home "workflows"

/-- The folder of the extracted data. -/
def data (s : Settings) : String :=
  pathIn s.home "data"

/-- A variable that is there and not empty. -/
def nonempty (env : Table String) (name : String) : Option String :=
  (env.get? name).filter fun s => !s.isEmpty

/-- A whole number from a variable. -/
def whole (env : Table String) (name : String) (default : Int) : Except Fault Int :=
  match nonempty env name with
  | none => .ok default
  | some s => (wholeOfText 10 s (Text.quoted s)).mapError fun e => .invalid e.message

/-- A truth value from a variable: true is any of a few words. -/
def truth (env : Table String) (name : String) (default : Bool) : Bool :=
  match nonempty env name with
  | none => default
  | some s => ["1", "true", "yes", "on"].contains (Text.lower (Text.trim s))

/-- A number from a variable. -/
def number (env : Table String) (name : String) : Except Fault (Option Float) :=
  match nonempty env name with
  | none => .ok none
  | some s =>
    match Decimal.readFloat? s with
    | some x => .ok (some x)
    | none => .error (.invalid ("could not convert string to float: " ++ Text.quoted s))

/-- The variables that are read. -/
def variableNames : List String :=
  ["OPENAI_API_KEY", "OPENAI_BASE_URL", "OPENAI_MODEL", "WORKFLOW_MAX_ATTEMPTS",
    "WORKFLOW_ACTION_TIMEOUT_MS", "WORKFLOW_STEP_DELAY_MS", "WORKFLOW_ORACLE_TIMEOUT_S",
    "WORKFLOW_HOME", "WORKFLOW_HEADLESS"]

/-- The settings that an environment asks for. -/
def ofEnvironment (env : Table String) : Except Fault Settings := do
  let d : Settings := {}
  return { apiKey := env.get? "OPENAI_API_KEY"
           baseUrl := nonempty env "OPENAI_BASE_URL"
           model := (env.get? "OPENAI_MODEL").getD d.model
           maxAttempts := ← whole env "WORKFLOW_MAX_ATTEMPTS" d.maxAttempts
           stepTimeoutMs := ← whole env "WORKFLOW_ACTION_TIMEOUT_MS" d.stepTimeoutMs
           stepDelayMs := ← whole env "WORKFLOW_STEP_DELAY_MS" d.stepDelayMs
           modelTimeout := ← number env "WORKFLOW_ORACLE_TIMEOUT_S"
           home := (env.get? "WORKFLOW_HOME").getD d.home
           headless := truth env "WORKFLOW_HEADLESS" d.headless }

/-- The key for the model, without which it cannot be asked. -/
def key (s : Settings) : Except Fault String :=
  match s.apiKey with
  | none | some "" =>
    .error (.invalid "请设置环境变量 OPENAI_API_KEY，例如：export OPENAI_API_KEY='sk-...'")
  | some key => .ok key

end Settings

end BrowserFlow
