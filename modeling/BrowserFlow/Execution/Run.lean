import BrowserFlow.Execution.Perform
import BrowserFlow.Step.Command

/-!
# Running the steps of a document

The actions of a document are taken in order, each with the placeholders filled in from the
variables and from what earlier steps have stored. A step that fails leaves its failure in the
report and the run goes on; in a strict run the first failure ends it. What is not the failure of
a step, such as a command that nobody handles, ends every run.
-/

namespace BrowserFlow

/-- How steps are carried out. -/
structure Executor where
  registry : Registry := .standard
  /-- The usual time limit of a step in milliseconds. -/
  timeoutMs : Int := 30000
  /-- The pause between two steps in milliseconds. -/
  delayMs : Int := 100
  /-- Where extracted data is kept. -/
  data : Option DataFolder := none

/-- What belongs to one run. -/
structure RunRequest where
  /-- The run ends at the first failure. -/
  strict : Bool := false
  env : Env := []
  instruction : Option String := none

namespace Execution

/-- How much longer than its own time limit a step may take. -/
def graceMs : Int := 1000

/-- The characters of an output that are kept. -/
def outputLength : Nat := 500

/-- The number of milliseconds from which on a time is too long to be told in seconds. -/
def timeBound : Nat :=
  1000 * (Nat.pow 2 1024 - Nat.pow 2 970)

/-- Whether a target can be named: it is a text, or nothing. -/
def isNameable (target : Value) : Bool :=
  target.isText || !target.truthy

/-- What the failure of a step is for a fault. -/
def causeOf (timeout : Int) (f : Fault) : ActionCause :=
  match f with
  | .cut | .late _ => .timedOut timeout
  | f =>
    let message := Text.trim f.message
    .stated (if message.isEmpty then f.title else message)

/-- The failure of a step after a fault. A target that cannot be named is itself a fault. -/
def failureOf (number : Nat) (action : Action) (timeout : Int) (f : Fault) : Failure :=
  match action.step.target? with
  | none => .fault (.kind "sequence item 0: expected str instance")
  | some target =>
    if isNameable target then
      .action { place := number, kind := action.kind, cause := causeOf timeout f, target }
    else .fault (.kind
      s!"'in <string>' requires string as left operand, not {target.kindName}")

/-- What an action does on the page within its time. -/
def act (e : Executor) (instruction : Option String) (action : Action) :
    Effect Fault World StepOutcome := do
  let timeout := action.step.timeout e.timeoutMs
  let bound := timeout + graceMs
  if timeBound ≤ bound.natAbs then
    throw (.tooLarge "integer division result too large for a float")
  World.within bound fun limit => action.step.perform ⟨e.data, instruction⟩ limit timeout

/-- Takes one action. -/
def take (e : Executor) (instruction : Option String) (number : Nat) (action : Action) :
    Effect Failure World StepOutcome := do
  if (e.registry.get? action.kind).isNone then
    throw (.document { cause := .unknownCommand action.kind, place := some number })
  Effect.mapError (failureOf number action (action.step.timeout e.timeoutMs))
    (act e instruction action)

/-- What came of a step: its report, what it stored, and the failure of a step that failed. -/
structure Taken where
  report : StepReport
  stored : Option (String × Value) := none
  failure : Option ActionFailure := none

/-- What is reported on an action that took some milliseconds. What is not the failure of a step
cannot be. -/
def Taken.ofOutcome (number : Nat) (action : Action) (ms : Int) :
    Except Failure StepOutcome → Except Failure Taken :=
  let base : StepReport :=
    { number, kind := action.kind, success := true, durationMs := ms
      arguments := Value.record action.step.arguments }
  fun
  | .ok o => .ok
    { report := { base with output := some (Text.clip outputLength o.output) }
      stored := o.stored }
  | .error (.action f) => .ok
    { report := { base with success := false, error := some f.message }
      failure := some f }
  | .error f => .error f

/-- The line that is printed after a step. -/
def progressLine (total : Nat) (t : Taken) : String :=
  let place := s!"[{t.report.number}/{total}] {t.report.kind}: "
  match t.failure with
  | some f => "❌ " ++ place ++ f.message
  | none => "✓ " ++ place ++ t.report.output.getD ""

/-- Takes one action and reports on it. -/
def report (e : Executor) (instruction : Option String) (total number : Nat) (action : Action) :
    Effect Failure World Taken := do
  let start := (← get).clock
  let outcome ← Effect.attempt (take e instruction number action)
  let ms : Int := ((← get).clock : Int) - start
  let taken ← Effect.lift (Taken.ofOutcome number action ms outcome)
  World.print (progressLine total taken)
  return taken

/-- Lets the pause after a step pass; none follows the last step. -/
def pause (e : Executor) (total number : Nat) : World → World :=
  fun w => if number < total then { w with clock := w.clock + e.delayMs.toNat } else w

/-- What came of some actions: the reports, what has been stored, and the failure that ended the
run before its end. -/
structure Progress where
  steps : List StepReport
  context : Table Value
  ended : Option Failure := none

/-- The table after a step. -/
def keep (context : Table Value) : Option (String × Value) → Table Value
  | some (name, value) => context.put name value
  | none => context

/-- An action with the placeholders filled in. -/
def fill (request : RunRequest) (context : Table Value) (action : Action) : Action :=
  { action with step := action.step.substitute (Table.overlay request.env context) }

/-- Takes the actions of a document from some number on. -/
def runFrom (e : Executor) (request : RunRequest) (total : Nat) :
    (number : Nat) → Table Value → List Action → World → Progress × World
  | _, context, [], w => ({ steps := [], context }, w)
  | number, context, action :: rest, w =>
    match (report e request.instruction total number (fill request context action)).run w with
    | (.error f, w) => ({ steps := [], context, ended := some f }, w)
    | (.ok taken, w) =>
      match request.strict, taken.failure with
      | true, some f => ({ steps := [taken.report], context, ended := some (.action f) }, w)
      | _, _ =>
        let (p, w) := runFrom e request total (number + 1) (keep context taken.stored) rest
          (pause e total number w)
        ({ p with steps := taken.report :: p.steps }, w)

/-- The line that is printed after a run in which steps failed. -/
def closingLine (r : Report) : String :=
  s!"⚠ 完成 {r.totalSteps} 步：成功 {r.successfulSteps}，失败 {r.failedSteps}"

/-- Runs the actions of a document: the report on them and what has been stored. A failure that
ended a strict run carries the report on the steps until then. -/
def run (e : Executor) (request : RunRequest) (context : Table Value) (actions : List Action)
    (w : World) : (Except Failure Report × Table Value) × World :=
  let total := actions.length
  let (p, after) := runFrom e request total 1 context actions w
  let elapsed : Int := (after.clock : Int) - w.clock
  match p.ended with
  | some (.action f) =>
    let partly := Report.ofSteps p.steps elapsed total true
    ((.error (.action { f with result := some partly }), p.context), after)
  | some f => ((.error f, p.context), after)
  | none =>
    let r := Report.ofSteps p.steps elapsed total false
    ((.ok r, p.context),
      if r.success then after else { after with printed := after.printed ++ closingLine r ++ "\n" })

end Execution

end BrowserFlow
