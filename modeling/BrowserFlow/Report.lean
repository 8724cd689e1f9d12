import BrowserFlow.Value.Basic

/-!
# Reports

What came of each step of a document, and of all of them together.
-/

namespace BrowserFlow

/-- What came of one step. -/
structure StepReport where
  number : Int
  kind : String
  success : Bool
  durationMs : Int
  /-- The arguments by name, with the placeholders filled in. -/
  arguments : Value := .map []
  output : Option String := none
  error : Option String := none
  deriving Inhabited

/-- What came of a document. -/
structure Report where
  totalSteps : Int
  successfulSteps : Int
  failedSteps : Int
  totalDurationMs : Int
  steps : List StepReport
  /-- The number of steps that the document has. -/
  plannedSteps : Int
  /-- The run ended at the first failure. -/
  aborted : Bool
  deriving Inhabited

namespace StepReport

def toValue (s : StepReport) : Value :=
  .record [("step_number", .int s.number), ("kind", .text s.kind), ("success", .bool s.success),
    ("duration_ms", .int s.durationMs), ("arguments", s.arguments),
    ("output", .ofOption .text s.output), ("error", .ofOption .text s.error)]

/-- The report of a record; a step without particulars is a script that ran well. -/
def ofRecord (v : Value) : StepReport :=
  { number := (v.field "step_number").wholeOr 1
    kind := (v.field "kind").textOr "evaluate"
    success := (v.field "success").boolOr true
    durationMs := (v.field "duration_ms").wholeOr 0
    arguments := v.part "arguments" id (.map [])
    output := (v.field "output").text?
    error := (v.field "error").text? }

/-- The script of a step that evaluates one. -/
def script? (s : StepReport) : Option String :=
  match s.arguments.field "script" with
  | .text script => some script
  | _ => none

end StepReport

namespace Report

/-- The report on the steps of a document with `planned` steps that took `totalMs` in all. -/
def ofSteps (steps : List StepReport) (totalMs : Int) (planned : Nat) (aborted : Bool) : Report :=
  let successful := steps.countP (·.success)
  { totalSteps := steps.length
    successfulSteps := successful
    failedSteps := steps.length - successful
    totalDurationMs := totalMs
    steps
    plannedSteps := planned
    aborted }

/-- No step failed. -/
def success (r : Report) : Bool :=
  r.failedSteps == 0

def toValue (r : Report) : Value :=
  .record [("total_steps", .int r.totalSteps), ("successful_steps", .int r.successfulSteps),
    ("failed_steps", .int r.failedSteps), ("total_duration_ms", .int r.totalDurationMs),
    ("steps", .list (r.steps.map StepReport.toValue)), ("planned_steps", .int r.plannedSteps),
    ("aborted", .bool r.aborted), ("success", .bool r.success)]

/-- The report of a record; numbers that it lacks are counted. -/
def ofRecord (v : Value) : Report :=
  let steps := (v.field "steps").listed.map StepReport.ofRecord
  let r := ofSteps steps 0 steps.length false
  { r with
    totalSteps := (v.field "total_steps").wholeOr r.totalSteps
    successfulSteps := (v.field "successful_steps").wholeOr r.successfulSteps
    failedSteps := (v.field "failed_steps").wholeOr r.failedSteps
    totalDurationMs := (v.field "total_duration_ms").wholeOr r.totalDurationMs
    plannedSteps := (v.field "planned_steps").wholeOr r.plannedSteps
    aborted := (v.field "aborted").boolOr r.aborted }

/-- The steps that failed. -/
def failures (r : Report) : List StepReport :=
  r.steps.filter fun s => !s.success

/-- A summary for people. -/
def summary (r : Report) : String :=
  let head := ["📊 执行汇总:", s!"   总步数: {r.totalSteps}", s!"   ✓ 成功: {r.successfulSteps}",
    s!"   ❌ 失败: {r.failedSteps}", s!"   ⏱ 耗时: {r.totalDurationMs}ms"]
  let failed := r.failures.map fun s =>
    s!"   Step {s.number} ({s.kind}): " ++ s.error.getD "None"
  "\n".intercalate (head ++ if failed.isEmpty then [] else "失败步骤:" :: failed)

end Report

end BrowserFlow
