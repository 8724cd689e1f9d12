import BrowserFlow.Digest.Basic
import BrowserFlow.Extraction.Query
import BrowserFlow.Extraction.Summary

/-!
# Entries of the journal

The record of one run of a document: what came of each of its steps in short, and the report on it
in full. An entry that is read back may hold anything in its fields, but a step has to have the
fields of a step.
-/

namespace BrowserFlow.Journal

/-- What came of a step, in short. -/
structure StepEntry where
  number : Value
  kind : Value
  ok : Value
  durationMs : Value
  /-- Why the step failed. -/
  why : Value := .null
  /-- What a script looked for. -/
  selector : Value := .null
  /-- How many items a script found. -/
  found : Value := .null

/-- The text of an error, or a word for one that has none. -/
def errorText (s : StepReport) : String :=
  match s.error with
  | none | some "" => "Failed"
  | some e => e

/-- The number of items that a script found. -/
def foundBy? (s : StepReport) : Option Nat :=
  match s.output with
  | none | some "" => none
  | some output => Extraction.found? output

/-- Why some steps failed. -/
def failureReason (steps : List StepReport) : String :=
  let failed := steps.filter fun s => !s.success
  if failed.isEmpty then "Unknown"
  else "; ".intercalate (failed.map fun s => s!"Step {s.number} ({s.kind}): " ++ errorText s)

namespace StepEntry

/-- A step of a report in short. -/
def ofReport (s : StepReport) : StepEntry :=
  let isScript := s.kind == "evaluate"
  { number := .int s.number
    kind := .text s.kind
    ok := .bool s.success
    durationMs := .int s.durationMs
    why := if s.success then .null else .text (errorText s)
    selector := if isScript then .ofOption .text (Extraction.stepQuery? s) else .null
    found := if isScript then .ofOption (fun n : Nat => .int n) (foundBy? s) else .null }

def toValue (s : StepEntry) : Value :=
  .record [("n", s.number), ("cmd", s.kind), ("ok", s.ok), ("duration_ms", s.durationMs),
    ("why", s.why), ("selector", s.selector), ("found", s.found)]

def ofValue (v : Value) : Except Fault StepEntry := do
  let v ← v.exactly ["n", "cmd", "ok", "duration_ms"] ["why", "selector", "found"]
  return { number := v.field "n"
           kind := v.field "cmd"
           ok := v.field "ok"
           durationMs := v.field "duration_ms"
           why := v.field "why"
           selector := v.field "selector"
           found := v.field "found" }

/-- A step for people. -/
def lines (s : StepEntry) : List String :=
  let mark := if s.ok.truthy then "✓" else "❌"
  [s!"  {mark} Step {s.number.plainText}: {s.kind.plainText}"] ++
    (if !s.ok.truthy && s.why.truthy then ["     Error: " ++ s.why.plainText] else []) ++
    (if s.selector.truthy then ["     Selector: " ++ s.selector.plainText] else []) ++
    (if s.found.isNull then [] else [s!"     Found: {s.found.plainText} items"])

end StepEntry

/-- The record of a run. -/
structure Entry where
  id : Value
  /-- The time in seconds at which the entry was made. -/
  timestamp : Value := .float 0
  /-- The address of the page after the run. -/
  url : Value := .text ""
  digest : Value := .null
  report : Value := .map []
  steps : List StepEntry := []
  success : Value := .bool true
  failureReason : Value := .null
  elapsedMs : Value := .int 0
  /-- The saved workflow that was run. -/
  workflowId : Value := .null
  analysis : Value := .null

namespace Entry

/-- The entry on a report. -/
def ofReport (id : String) (timestamp : Float) (r : Report) (url : Value) (digest : Option Digest)
    (workflowId analysis : Value) : Entry :=
  { id := .text id
    timestamp := .float timestamp
    url
    digest := .ofOption Digest.toValue digest
    report := r.toValue
    steps := r.steps.map StepEntry.ofReport
    success := .bool r.success
    failureReason := if r.success then .null else .text (Journal.failureReason r.steps)
    elapsedMs := .int r.totalDurationMs
    workflowId
    analysis }

def toValue (e : Entry) : Value :=
  .record [("id", e.id), ("timestamp", e.timestamp), ("url", e.url), ("dom_digest", e.digest),
    ("execution_result", e.report), ("steps", .list (e.steps.map StepEntry.toValue)),
    ("success", e.success), ("failure_reason", e.failureReason), ("elapsed_ms", e.elapsedMs),
    ("workflow_id", e.workflowId), ("analysis", e.analysis)]

/-- An entry from its record. Only the number has to be there. -/
def ofValue (v : Value) : Except Fault Entry := do
  let id ← v.required "id"
  let get := fun key default => (v.field? key).getD default
  let steps ← (← (get "steps" (.list [])).members).mapM StepEntry.ofValue
  return { id
           timestamp := get "timestamp" (.float 0)
           url := get "url" (.text "")
           digest := get "dom_digest" .null
           report := get "execution_result" (.map [])
           steps
           success := get "success" (.bool true)
           failureReason := get "failure_reason" .null
           elapsedMs := get "elapsed_ms" (.int 0)
           workflowId := get "workflow_id" .null
           analysis := get "analysis" .null }

/-- An entry for people. -/
def description (e : Entry) : String :=
  let head := ["Run ID: " ++ e.id.plainText, "URL: " ++ e.url.plainText,
    "Success: " ++ e.success.plainText, s!"Duration: {e.elapsedMs.plainText}ms", "", "Steps:"]
  let failure :=
    if e.failureReason.truthy then ["", "Failure: " ++ e.failureReason.plainText] else []
  "\n".intercalate (head ++ e.steps.flatMap StepEntry.lines ++ failure)

end Entry

end BrowserFlow.Journal
