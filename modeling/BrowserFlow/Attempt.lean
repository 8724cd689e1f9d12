import BrowserFlow.Candidate
import BrowserFlow.Report
import BrowserFlow.Verification

/-!
# Attempts

One round: an instruction, the document made for it, what came of running that, and what was
learnt from it. The history of a run is the list of its attempts.
-/

namespace BrowserFlow

structure Attempt where
  intent : String
  document : String
  report : Option Report := none
  verification : Option Verification := none
  digest : Option Digest := none
  candidates : List Candidate := []
  /-- The number of the journal entry on the attempt. -/
  entryId : Option String := none
  analysis : Option String := none

namespace Attempt

def toValue (a : Attempt) : Value :=
  .record [("intent_text", .text a.intent), ("generated_document", .text a.document),
    ("execution_result", .ofOption Report.toValue a.report),
    ("verification", .ofOption Verification.toValue a.verification),
    ("digest", .ofOption Digest.toValue a.digest),
    ("candidates", .list (a.candidates.map Candidate.toValue)),
    ("run_log_id", .ofOption .text a.entryId), ("analysis", .ofOption .text a.analysis)]

/-- The attempt of a record. A digest that cannot be read is left out. -/
def ofRecord (v : Value) : Attempt :=
  { intent := (v.field "intent_text").textOr ""
    document := (v.field "generated_document").textOr ""
    report := (v.field "execution_result").present?.map Report.ofRecord
    verification := (v.field "verification").present?.map Verification.ofRecord
    digest := (v.field "digest").present?.bind fun d => (Digest.ofValue d).toOption
    candidates := (v.field "candidates").listed.map Candidate.ofRecord
    entryId := (v.field "run_log_id").text?
    analysis := (v.field "analysis").text? }

/-- An attempt in one line, under its number. -/
def line (number : Nat) (a : Attempt) : String :=
  let summary := match a.report with
    | some r => s!"{r.successfulSteps}/{r.totalSteps} 步成功"
    | none => "未执行"
  let verdict := (a.verification.map fun v => v.verdict.name).getD "-"
  s!"Attempt {number}: {a.intent} → {summary} ({verdict})"

end Attempt

namespace History

/-- The last attempts of a history, one in a line, under their numbers. -/
def describe (attempts : List Attempt) (last : Int := 5) : String :=
  if attempts.isEmpty then "(无历史)"
  else
    let start := ((attempts.length : Int) - last).toNat
    "\n".intercalate ((attempts.drop start).zipIdx.map fun (a, i) => a.line (start + i + 1))

end History

end BrowserFlow
