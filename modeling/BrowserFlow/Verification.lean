import BrowserFlow.Failure
import BrowserFlow.Text.Case
import BrowserFlow.Value.Basic

/-!
# Verifications

The judgement on what a document achieved, and how it is read from the model's answer. The answer
should hold a JSON object, perhaps among other text: what stands between the first opening and the
last closing brace is taken for it. If that is not JSON, the words of the answer have to do.
-/

namespace BrowserFlow

inductive Verdict
  | verified
  | failed
  /-- A script returned nothing where data was wanted. -/
  | emptyExtraction
  /-- The judgement was not available, and success is assumed. -/
  | assumed
  deriving Repr, DecidableEq, Inhabited

namespace Verdict

def all : List Verdict :=
  [verified, failed, emptyExtraction, assumed]

def name : Verdict → String
  | verified => "verified"
  | failed => "failed"
  | emptyExtraction => "empty_extraction"
  | assumed => "assumed"

def ofName? (s : String) : Option Verdict :=
  all.find? fun v => v.name == s

end Verdict

structure Verification where
  success : Bool
  analysis : String
  reason : String
  suggestions : List String := []
  verdict : Verdict := .verified
  assumed : Bool := false
  deriving Repr, DecidableEq, Inhabited

namespace Verification

def toValue (v : Verification) : Value :=
  .record [("success", .bool v.success), ("analysis", .text v.analysis), ("reason", .text v.reason),
    ("suggestions", .texts v.suggestions), ("verdict", .text v.verdict.name),
    ("assumed", .bool v.assumed)]

/-- The judgement of a record; without particulars it is a failure that nothing is said of. -/
def ofRecord (v : Value) : Verification :=
  { success := (v.field "success").boolOr false
    analysis := (v.field "analysis").textOr ""
    reason := (v.field "reason").textOr ""
    suggestions := (v.field "suggestions").listedTexts
    verdict := (Verdict.ofName? ((v.field "verdict").textOr "")).getD .verified
    assumed := (v.field "assumed").boolOr false }

/-- The most suggestions that are kept. -/
def maxSuggestions : Nat := 3

/-- The verdict of a judgement. -/
def verdictOf (success : Bool) : Verdict :=
  if success then .verified else .failed

/-- What stands between the first opening brace and the last closing brace behind it, with both. -/
def block? (answer : String) : Option String :=
  let tail := answer.toList.dropWhile (· != '\x7b')
  let body := (tail.reverse.dropWhile (· != '\x7d')).reverse
  if body.isEmpty then none else some (String.ofList body)

/-- A value as a text, or a default if it is false. -/
def textOr (v : Value) (default : String) : String :=
  if v.truthy then v.plainText else default

/-- The suggestions of an answer without the blank ones. -/
def suggestionsOf (v : Value) : Except Fault (List String) := do
  let items ← if v.truthy then v.members else pure []
  return (items.map fun s => Text.trim s.plainText).filter fun s => !s.isEmpty

/-- The judgement of a JSON object. -/
def ofObject (data : Value) : Except Fault Verification := do
  let success := (data.field "success").truthy
  let suggestions ← suggestionsOf (data.field "suggestions")
  return { success
           analysis := textOr (data.field "analysis") "无法分析执行结果"
           reason := textOr (data.field "reason") "未给出原因"
           suggestions := if success then [] else suggestions.take maxSuggestions
           verdict := verdictOf success }

/-- The judgement of an answer by its words. -/
def ofWords (answer : String) : Verification :=
  let lowered := Text.lower answer
  let success := Text.includes lowered "success" || Text.includes lowered "correct"
  { success, analysis := answer, reason := "无法解析结构化回复", verdict := verdictOf success }

/-- The judgement of the model's answer. -/
def ofAnswer (answer : String) : Except Fault Verification :=
  match (block? answer).map Json.read with
  | some (.ok (.map entries)) => ofObject (.map entries)
  | some (.error (.tooLong digits)) => .error (Json.ReadError.tooLong digits).toFault
  | _ => .ok (ofWords answer)

end Verification

end BrowserFlow
