import BrowserFlow.Json.Reader
import BrowserFlow.Report
import BrowserFlow.Selector.Hint
import BrowserFlow.Step.Reader
import BrowserFlow.Yaml.Error

/-!
# Failures

Every way in which an operation can fail. The library's own refusals carry their causes and word
their messages here. A fault is anything else: an error on the page, a file that is not there, a
record that is not what it should be.
-/

namespace BrowserFlow

/-- Why a document is refused. -/
inductive DocumentCause
  /-- The document is not a list of steps but a value of some other kind. -/
  | notSteps (kind : String)
  | malformed
  | notAStep
  | argument (cause : StepError)
  | unknownCommand (name : String)
  /-- One of two documents that are to be joined is not a list of steps. -/
  | notJoinable
  | stated (message : String)

def DocumentCause.message : DocumentCause → String
  | notSteps kind => "工作流必须是步骤列表，实际为 " ++ kind
  | malformed => "YAML 语法错误: <yaml>"
  | notAStep => "每一步必须是包含命令的映射"
  | argument cause => cause.message
  | unknownCommand name => s!"未知命令 '{name}'"
  | notJoinable => "合并的两个工作流都必须是步骤列表"
  | stated message => message

/-- A document is refused before any of it is run. -/
structure DocumentFailure where
  cause : DocumentCause
  /-- The number of the step at fault. -/
  place : Option Int := none
  /-- The text or the value at fault. -/
  source : Option String := none

def DocumentFailure.message (f : DocumentFailure) : String :=
  match f.place with
  | some n => s!"第 {n} 步: " ++ f.cause.message
  | none => f.cause.message

/-- How a step failed. -/
inductive ActionCause
  | stated (message : String)
  /-- The time limit of the step, in milliseconds, was exceeded. -/
  | timedOut (limit : Int)

/-- A step failed. The target is a text, or nothing: a value that is false. -/
structure ActionFailure where
  place : Int
  kind : String
  cause : ActionCause
  target : Value
  /-- What had been done when the run ended there. -/
  result : Option Report := none

namespace ActionFailure

/-- The target as a text; the empty text stands for none. -/
def targetText (f : ActionFailure) : String :=
  match f.target with
  | .text s => s
  | _ => ""

/-- What went wrong. -/
def reason (f : ActionFailure) : String :=
  match f.cause with
  | .stated message => message
  | .timedOut limit =>
    let what := if f.targetText.isEmpty then "条件" else f.targetText
    s!"等待 {what} 超时 (timeout={limit}ms)"

/-- Advice on what to change. -/
def tip (f : ActionFailure) : String :=
  Hint.forError f.reason f.targetText f.kind

def message (f : ActionFailure) : String :=
  let named := f.targetText.isEmpty || Text.includes f.reason f.targetText
  s!"第 {f.place} 步 ({f.kind}) 失败: " ++ f.reason ++
    (if named then "" else " [" ++ f.targetText ++ "]") ++ "\n💡 " ++ f.tip

end ActionFailure

/-- Anything that is not as an operation needs it. -/
inductive Fault
  /-- The page reports an error. -/
  | page (message : String)
  /-- What is expected of the page does not hold. -/
  | unmet (message : String)
  /-- The page waited in vain. -/
  | late (message : String)
  /-- The time for an operation is over. -/
  | cut
  /-- A value is of a kind that an operation does not take. -/
  | kind (message : String)
  /-- A record lacks a field, which is given in its literal form. -/
  | absent (key : String)
  /-- A value of some kind has no such part. -/
  | part (kind name : String)
  /-- A value is of the right kind, but not one that an operation takes. -/
  | invalid (message : String)
  | position
  | tooLarge (message : String)
  /-- A text is not JSON. -/
  | notJson
  /-- A text is not YAML. -/
  | notYaml
  /-- There is no such file. -/
  | noFile
  /-- There is a folder in the place of a file. -/
  | folder
  /-- There is a file in the place of a folder. -/
  | occupied
  /-- The input has no line left. -/
  | endOfInput

def Fault.message : Fault → String
  | page m | unmet m | late m | kind m | invalid m | tooLarge m => m
  | cut => ""
  | absent key => key
  | part owner name => s!"'{owner}' object has no attribute '{name}'"
  | position => "string index out of range"
  | notJson => "Expecting value"
  | notYaml => "<yaml>"
  | noFile | folder | occupied => "<os error>"
  | endOfInput => "no more input"

/-- Whether a fault comes from files and folders. -/
def Fault.ofDisk : Fault → Bool
  | noFile | folder | occupied => true
  | _ => false

/-- What is reported of a fault on the page that has no message. -/
def Fault.title : Fault → String
  | unmet _ => "AssertionError"
  | _ => "RuntimeError"

/-- Why no document was generated. -/
inductive GenerationCause
  /-- The model gave no answer. -/
  | noAnswer (reason : String)
  | invalid (cause : DocumentFailure)
  | stated (message : String)

/-- No document was generated; the model's answer is kept if there was one. -/
structure GenerationFailure where
  cause : GenerationCause
  raw : Option String := none

def GenerationFailure.message (f : GenerationFailure) : String :=
  let what := match f.cause with
    | .noAnswer reason => "模型调用失败: " ++ reason
    | .invalid cause => "生成的工作流无效: " ++ cause.message
    | .stated message => message
  match f.raw with
  | none | some "" => what
  | some raw => what ++ "\n\n原始输出:\n" ++ raw

inductive Failure
  | document (f : DocumentFailure)
  | action (f : ActionFailure)
  | generation (f : GenerationFailure)
  /-- The result could not be judged. -/
  | verification (reason : String) (raw : Option String)
  /-- No workflow has this name or number. -/
  | notFound (name : String)
  /-- Nothing has been accepted that could be continued. -/
  | notAccepted
  | fault (f : Fault)

def Failure.message : Failure → String
  | document f => f.message
  | action f => f.message
  | generation f => f.message
  | verification reason _ => reason
  | notFound name => "找不到工作流: " ++ name
  | notAccepted => "只有在工作流被接受之后才能续写"
  | fault f => f.message

/-- The fault behind a text that spells out a value that does not exist. -/
def Yaml.Error.toFault : Yaml.Error → Fault
  | malformed => .notYaml
  | codePoint huge =>
    if huge then .tooLarge "signed integer is greater than maximum"
    else .invalid "chr() arg not in range(0x110000)"
  | calendar cause => .invalid cause.message
  | notAMoment => .part "NoneType" "groupdict"
  | whole cause => .invalid cause.message
  | double literal => .invalid ("could not convert string to float: " ++ literal)
  | noNumber => .position
  | truth => .absent "''"

/-- The fault behind a text that is not read as JSON. -/
def Json.ReadError.toFault : Json.ReadError → Fault
  | malformed => .notJson
  | tooLong digits => .invalid (WholeError.message (.tooLong digits))

/-- The items of a value that can be gone through: those of a list, the characters of a text, the
keys of a mapping. -/
def Value.members (v : Value) : Except Fault (List Value) :=
  match v with
  | .list items | .set items => .ok items
  | .text s => .ok (s.toList.map fun c => .text (String.singleton c))
  | .map entries => .ok (entries.map (·.1))
  | .pair a b => .ok [a, b]
  | .bytes data => .ok (data.map fun b => .int b.toNat)
  | v => .error (.kind s!"'{v.kindName}' object is not iterable")

/-- A field of a record that has to be there. -/
def Value.required (v : Value) (key : String) : Except Fault Value :=
  match v with
  | .map entries =>
    match Value.lookup entries (.text key) with
    | some x => .ok x
    | none => .error (.absent (Text.quoted key))
  | .text _ => .error (.kind "string indices must be integers, not 'str'")
  | .list _ => .error (.kind "list indices must be integers or slices, not str")
  | v => .error (.kind s!"'{v.kindName}' object is not subscriptable")

/-- A value that is a record with all of the required fields and no others than those and the
optional ones. -/
def Value.exactly (required optional : List String) (v : Value) : Except Fault Value :=
  match v with
  | .map entries =>
    let names := entries.map fun e => e.1.plainText
    match names.find? fun n => !(required.contains n || optional.contains n),
        required.find? fun n => !names.contains n with
    | some n, _ => .error (.kind ("unexpected field " ++ Text.quoted n))
    | none, some n => .error (.kind ("missing field " ++ Text.quoted n))
    | none, none => .ok v
  | v => .error (.kind s!"'{v.kindName}' object is not a mapping")

end BrowserFlow
