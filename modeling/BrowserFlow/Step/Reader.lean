import BrowserFlow.Selector.Basic
import BrowserFlow.Step.Basic
import BrowserFlow.Step.Command
import BrowserFlow.Text.Case
import BrowserFlow.Value.Whole

/-!
# Reading steps

A step is written as a command with its argument: a text in the shorthand notation, or a mapping
of options. Both notations lead to the same steps. What is missing or of the wrong kind is refused
with its cause.
-/

namespace BrowserFlow

/-- Why an argument does not make a step. -/
inductive StepError
  /-- The argument is neither a text nor a mapping. -/
  | kind (command actual : String)
  /-- None of these options is given. -/
  | missing (command : String) (keys : List String)
  /-- The shorthand lacks one of its two parts. -/
  | shorthand (command : String)
  | emptyForm
  | waitForTruth
  | waitForNothing
  | selectNothing
  | storeNothing
  /-- An option that has to be a whole number is none. -/
  | whole (cause : WholeError)
  deriving Repr, DecidableEq

def StepError.message : StepError → String
  | kind command actual => s!"{command} 的参数必须是字符串或对象，实际为 {actual}"
  | missing command keys => command ++ " 缺少参数 " ++ "/".intercalate keys
  | shorthand command => command ++ " 简写需要 'selector 值' 两部分"
  | emptyForm => "fill.form 不能为空"
  | waitForTruth => "wait 的参数不能是布尔值"
  | waitForNothing => "wait 需要 selector、time/ms 或 url 之一"
  | selectNothing => "select 需要 value、label 或 index 之一"
  | storeNothing => "store 需要 selector 或 eval"
  | whole cause => cause.message

namespace Step

/-- A selector with its quotes in order; what is not a text stays as it is. -/
def selectorOf : Value → Value
  | .text s => .text (Selector.normalize s)
  | v => v

/-- Checks that an argument is a mapping. -/
def options (command : String) : Value → Except StepError Value
  | .map entries => .ok (.map entries)
  | v => .error (.kind command v.kindName)

/-- The first of some options that is given and not the empty text. -/
def required (command : String) (raw : Value) (keys : List String) : Except StepError Value :=
  let given := keys.findSome? fun key =>
    match raw.field key with
    | .null | .text "" => none
    | v => some v
  match given with
  | some v => .ok v
  | none => .error (.missing command keys)

/-- An option that is a whole number. -/
def whole (v : Value) : Except StepError Int :=
  v.toWhole.mapError .whole

/-- The time limit among the options. -/
def readLimit (raw : Value) : Except StepError (Option Int) :=
  match raw.field "timeout" with
  | .null => .ok none
  | v => (whole v).map some

/-- The first of two options that is true, or a default. -/
def firstOf (raw : Value) (first second : String) (default : Value) : Value :=
  firstTrue (raw.field first) (firstTrue (raw.field second) default)

/-- An option that is given, as a text. -/
def textOption (raw : Value) (key : String) : Option String :=
  match raw.field key with
  | .null => none
  | v => some v.plainText

/-- The two parts of a shorthand: what stands before the first space, and the rest. -/
def splitShorthand (command s : String) : Except StepError (Value × String) :=
  match Text.cutAt ' ' (Text.trim s) with
  | (selector, some rest) =>
    if selector.isEmpty || rest.isEmpty then .error (.shorthand command)
    else .ok (.text (Selector.normalize selector), rest)
  | _ => .error (.shorthand command)

def readNavigate : Value → Except StepError Step
  | .text s => .ok (.navigate (Text.trim s) (.text "load") none)
  | raw => do
    let raw ← options "navigate" raw
    let url ← required "navigate" raw ["url"]
    let waitUntil := firstOf raw "waitUntil" "wait_until" (.text "load")
    return .navigate (Text.trim url.plainText) waitUntil (← readLimit raw)

def readClick : Value → Except StepError Step
  | .text s => .ok (.click (.text (Selector.normalize s)) (.text "left") 1 none)
  | raw => do
    let raw ← options "click" raw
    let selector ← required "click" raw ["selector"]
    let clicks ← whole (firstOf raw "clickCount" "click_count" (.int 1))
    return .click (selectorOf selector) (firstTrue (raw.field "button") (.text "left")) clicks
      (← readLimit raw)

def readType : Value → Except StepError Step
  | .text s => do
    let (selector, text) ← splitShorthand "type" s
    return .typeText selector text 0 false none
  | raw => do
    let raw ← options "type" raw
    match textOption raw "text" with
    | none => throw (.missing "type" ["text"])
    | some text =>
      let selector ← required "type" raw ["selector"]
      let delay ← whole (firstTrue (raw.field "delay") (.int 0))
      let submit := (firstTrue (raw.field "submit") (raw.field "enter")).truthy
      return .typeText (selectorOf selector) text delay submit (← readLimit raw)

/-- The options of a wait: for an element, for a time, or for an address. -/
def readWaitOptions (raw : Value) : Except StepError Step := do
  if (raw.field "selector").truthy then
    let state := firstTrue (raw.field "state") (.text "visible")
    return .waitElement (selectorOf (raw.field "selector")) state (← readLimit raw)
  let time := if (raw.field "time").isNull then raw.field "ms" else raw.field "time"
  if !time.isNull then
    let ms ← whole time
    return .waitTime ms (← readLimit raw)
  if (raw.field "url").truthy then
    return .waitUrl (raw.field "url").plainText (← readLimit raw)
  throw .waitForNothing

def readWait : Value → Except StepError Step
  | .bool _ => .error .waitForTruth
  | .int n => .ok (.waitTime n none)
  | .float x => do return .waitTime (← whole (.float x)) none
  | .text s => .ok (.waitElement (.text (Selector.normalize s)) (.text "visible") none)
  | raw => do readWaitOptions (← options "wait" raw)

def readScreenshot : Value → Except StepError Step
  | .null => .ok (.screenshot (.text "screenshot.png") true (.text "png"))
  | .text s => .ok (.screenshot (.text (Text.trim s)) true (.text "png"))
  | raw => do
    let raw ← options "screenshot" raw
    let path := firstOf raw "path" "filename" (.text "screenshot.png")
    let full := match raw.field? "fullPage" with
      | some v => v
      | none => (raw.field? "full_page").getD (.bool true)
    let fullPage := match full with
      | .bool b => b
      | _ => true
    return .screenshot path fullPage (firstTrue (raw.field "type") (.text "png"))

/-- An option that is true, as a text. -/
def trueOption (raw : Value) (key : String) : Option String :=
  if (raw.field key).truthy then some (raw.field key).plainText else none

def readEvaluate : Value → Except StepError Step
  | .text s => .ok (.evaluate s none none)
  | raw => do
    let raw ← options "evaluate" raw
    let script ← required "evaluate" raw ["script", "code", "expression"]
    return .evaluate script.plainText (trueOption raw "format") (trueOption raw "filename")

def readHover : Value → Except StepError Step
  | .text s => .ok (.hover (.text (Selector.normalize s)) .null none)
  | raw => do
    let raw ← options "hover" raw
    let selector ← required "hover" raw ["selector"]
    return .hover (selectorOf selector) (raw.field "position") (← readLimit raw)

def readChoice (raw : Value) : Except StepError Choice := do
  if let some s := textOption raw "value" then return .value s
  if let some s := textOption raw "label" then return .label s
  match raw.field "index" with
  | .null => throw .selectNothing
  | v => return .index (← whole v)

def readSelect : Value → Except StepError Step
  | .text s => do
    let (selector, value) ← splitShorthand "select" s
    return .select selector (.value value) none
  | raw => do
    let raw ← options "select" raw
    let selector ← required "select" raw ["selector"]
    let choice ← readChoice raw
    return .select (selectorOf selector) choice (← readLimit raw)

/-- The field of a form under its name. -/
def namedField (entry : Value × Value) : FormField :=
  { selector := .text ("[name=\"" ++ entry.1.plainText ++ "\"]")
    value := if entry.2.isNull then "" else entry.2.plainText }

def readFill : Value → Except StepError Step
  | .text s => do
    let (selector, value) ← splitShorthand "fill" s
    return .fillForm [⟨selector, value⟩] none
  | raw => do
    let raw ← options "fill" raw
    let fields ← match raw.field "form" with
      | .map [] => throw .emptyForm
      | .map entries => pure (entries.map namedField)
      | _ => do
        let selector ← required "fill" raw ["selector"]
        match textOption raw "value" with
        | none => throw (.missing "fill" ["value"])
        | some value => pure [⟨selectorOf selector, value⟩]
    return .fillForm fields (← readLimit raw)

/-- A percentage without its sign, if the text is made of digits. -/
def percent? (cs : List Char) : Option (Except StepError Step) :=
  let s := String.ofList cs
  if Text.isFigures s then some ((whole (.text s)).map .scrollTo) else none

/-- The shorthand of a scroll: the top, a percentage, or anything else for the bottom. -/
def readScrollText (s : String) : Except StepError Step :=
  let text := Text.lower (Text.trim s)
  if text == "top" then .ok (.scrollTo 0)
  else
    let cs := text.toList
    let percentage := if cs.getLast? = some '%' then percent? cs.dropLast else none
    percentage.getD (.ok (.scrollTo 100))

def readScroll : Value → Except StepError Step
  | .null => readScrollText ""
  | .text s => readScrollText s
  | raw => do
    let raw ← options "scroll" raw
    if (raw.field "selector").truthy then
      return .scrollElement (selectorOf (raw.field "selector"))
    if !(raw.field "by").isNull then return .scrollBy (← whole (raw.field "by"))
    match textOption raw "to" with
    | none => return .scrollTo 100
    | some target =>
      let target := Text.trim target
      match percent? (Text.dropEndWhile (· = '%') target.toList) with
      | some step => step
      | none => return .scrollElement (.text (Selector.normalize target))

def readAssert : Value → Except StepError Step
  | .text s => .ok (.assert (.text (Selector.normalize s)) none none true none)
  | raw => do
    let raw ← options "assert" raw
    let selector ← required "assert" raw ["selector"]
    let visible := (raw.field "visible").isNull || (raw.field "visible").truthy
    return .assert (selectorOf selector) (textOption raw "text") (textOption raw "value") visible
      (← readLimit raw)

def readStore (raw : Value) : Except StepError Step := do
  let raw ← options "store" raw
  let name := (← required "store" raw ["as", "name"]).plainText
  if (raw.field "selector").truthy then
    let property := firstTrue (raw.field "property") (.text "textContent")
    return .storeElement name (selectorOf (raw.field "selector")) property (raw.field "attribute")
  let script := firstTrue (raw.field "eval") (raw.field "script")
  if script.truthy then return .storeScript name script.plainText else throw .storeNothing

def readPress : Value → Except StepError Step
  | .text s => .ok (.press (Text.trim s) .null)
  | raw => do
    let raw ← options "press" raw
    let key ← required "press" raw ["key"]
    let selector := raw.field "selector"
    return .press key.plainText (if selector.truthy then selectorOf selector else .null)

/-- When a page counts as loaded after going back or loading anew. -/
def readLoadEvent : Value → Value
  | .map entries => firstOf (.map entries) "waitUntil" "wait_until" (.text "load")
  | _ => .text "load"

/-- The step of a command with an argument. -/
def read : Command → Value → Except StepError Step
  | .navigate, raw => readNavigate raw
  | .click, raw => readClick raw
  | .typeText, raw => readType raw
  | .wait, raw => readWait raw
  | .screenshot, raw => readScreenshot raw
  | .evaluate, raw => readEvaluate raw
  | .hover, raw => readHover raw
  | .select, raw => readSelect raw
  | .fillForm, raw => readFill raw
  | .scroll, raw => readScroll raw
  | .assert, raw => readAssert raw
  | .store, raw => readStore raw
  | .press, raw => readPress raw
  | .back, raw => .ok (.back (readLoadEvent raw))
  | .reload, raw => .ok (.reload (readLoadEvent raw))

end Step

end BrowserFlow
