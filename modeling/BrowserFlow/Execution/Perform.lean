import BrowserFlow.Extraction.Saving
import BrowserFlow.Step.Basic

/-!
# What a step does on the page

A step makes its calls and says in a line what it did. A step that stores a value names the value
and leaves it to the run to keep it. The results of scripts are kept in files where a folder is
given for them; data that cannot be kept there is still a result.
-/

namespace BrowserFlow

/-- What a step did. -/
structure StepOutcome where
  output : String
  /-- The value that is to be stored, with its name. -/
  stored : Option (String × Value) := none

/-- What steps are given beside the page. -/
structure Scene where
  /-- Where extracted data is kept. -/
  data : Option DataFolder := none
  /-- The instruction, which may name a format for data. -/
  instruction : Option String := none

namespace Step

open World (call)

/-- Presses a key, on an element if there is a selector. -/
def pressOn (limit : Option Nat) (timeout : Int) (key : String) (selector : Value) :
    Effect Fault World Unit := do
  let _ ← call limit (if selector.truthy then .press selector key timeout else .keyboard key)

/-- Fills form fields one after the other. -/
def fillFields (limit : Option Nat) (timeout : Int) : List FormField → Effect Fault World Unit
  | [] => return
  | f :: rest => do
    let _ ← call limit (.fill f.selector f.value timeout)
    fillFields limit timeout rest

/-- The text of a value from the page. -/
def textFrom (v : Value) : Except Fault String :=
  match v with
  | .text s => .ok s
  | v => .error (.part v.kindName "strip")

/-- Expects an element to hold a text. -/
def expectText (limit : Option Nat) (selector : Value) (text : String) :
    Effect Fault World Unit := do
  let actual := Text.trim (← Effect.lift (textFrom (← call limit (.innerText selector 0))))
  if !Text.includes actual text then
    throw (.unmet s!"文本不匹配: 期望包含 '{text}'，实际 '{Text.clip 80 actual}'")

/-- Expects an input field to have a value. -/
def expectValue (limit : Option Nat) (selector : Value) (value : String) :
    Effect Fault World Unit := do
  let actual ← call limit (.inputValue selector)
  if !actual.same (.text value) then
    throw (.unmet s!"值不匹配: 期望 '{value}'，实际 '{actual.plainText}'")

/-- The characters of a text that are not blanks at its ends; any other value as it is. -/
def trimmed : Value → Value
  | .text s => .text (Text.trim s)
  | v => v

/-- Runs a script and keeps what it returns. -/
def extract (scene : Scene) (limit : Option Nat) (script : String)
    (format filename : Option String) : Effect Fault World StepOutcome := do
  let result ← call limit (.evaluate script none)
  let output := Extraction.summary result
  match scene.data, Extraction.isData result with
  | some folder, true =>
    match ← Effect.attempt (folder.save scene.instruction result format filename) with
    | .ok path => return { output := output ++ " - saved to " ++ path }
    | .error f =>
      if !f.ofDisk then throw f
      World.warn ("提取数据保存失败: " ++ f.message)
      return { output }
  | _, _ => return { output }

/-- The script that scrolls by some pixels. -/
def scrollByScript : String := "(px) => window.scrollBy(0, px)"

/-- The script that scrolls to some percentage of the height of the page. -/
def scrollToScript : String :=
  "(p) => window.scrollTo(0, document.body.scrollHeight * p / 100)"

/-- Carries out a step whose calls have a time limit, within a limit for the whole of it. -/
def perform (scene : Scene) (limit : Option Nat) (timeout : Int) :
    Step → Effect Fault World StepOutcome
  | navigate url waitUntil _ => do
    let _ ← call limit (.goto url [waitUntil, .int timeout])
    return { output := "Navigated to " ++ url }
  | click s button clicks _ => do
    let _ ← call limit (.click s button clicks timeout)
    return { output := "Clicked " ++ s.plainText }
  | typeText s text delay submit _ => do
    let _ ← call limit (.type s text delay timeout)
    if submit then pressOn limit timeout "Enter" s
    return { output := "Typed \"" ++ text ++ "\" into " ++ s.plainText }
  | waitTime ms _ => do
    let _ ← call limit (.waitForTime ms)
    return { output := s!"Waited {ms}ms" }
  | waitElement s state _ => do
    if s.truthy then
      let _ ← call limit (.waitForSelector s state timeout)
    return { output := "Waited for selector: " ++ s.plainText }
  | waitUrl url _ => do
    if !url.isEmpty then
      let _ ← call limit (.waitForUrl url timeout)
    return { output := "Waited for URL: " ++ url }
  | screenshot path fullPage format => do
    let _ ← call limit (.screenshot path fullPage format)
    return { output := "Screenshot saved to " ++ path.plainText }
  | evaluate script format filename => extract scene limit script format filename
  | hover s position _ => do
    let _ ← call limit (.hover s (if position.truthy then position else .null) timeout)
    return { output := "Hovered over " ++ s.plainText }
  | select s choice _ => do
    let _ ← call limit (.selectOption s choice.toValue timeout)
    return { output := "Selected " ++ choice.toValue.plainText ++ " in " ++ s.plainText }
  | fillForm fields _ => do
    fillFields limit timeout fields
    return { output := s!"Filled {fields.length} field(s)" }
  | scrollElement s => do
    if !s.truthy then throw (.absent "'to_percent'")
    let _ ← call limit (.scrollIntoView s)
    return { output := "Scrolled to " ++ s.plainText }
  | scrollBy pixels => do
    let _ ← call limit (.evaluate scrollByScript (some pixels))
    return { output := s!"Scrolled by {pixels}px" }
  | scrollTo percent => do
    let _ ← call limit (.evaluate scrollToScript (some percent))
    return { output := s!"Scrolled to {percent}%" }
  | assert s text value visible _ => do
    let _ ← call limit (.waitForElement s visible timeout)
    if visible then
      if let some text := text then expectText limit s text
      if let some value := value then expectValue limit s value
    return { output := "Assertion passed for " ++ s.plainText }
  | storeElement name s property attributeName => do
    if !s.truthy then throw (.absent "'script'")
    let value ← call limit (if attributeName.truthy then .readAttribute s attributeName
      else .readProperty s property)
    return { output := "Stored " ++ name, stored := some (name, trimmed value) }
  | storeScript name script => do
    let value ← call limit (.evaluate script none)
    return { output := "Stored " ++ name, stored := some (name, trimmed value) }
  | press key s => do
    pressOn limit timeout key s
    return { output := "Pressed " ++ key }
  | back waitUntil => do
    let _ ← call limit (.goBack waitUntil)
    return { output := "Went back" }
  | reload waitUntil => do
    let _ ← call limit (.reload waitUntil)
    return { output := "Reloaded page" }

end Step

end BrowserFlow
