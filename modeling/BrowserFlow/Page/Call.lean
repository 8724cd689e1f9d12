import BrowserFlow.Value.Literal

/-!
# Calls on a page

Everything that can be asked of a page. A call has a name and arguments, under which it is
recorded, and a key: the selector, address or script by which the page tells calls of one name
apart.
-/

namespace BrowserFlow

inductive PageCall
  /-- Opens an address. -/
  | goto (url : String) (options : List Value)
  | click (selector button : Value) (clicks timeout : Int)
  | type (selector : Value) (text : String) (delay timeout : Int)
  | fill (selector : Value) (text : String) (timeout : Int)
  /-- Presses a key on an element. -/
  | press (selector : Value) (key : String) (timeout : Int)
  /-- Presses a key on the page. -/
  | keyboard (key : String)
  | hover (selector position : Value) (timeout : Int)
  | selectOption (selector option : Value) (timeout : Int)
  | waitForSelector (selector state : Value) (timeout : Int)
  | waitForUrl (url : String) (timeout : Int)
  | waitForTime (ms : Int)
  | screenshot (path : Value) (fullPage : Bool) (format : Value)
  | goBack (waitUntil : Value)
  | reload (waitUntil : Value)
  /-- Runs a script, perhaps on a number. -/
  | evaluate (script : String) (argument : Option Int)
  /-- Takes a sample of the page. -/
  | sample (options : Value)
  | count (selector : Value)
  /-- Reads the text of the element at some place among those that a selector matches. -/
  | innerText (selector : Value) (index : Nat)
  | inputValue (selector : Value)
  | readAttribute (selector name : Value)
  | readProperty (selector name : Value)
  | scrollIntoView (selector : Value)
  /-- Waits until an element is visible, or until it is not. -/
  | waitForElement (selector : Value) (visible : Bool) (timeout : Int)

namespace PageCall

def name : PageCall → String
  | goto .. => "goto"
  | click .. => "click"
  | type .. => "type"
  | fill .. => "fill"
  | press .. => "press"
  | keyboard .. => "keyboard"
  | hover .. => "hover"
  | selectOption .. => "select_option"
  | waitForSelector .. => "wait_for_selector"
  | waitForUrl .. => "wait_for_url"
  | waitForTime .. => "wait_for_timeout"
  | screenshot .. => "screenshot"
  | goBack .. => "go_back"
  | reload .. => "reload"
  | evaluate .. | sample .. => "evaluate"
  | count .. => "count"
  | innerText .. => "inner_text"
  | inputValue .. => "input_value"
  | readAttribute .. => "get_attribute"
  | readProperty .. => "read_prop"
  | scrollIntoView .. => "scroll_into_view"
  | waitForElement .. => "locator_wait_for"

/-- What stands for the script that takes a sample. -/
def sampleScript : String := "<SAMPLE_JS>"

/-- Whether an element is to be visible, as an argument. -/
def stateName (visible : Bool) : String :=
  if visible then "visible" else "hidden"

def arguments : PageCall → List Value
  | goto url options => .text url :: options
  | click s button clicks t => [s, button, .int clicks, .int t]
  | type s text delay t => [s, .text text, .int delay, .int t]
  | fill s text t => [s, .text text, .int t]
  | press s key t => [s, .text key, .int t]
  | keyboard key => [.text key]
  | hover s position t => [s, position, .int t]
  | selectOption s option t => [s, option, .int t]
  | waitForSelector s state t => [s, state, .int t]
  | waitForUrl url t => [.text url, .int t]
  | waitForTime ms => [.int ms]
  | screenshot path fullPage format => [path, .bool fullPage, format]
  | goBack waitUntil | reload waitUntil => [waitUntil]
  | evaluate script argument => .text script :: (argument.map Value.int).toList
  | sample options => [.text sampleScript, options]
  | count s | inputValue s | scrollIntoView s => [s]
  | innerText s index => [s, .int index]
  | readAttribute s name | readProperty s name => [s, name]
  | waitForElement s visible t => [s, .text (stateName visible), .int t]

/-- A call as it is recorded. -/
def toValue (c : PageCall) : Value :=
  .list (.text c.name :: c.arguments)

/-- What tells the call apart from others of its name. -/
def key? : PageCall → Option Value
  | goto url _ | waitForUrl url _ => some (.text url)
  | click s .. | type s .. | fill s .. | press s .. | hover s .. | selectOption s ..
  | waitForSelector s .. | count s | innerText s _ | inputValue s | readAttribute s _
  | readProperty s _ | scrollIntoView s | waitForElement s .. => some s
  | evaluate script _ => some (.text script)
  | keyboard _ | waitForTime _ | screenshot .. | goBack _ | reload _ | sample _ => none

/-- Whether the call takes a sample of the page. -/
def isSample : PageCall → Bool
  | sample _ => true
  | _ => false

end PageCall

end BrowserFlow
