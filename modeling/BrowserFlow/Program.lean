import BrowserFlow.Session.Run

/-!
# The program

The program works on one instruction on the page at an address, and asks the person at the console
what to do. It does not start without settings that can be read and a key for the model.
-/

namespace BrowserFlow.Program

/-- The settings with which the program starts. -/
def settings (env : Table String) : Except Fault Settings := do
  let s ← Settings.ofEnvironment env
  let _ ← s.key
  return s

/-- A world in which the page at an address has been opened. -/
def opened (url : String) (w : World) : World :=
  { w with page := { w.page with url, calls := w.page.calls ++ [.goto url []] } }

/-- What is said at the end. -/
def closingLine (o : Outcome) : String :=
  if o.accepted then "\n最终工作流:\n" ++ o.document.getD "" else "\n未完成: " ++ o.reason

/-- A session that ends with a word on its outcome. -/
def session (intent : String) : Session.Act Outcome := do
  let outcome ← Session.run intent
  Session.say (closingLine outcome)
  return outcome

/-- Works on an instruction on the page at an address: the outcome, and the world afterwards. -/
def run (settings : Settings) (intent url : String) (w : World) :
    Except Failure Outcome × World :=
  let start : Session := { settings, decider := .console, world := opened url w }
  let (result, after) := (session intent).run start
  (result, after.world)

end BrowserFlow.Program
