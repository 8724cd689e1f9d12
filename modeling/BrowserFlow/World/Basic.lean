import BrowserFlow.Calendar
import BrowserFlow.Disk
import BrowserFlow.Page.Basic

/-!
# The world

All that a run of the program meets and changes: the clock, the disk, the page, the model, the lines
that a person types, and what is printed and warned of. Time passes only where something takes time.
An operation with a time limit is cut off when the clock reaches the limit.
-/

namespace BrowserFlow

/-- What the model gives to a request. -/
inductive ModelReply
  | content (text : Option String)
  | error (message : String)
  /-- A reply that comes after some milliseconds. -/
  | delayed (ms : Nat) (text : Option String)

structure ModelRequest where
  model : String
  temperature : Value
  prompt : String

structure World where
  /-- The milliseconds since the start. -/
  clock : Nat := 0
  /-- How many identifiers have been drawn. -/
  drawn : Nat := 0
  disk : Disk := {}
  page : Page := {}
  /-- The replies of the model to come. -/
  replies : List ModelReply := []
  /-- The requests to the model so far. -/
  requests : List ModelRequest := []
  /-- The lines that are still to be typed. -/
  inputs : List String := []
  printed : String := ""
  warnings : List String := []
  deriving Inhabited

namespace World

variable {ε : Type}

/-- Prints a line. -/
def print (s : String) : Effect ε World Unit :=
  modify fun w => { w with printed := w.printed ++ s ++ "\n" }

def warn (s : String) : Effect ε World Unit :=
  modify fun w => { w with warnings := w.warnings ++ [s] }

/-- The six figures of the identifier that is drawn as the `n`-th. -/
def figures (n : Nat) : String :=
  String.ofList (Text.hexDigits 6 n)

/-- The identifier that is drawn as the `n`-th. -/
def identifier (n : Nat) : String :=
  figures n ++ "00-0000-4000-8000-000000000000"

/-- Draws a number, which is used for nothing else. -/
def draw : Effect ε World Nat := do
  modify fun w => { w with drawn := w.drawn + 1 }
  return (← get).drawn

/-- Works on the disk. -/
def onDisk {α : Type} (x : Effect ε Disk α) : Effect ε World α :=
  .zoom (·.disk) (fun disk w => { w with disk }) x

/-! ## Time -/

/-- Lets time pass, but not beyond the limit. -/
def pass (limit : Option Nat) (ms : Nat) : Effect Fault World Unit :=
  .of fun w =>
    match limit with
    | some l =>
      if 0 < ms && l ≤ w.clock + ms then (.error .cut, { w with clock := max w.clock l })
      else (.ok (), { w with clock := w.clock + ms })
    | none => (.ok (), { w with clock := w.clock + ms })

/-- Waits for what never comes, until the limit. -/
def waitInVain {α : Type} (limit : Option Nat) : Effect Fault World α :=
  .of fun w => (.error .cut, { w with clock := max w.clock (limit.getD w.clock) })

/-- Does something within a number of milliseconds. If there is no time at all it is cut off before
it begins. -/
def within {α : Type} (ms : Int) (x : Option Nat → Effect Fault World α) :
    Effect Fault World α := do
  if ms ≤ 0 then throw .cut
  x (some ((← get).clock + ms.toNat))

/-! ## The page -/

/-- The time for which a page sleeps because it is told to. -/
def sleepOf : PageCall → Nat
  | .waitForTime ms => ms.toNat
  | _ => 0

/-- What comes of a call at which the page fails. -/
def meet (limit : Option Nat) : Trouble → Effect Fault World Value
  | .error m => throw (.page m)
  | .unmet m => throw (.unmet m)
  | .timeout m => throw (.late m)
  | .hang => waitInVain limit

/-- What comes of a call at which the page goes by its elements. -/
def ordinary (limit : Option Nat) (c : PageCall) : Effect Fault World Value := do
  pass limit ((← get).page.delay c)
  match ← Effect.lift ((← get).page.trouble? c) with
  | some trouble => meet limit trouble
  | none =>
    let answer ← Effect.zoom (·.page) (fun page w => { w with page }) (.of fun p => p.respond c)
    pass limit (sleepOf c)
    return answer

/-- What comes of a call for which the doing of the page is laid down. -/
def special (limit : Option Nat) (turn : Turn) : Effect Fault World Value := do
  modify fun w => { w with page := w.page.after turn }
  pass limit turn.ms
  match turn.answer with
  | .error trouble => meet limit trouble
  | .ok answer => return answer

/-- Calls the page. The call is recorded and takes its time before the page fails or answers. -/
def call (limit : Option Nat) (c : PageCall) : Effect Fault World Value := do
  let w ← get
  let (turn, page) := w.page.nextTurn
  set { w with page := { page with calls := page.calls ++ [c] } }
  match turn with
  | some turn => special limit turn
  | none => ordinary limit c

end World

end BrowserFlow
