import BrowserFlow.Report
import BrowserFlow.Text.CharClass
import BrowserFlow.Text.Scan

/-!
# The selector that a script looks for

A script names what it looks for as the argument of `querySelector` or `querySelectorAll`, in
quotes and without other arguments. The text between the quotes holds no quote of either kind.
-/

namespace BrowserFlow.Extraction

def isQuote (c : Char) : Bool :=
  c = '\'' || c = '"'

/-- The rest after the name of a look-up, its `All` and the bracket. -/
def queryCall? (cs : List Char) : Option (List Char) := do
  let rest ← Text.dropPrefix? "querySelector".toList cs
  let rest := (Text.dropPrefix? "All".toList rest).getD rest
  Text.dropPrefix? ['('] rest

/-- The selector of a look-up at the front. -/
def queryHere? (cs : List Char) : Option String := do
  let rest := (← queryCall? cs).dropWhile Text.isBlank
  match rest with
  | q :: rest =>
    if !isQuote q then none
    let selector := rest.takeWhile (!isQuote ·)
    match selector.isEmpty, rest.dropWhile (!isQuote ·) with
    | false, _ :: rest =>
      match rest.dropWhile Text.isBlank with
      | ')' :: _ => some (String.ofList selector)
      | _ => none
    | _, _ => none
  | [] => none

/-- The first selector that a script looks for. -/
def query? (script : String) : Option String :=
  Text.findFirst? queryHere? script.toList

/-- The selector that a step looks for. -/
def stepQuery? (s : StepReport) : Option String :=
  s.script?.bind query?

/-- The selector that the last script of a report with one looks for. -/
def lastQuery? (r : Report) : Option String :=
  r.steps.reverse.findSome? fun s => if s.kind == "evaluate" then stepQuery? s else none

end BrowserFlow.Extraction
