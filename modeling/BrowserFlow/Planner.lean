import BrowserFlow.Document
import BrowserFlow.Prompt.Request
import BrowserFlow.Reply
import BrowserFlow.World.Basic

/-!
# Asking the model

The model is asked for a document, for a continuation, or for a judgement. A document in its answer
is only taken if it can be read. If the model does not answer in time it has not answered.
-/

namespace BrowserFlow

/-- Which model is asked, and how. -/
structure Planner where
  model : String := "gpt-4o"
  temperature : Value := .int 0
  /-- The time limit in seconds; zero stands for no limit. -/
  timeout : Option Float := none

namespace Planner

/-- The nearest number of milliseconds to a time in seconds that is not zero; a time above zero
takes at least one. A time that is no number is no limit. -/
def milliseconds? (seconds : Float) : Option Int :=
  match Decimal.Binary.ofFloat seconds with
  | .finite _ 0 _ => none
  | .finite negative m e =>
    let ms : Int := Decimal.inPlaces 3 m e
    some (if negative then -ms else max 1 ms)
  | .infinite true => some 0
  | .infinite false | .nan => none

/-- What a reply holds, after the time that it takes. -/
def receive (limit : Option Nat) : Option ModelReply → Effect Fault World (Option String)
  | none => throw (.page "no scripted response left")
  | some (.error m) => throw (.page m)
  | some (.content text) => return text
  | some (.delayed ms text) => do
    World.pass limit ms
    return text

/-- Takes the next reply. -/
def nextReply : Effect Fault World (Option ModelReply) := do
  let w ← get
  set { w with replies := w.replies.drop 1 }
  return w.replies.head?

/-- Sends a request and waits for the answer. -/
def send (p : Planner) (prompt : String) (limit : Option Nat) : Effect Fault World String := do
  let request : ModelRequest := ⟨p.model, p.temperature, prompt⟩
  modify fun w => { w with requests := w.requests ++ [request] }
  let text ← receive limit (← nextReply)
  return Text.trim (text.getD "")

/-- The answer of the model to a prompt. -/
def ask (p : Planner) (prompt : String) : Effect Fault World String :=
  match p.timeout.bind milliseconds? with
  | none => send p prompt none
  | some ms => World.within ms (send p prompt)

/-- Gives the warnings on a document. -/
def warnAll {ε : Type} : List String → Effect ε World Unit
  | [] => return
  | s :: rest => do
    World.warn s
    warnAll rest

/-- Reads a document, with the warnings on it. -/
def read (registry : Registry) (document : String) : Effect Failure World (List Action) := do
  let (warned, actions) := Document.load registry document
  warnAll warned
  Effect.lift actions

/-- What it means for an answer that its document is refused. -/
def refused (raw : String) : Failure → Failure
  | .document cause => .generation { cause := .invalid cause, raw := some raw }
  | f => f

/-- Asks for a document. -/
def generate (p : Planner) (prompt : String) : Effect Failure World String := do
  let raw ← Effect.mapError (fun f => .generation { cause := .noAnswer f.message })
    (p.ask prompt)
  let document := Reply.document raw
  let _ ← Effect.mapError (refused raw) (read .standard document)
  return document

/-- Asks for a judgement. -/
def judge (p : Planner) (prompt : String) : Effect Failure World Verification := do
  let raw ← Effect.mapError (fun f => .verification ("校验调用失败: " ++ f.message) none)
    (p.ask prompt)
  Effect.lift ((Verification.ofAnswer raw).mapError Failure.fault)

/-- What the model is told of the page in a request after an attempt. -/
structure PageView where
  page : Option String := none
  candidates : Option String := none

/-- Asks for a document for an instruction. -/
def document (p : Planner) (intent : String) (history : List Attempt) (v : PageView) :
    Effect Failure World String :=
  p.generate (Prompt.generation intent history v.page v.candidates)

/-- Asks for the continuation of a document. -/
def continuation (p : Planner) (c : Prompt.Continuation) (history : List Attempt) (v : PageView) :
    Effect Failure World String :=
  p.generate (Prompt.continuation c history v.page v.candidates)

/-- Asks whether a document has done what an instruction wants. -/
def verification (p : Planner) (intent document : String) (r : Report) (page : Option String) :
    Effect Failure World Verification :=
  p.judge (Prompt.verification intent document r page)

end Planner

end BrowserFlow
