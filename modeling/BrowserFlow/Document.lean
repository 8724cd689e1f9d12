import BrowserFlow.Failure
import BrowserFlow.Yaml.Writer

/-!
# Documents

A document is a list of steps, each of them a mapping from a command to its argument. Reading it
gives the actions to be taken, in order, or the first cause of refusal. Only the first command of
a step counts; more of them are worth a warning.
-/

namespace BrowserFlow.Document

/-- What is warned about a step with several commands. -/
def severalCommands (place : Nat) (keys : List Value) : String :=
  let first := (keys.head?.map Value.plainText).getD ""
  s!"第 {place} 步包含多个命令 " ++ (Value.list keys).literal ++ s!"，只执行第一个 '{first}'"

/-- The warnings that a step gives rise to. -/
def warningsOf (place : Nat) (entry : Value) : List String :=
  match entry with
  | .map (e :: f :: rest) => [severalCommands place ((e :: f :: rest).map (·.1))]
  | _ => []

/-- The failure of a step whose argument is refused. A number that is infinite is a fault. -/
def argumentFailure (place : Nat) (entry : Value) (cause : StepError) : Failure :=
  match cause with
  | .whole .infinite => .fault (.tooLarge (WholeError.message .infinite))
  | _ => .document { cause := .argument cause, place := some place, source := some entry.literal }

/-- The action of one step. -/
def readStep (registry : Registry) (place : Nat) (entry : Value) : Except Failure Action :=
  match entry with
  | .map ((key, argument) :: _) =>
    let name := key.plainText
    match registry.get? name with
    | none => .error (.document { cause := .unknownCommand name, place := some place })
    | some handler =>
      match Step.read handler.command argument with
      | .ok step => .ok ⟨handler.kind, step, place⟩
      | .error cause => .error (argumentFailure place entry cause)
  | _ => .error (.document
      { cause := .notAStep, place := some place, source := some entry.literal })

/-- The actions of some steps, the first of which has the number `place`, with the warnings given
until the first refusal. -/
def readSteps (registry : Registry) (place : Nat) :
    List Value → List String × Except Failure (List Action)
  | [] => ([], .ok [])
  | entry :: rest =>
    let warned := warningsOf place entry
    match readStep registry place entry with
    | .error f => (warned, .error f)
    | .ok action =>
      let (later, result) := readSteps registry (place + 1) rest
      (warned ++ later, result.map (action :: ·))

/-- The actions of a document. -/
def read (registry : Registry) (source : Option String) (document : Value) :
    List String × Except Failure (List Action) :=
  match document with
  | .list entries => readSteps registry 1 entries
  | v => ([], .error (.document
      { cause := .notSteps v.kindName, source := some (source.getD v.literal) }))

/-- The actions of a document in YAML. -/
def load (registry : Registry) (text : String) : List String × Except Failure (List Action) :=
  match Yaml.load text with
  | .ok document => read registry (some text) document
  | .error .malformed => ([], .error (.document { cause := .malformed, source := some text }))
  | .error e => ([], .error (.fault e.toFault))

/-- The steps of a tree; a value that is false has none. -/
def steps? : Option Yaml.Tree → Option (List Yaml.Tree)
  | some (.list _ items) => some items
  | some t => if t.value.truthy then none else some []
  | none => some []

/-- The steps of one document followed by those of another. -/
def join (existing added : String) : Except Failure String := do
  let a ← (Yaml.loadTree existing).mapError fun e => .fault e.toFault
  let b ← (Yaml.loadTree added).mapError fun e => .fault e.toFault
  -- numbers of the two documents are kept apart
  match steps? a, steps? b with
  | some xs, some ys =>
    let items := Yaml.Tree.renumberAll (fun n => 2 * n + 1) xs ++
      Yaml.Tree.renumberAll (fun n => 2 * n + 2) ys
    return Yaml.dumpTree (.list 0 items)
  | _, _ => throw (.document
      { cause := .notJoinable, source := some (existing ++ "\n---\n" ++ added) })

end BrowserFlow.Document
