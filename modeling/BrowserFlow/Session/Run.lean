import BrowserFlow.Session.Round

/-!
# Working on an instruction

Rounds follow one another until a document is accepted or given up, and there are at most as many
as the settings allow, but at least one. An accepted document can be continued: only the new steps
are generated and run, on the page as it is, and the documents are joined. The continuation of a
continuation is the same again.
-/

namespace BrowserFlow.Session

/-- How some rounds ended: with an outcome, and perhaps with an instruction by which the accepted
document is to be continued. -/
structure Ending where
  outcome : Outcome
  followUp : Option String := none

/-- A text that is there and not empty. -/
def given? (text : Option String) : Option String :=
  text.filter fun t => !t.isEmpty

/-- What the model is told of the page in the request after some attempts. -/
def viewAfter (history : List Attempt) : Planner.PageView :=
  match history.getLast? with
  | none => {}
  | some last =>
    match last.digest with
    | none => {}
    | some digest =>
      { page := some digest.description
        candidates := if last.candidates.isEmpty then none
          else some (Candidate.descriptions last.candidates) }

/-- An instruction with a text added to it, and with what the attempt returned. -/
def refine (intent : String) (text : Option String) (a : Attempt) : String :=
  match given? text with
  | none => intent
  | some text =>
    intent ++ ". " ++ text ++
      match a.report.bind Extraction.snippet? with
      | some snippet => " (Previous attempt extracted: " ++ snippet ++ ")"
      | none => ""

/-- Gives up. -/
def abandon (reason : String) : Act Ending := do
  enter .abandon
  say ("\n❌ 放弃: " ++ reason)
  let s ← get
  return { outcome :=
    { state := .abandon
      document := none
      attempts := s.history
      verification := s.history.getLast?.bind (·.verification)
      reason } }

/-- Saves a document under the name of a decision, or under the beginning of its instruction. -/
def saveAs (intent document : String) (name : Option String) : Act Workflow := do
  let s ← get
  let draft : Draft :=
    { name := .text ((given? name).getD (Text.clip 50 intent))
      intent := .text intent
      document := .text document }
  let w ← byWorld (Library.save s.settings.library draft)
  say s!"✓ 已保存工作流 {w.name.plainText} ({w.id.plainText})"
  return w

/-- Accepts a document, and saves it if that was decided. -/
def settle (intent document : String) (v : Verification) (d : Decision) : Act Ending := do
  let saved ← if d.kind = .save then some <$> saveAs intent document d.text else pure none
  let outcome : Outcome :=
    { state := .accept
      document := some document
      attempts := (← get).history
      verification := some v
      reason := v.reason
      saved }
  modify fun s => { s with accepted := some outcome }
  say "\n✓✓✓ 工作流已接受 ✓✓✓"
  return { outcome, followUp := if d.kind = .extend then given? d.text else none }

/-! ## Rounds on an instruction -/

/-- The line above and below the number of a round. -/
def rule : String :=
  String.ofList (List.replicate 60 '=')

/-- Says which round begins. -/
def announce (number : Nat) : Act Unit := do
  say ("\n" ++ rule)
  say s!"Attempt {number}/{(← get).settings.maxAttempts}"
  say rule

/-- The document for a round: one that is to be run again, or a new one. -/
def obtain (intent : String) : Option String → Act String
  | some document => return document
  | none => do
    enter .generate
    let s ← get
    let document ← inWorld (s.planner.document intent s.history (viewAfter s.history))
    say ("✓ 生成工作流:\n" ++ document)
    return document

/-- What comes after a round: an ending, or another round. -/
inductive Next
  | ended (e : Ending)
  | again (intent : String) (document : Option String)

/-- What comes after a round that succeeded. In the last round there is nothing left but to
accept. -/
def afterSuccess (isLast : Bool) (intent : String) (a : Attempt) (v : Verification) :
    Act Next := do
  enter .accept
  let d ← consult Decider.onSuccess
  let repeats := d.kind = .rerun ∨ d.kind = .feedback
  if repeats ∧ isLast then
    say (s!"⚠ 已达到最大尝试次数 ({(← get).settings.maxAttempts})，" ++
      "不再继续，接受当前已通过校验的工作流")
    return .ended (← settle intent a.document v { kind := .done })
  if repeats then
    enter .retry
    if d.kind = .rerun then return .again intent (some a.document)
    return .again (refine intent d.text a) none
  return .ended (← settle intent a.document v d)

/-- What comes after a round that failed. -/
def afterFailure (isLast : Bool) (intent : String) (a : Attempt) (v : Verification) :
    Act Next := do
  if isLast then
    return .ended (← abandon
      (s!"达到最大尝试次数 ({(← get).settings.maxAttempts})，最后一轮: " ++ v.reason))
  let d ← consult (Decider.onFailure (some v))
  if d.kind = .abandon then return .ended (← abandon ("用户放弃: " ++ v.reason))
  enter .retry
  let next ← match d.kind with
    | .modify => do
      let other := (given? d.text).getD intent
      modify fun s => { s with intent := some other, history := [] }
      pure other
    | .suggestion | .feedback => pure (refine intent d.text a)
    | _ => pure intent
  say ("↻ 重试，指令: " ++ next)
  return .again next none

/-- One round on an instruction. -/
def round (number : Nat) (isLast : Bool) (intent : String) (document : Option String) :
    Act Next := do
  announce number
  let document ← obtain intent document
  let (a, v) ← attempt intent document
  modify fun s => { s with history := s.history ++ [a] }
  if v.success then afterSuccess isLast intent a v else afterFailure isLast intent a v

/-- Rounds on an instruction, of which `left` may follow the first. -/
def rounds (number : Nat) : (left : Nat) → String → Option String → Act Ending
  | 0, intent, document => do
    match ← round number true intent document with
    | .ended e => return e
    | .again .. => abandon "" -- the last round is never followed by another
  | left + 1, intent, document => do
    match ← round number false intent document with
    | .ended e => return e
    | .again intent document => rounds (number + 1) left intent document

/-- The rounds that may follow the first. -/
def roundsLeft (s : Session) : Nat :=
  (s.settings.maxAttempts - 1).toNat

/-! ## Continuations -/

/-- What comes after a round on a continuation: an ending, or another round with the attempts that
it is told of. -/
inductive NextStep
  | ended (e : Ending)
  | again (followUp : String) (history : List Attempt)

/-- The new steps for a follow-up instruction. -/
def obtainSteps (existing followUp : String) (history : List Attempt) : Act String := do
  enter .generate
  let s ← get
  let c : Prompt.Continuation :=
    { intent := s.intent.getD ""
      document := existing
      url := s.world.page.url
      title := s.world.page.title
      followUp }
  let document ← inWorld (s.planner.continuation c history (viewAfter history))
  say ("✓ 生成新增步骤:\n" ++ document)
  return document

/-- What is done with the new steps: they are not run again, and what is to be better about them is
the next continuation. -/
def continuationDecision (d : Decision) : Decision :=
  match d.kind with
  | .rerun => { kind := .done }
  | .feedback => { kind := .extend, text := d.text }
  | _ => d

/-- Accepts a document with the new steps after it. -/
def acceptSteps (existing followUp : String) (a : Attempt) (v : Verification) : Act Ending := do
  enter .accept
  let joined ← Effect.lift (Document.join existing a.document)
  let d ← consult Decider.onSuccess
  if d.kind = .rerun then say "⚠ 续写步骤依赖当前页面状态，不会重复执行"
  let intent := (← get).intent.getD "None"
  settle (intent ++ ". " ++ followUp) joined v (continuationDecision d)

/-- What comes after a round on a continuation that failed. -/
def afterFailedSteps (isLast : Bool) (followUp : String) (history : List Attempt) (a : Attempt)
    (v : Verification) : Act NextStep := do
  if isLast then
    return .ended (← abandon
      (s!"续写达到最大尝试次数 ({(← get).settings.maxAttempts})，最后一轮: " ++ v.reason))
  let d ← consult (Decider.onFailure (some v))
  match d.kind with
  | .abandon => return .ended (← abandon ("用户放弃续写: " ++ v.reason))
  | .modify =>
    enter .retry
    return .again ((given? d.text).getD followUp) []
  | .suggestion | .feedback =>
    enter .retry
    return .again (refine followUp d.text a) history
  | _ =>
    enter .retry
    return .again followUp history

/-- One round on a continuation. -/
def stepRound (existing : String) (isLast : Bool) (followUp : String) (history : List Attempt) :
    Act NextStep := do
  let document ← obtainSteps existing followUp history
  let (a, v) ← attempt followUp document
  modify fun s => { s with history := s.history ++ [a] }
  if v.success then return .ended (← acceptSteps existing followUp a v)
  afterFailedSteps isLast followUp (history ++ [a]) a v

/-- Rounds on a continuation, of which `left` may follow the first. -/
def stepRounds (existing : String) :
    (left : Nat) → String → List Attempt → Act Ending
  | 0, followUp, history => do
    match ← stepRound existing true followUp history with
    | .ended e => return e
    | .again .. => abandon "" -- the last round is never followed by another
  | left + 1, followUp, history => do
    match ← stepRound existing false followUp history with
    | .ended e => return e
    | .again followUp history => stepRounds existing left followUp history

/-- Continues the accepted document once. -/
def extendOnce (followUp : String) : Act Ending := do
  let s ← get
  match given? (s.accepted.bind (·.document)) with
  | none => throw .notAccepted
  | some existing => stepRounds existing s.roundsLeft followUp []

/-- Continues the accepted document as long as an ending asks for it, at most `left` times. -/
def continueFrom : (left : Nat) → Ending → Act Outcome
  | 0, e => return e.outcome
  | left + 1, e =>
    match e.followUp with
    | none => return e.outcome
    | some followUp => do continueFrom left (← extendOnce followUp)

/-- Continues the accepted document as long as an ending asks for it. Every ending that does has
taken a decision, so that there cannot be more of them than decisions. -/
def followUps (e : Ending) : Act Outcome := do
  continueFrom ((← get).supply + 1) e

/-! ## Entry points -/

/-- Works on a new instruction. -/
def run (intent : String) : Act Outcome := do
  modify fun s => { s with
    history := [], context := [], phases := [], intent := some intent, accepted := none }
  followUps (← rounds 1 (← get).roundsLeft intent none)

/-- Continues the accepted document. -/
def extend (followUp : String) : Act Outcome := do
  followUps (← extendOnce followUp)

/-- The instruction of a saved workflow, if it is a text. -/
def instructionOf (w : Workflow) : Option String :=
  match w.intent with
  | .text s => some s
  | _ => none

/-- The actions of a saved workflow. -/
def actionsOf (registry : Registry) (w : Workflow) : Effect Failure World (List Action) :=
  match w.document with
  | .text s => Planner.read registry s
  | v => throw (.fault (.part v.kindName "read"))

/-- Runs a saved workflow again, without generating or judging anything. -/
def replay (name : Value) (env : Env) (strict : Bool) : Act Report := do
  let settings := (← get).settings
  let w ← inWorld (World.onDisk (Library.load settings.library name))
  say ("▶ 执行已保存的工作流: " ++ w.name.plainText)
  let e := (← get).executor
  let actions ← inWorld (actionsOf e.registry w)
  let request : RunRequest := { strict, env, instruction := instructionOf w }
  let s ← get
  let ((result, _), world) := Execution.run e request [] actions s.world
  set { s with world }
  let report ← Effect.lift result
  say report.summary
  let now ← inWorld World.now
  let _ ← inWorld (World.onDisk (Library.recordRun settings.library now w.id))
  let _ ← byWorld (Journal.create settings.journal report (.text (← get).world.page.url) none w.id
    .null)
  return report

end BrowserFlow.Session
