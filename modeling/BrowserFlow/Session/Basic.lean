import BrowserFlow.Attempt
import BrowserFlow.Decider
import BrowserFlow.Execution.Run
import BrowserFlow.Perception
import BrowserFlow.Planner
import BrowserFlow.Ranking
import BrowserFlow.Settings
import BrowserFlow.World.Keeping

/-!
# Sessions

A session works on instructions in rounds: a document is generated, run and judged, until it is
accepted or given up. The session is always in some phase, and it keeps the phases through which it
has gone, the attempts made, what the steps have stored, and the outcome that was accepted last.
-/

namespace BrowserFlow

inductive Phase
  | generate
  | execute
  | verify
  | accept
  | retry
  | abandon
  deriving Repr, DecidableEq, Inhabited

namespace Phase

def all : List Phase :=
  [generate, execute, verify, accept, retry, abandon]

def name : Phase → String
  | generate => "generate"
  | execute => "execute"
  | verify => "verify"
  | accept => "accept"
  | retry => "retry"
  | abandon => "abandon"

def ofName? (s : String) : Option Phase :=
  all.find? fun p => p.name == s

end Phase

/-- How the work on an instruction ended. -/
structure Outcome where
  /-- The phase in which it ended. -/
  state : Phase
  /-- The document that was accepted. -/
  document : Option String
  attempts : List Attempt
  verification : Option Verification
  reason : String
  saved : Option Workflow := none

namespace Outcome

def accepted (o : Outcome) : Bool :=
  o.state = .accept

def toValue (o : Outcome) : Value :=
  .record [("state", .text o.state.name), ("accepted", .bool o.accepted),
    ("document", .ofOption .text o.document), ("reason", .text o.reason),
    ("verification", .ofOption Verification.toValue o.verification),
    ("saved", .ofOption Workflow.toValue o.saved),
    ("attempts", .list (o.attempts.map Attempt.toValue))]

end Outcome

structure Session where
  settings : Settings
  decider : Decider
  world : World
  /-- The commands that the steps of a document can name. -/
  registry : Registry := .standard
  /-- The phases so far. -/
  phases : List Phase := []
  history : List Attempt := []
  /-- What the steps have stored. -/
  context : Table Value := []
  /-- The instruction that is worked on, before anything was added to it. -/
  intent : Option String := none
  accepted : Option Outcome := none
  memory : Perception.Memory := none

namespace Session

/-- What a session does. -/
abbrev Act (α : Type) := Effect Failure Session α

variable {α : Type}

/-- The phase in which the session is. -/
def phase? (s : Session) : Option Phase :=
  s.phases.getLast?

def planner (s : Session) : Planner :=
  { model := s.settings.model, timeout := s.settings.modelTimeout }

def executor (s : Session) : Executor :=
  { registry := s.registry
    timeoutMs := s.settings.stepTimeoutMs
    delayMs := s.settings.stepDelayMs
    data := some { path := s.settings.data } }

/-- The number of decisions that can still be given, at most. -/
def supply (s : Session) : Nat :=
  s.decider.supply s.world.inputs

/-! ## Parts of an act -/

/-- Does something in the world. -/
def inWorld (x : Effect Failure World α) : Act α :=
  .zoom (·.world) (fun world s => { s with world }) x

/-- Does something in the world that can go wrong in no particular way. -/
def byWorld (x : Effect Fault World α) : Act α :=
  inWorld (Effect.mapError Failure.fault x)

def say (s : String) : Act Unit :=
  inWorld (World.print s)

/-- Goes into a phase. -/
def enter (p : Phase) : Act Unit :=
  modify fun s => { s with phases := s.phases ++ [p] }

/-- Asks for a decision. -/
def consult (ask : List String → Decider → Ruling × Decider) : Act Decision := do
  let s ← get
  let (ruling, decider) := ask s.world.inputs s.decider
  set { s with
    decider
    world := { s.world with
      inputs := ruling.inputs
      printed := s.world.printed ++ ruling.printed } }
  Effect.lift (ruling.decision.mapError Failure.fault)

end Session

end BrowserFlow
