import BrowserFlow.Table

/-!
# Commands and their names

The fifteen commands, and the registry that finds a command by name. A name is either the kind
under which a handler is registered or an alias for such a kind; an alias is followed first.
-/

namespace BrowserFlow

inductive Command
  | navigate
  | click
  | typeText
  | wait
  | screenshot
  | evaluate
  | hover
  | select
  | fillForm
  | scroll
  | assert
  | store
  | press
  | back
  | reload
  deriving Repr, DecidableEq

namespace Command

/-- The name by which documents call the command. -/
def name : Command → String
  | navigate => "navigate"
  | click => "click"
  | typeText => "type"
  | wait => "wait"
  | screenshot => "screenshot"
  | evaluate => "evaluate"
  | hover => "hover"
  | select => "select"
  | fillForm => "fill"
  | scroll => "scroll"
  | assert => "assert"
  | store => "store"
  | press => "press"
  | back => "back"
  | reload => "reload"

/-- Other names of the command. -/
def aliases : Command → List String
  | navigate => ["goto"]
  | evaluate => ["eval"]
  | reload => ["refresh"]
  | _ => []

def all : List Command :=
  [navigate, click, typeText, wait, screenshot, evaluate, hover, select, fillForm, scroll, assert,
    store, press, back, reload]

/-- The command of that name. -/
def ofName? (s : String) : Option Command :=
  all.find? fun c => c.name == s

end Command

/-- A command as it is registered. -/
structure Handler where
  command : Command
  kind : String
  aliases : List String
  deriving Repr, DecidableEq

/-- A command under its own names. -/
def Command.handler (c : Command) : Handler :=
  ⟨c, c.name, c.aliases⟩

structure Registry where
  handlers : Table Handler := []
  /-- The kinds for which the aliases stand. -/
  aliases : Table String := []

namespace Registry

/-- Registers a handler under its kind and its aliases. -/
def register (r : Registry) (h : Handler) : Registry :=
  { handlers := r.handlers.put h.kind h
    aliases := h.aliases.foldl (fun t a => t.put a h.kind) r.aliases }

/-- The kind that a name stands for. -/
def resolve (r : Registry) (name : String) : String :=
  (r.aliases.get? name).getD name

/-- The handler of a name. -/
def get? (r : Registry) (name : String) : Option Handler :=
  r.handlers.get? (r.resolve name)

def contains (r : Registry) (name : String) : Bool :=
  (r.get? name).isSome

/-- The registered kinds in alphabetical order. -/
def kinds (r : Registry) : List String :=
  r.handlers.keys.mergeSort fun a b => decide (a ≤ b)

/-- A registry of some commands under their own names. -/
def ofCommands (cs : List Command) : Registry :=
  cs.foldl (fun r c => r.register c.handler) {}

/-- All commands under their own names. -/
def standard : Registry :=
  ofCommands Command.all

end Registry

end BrowserFlow
