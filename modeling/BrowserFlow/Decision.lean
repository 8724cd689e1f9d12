/-!
# Decisions

What is to be done after a round: how to try again after a failure, or what to do with a success.
-/

namespace BrowserFlow

inductive Decision.Kind
  /-- Try again with a suggestion added to the instruction. -/
  | suggestion
  /-- Try again with a remark added to the instruction. -/
  | feedback
  /-- Try again with the same instruction. -/
  | autofix
  /-- Try again with another instruction. -/
  | modify
  | abandon
  | done
  /-- Keep the document under a name. -/
  | save
  /-- Go on from the page as it is. -/
  | extend
  /-- Run the same document again. -/
  | rerun
  /-- Anything else, which has no effect of its own. -/
  | other (name : String)
  deriving Repr, DecidableEq

namespace Decision.Kind

/-- The kinds that have an effect. -/
def all : List Kind :=
  [suggestion, feedback, autofix, modify, abandon, done, save, extend, rerun]

def name : Kind → String
  | suggestion => "suggestion"
  | feedback => "feedback"
  | autofix => "autofix"
  | modify => "modify"
  | abandon => "abandon"
  | done => "done"
  | save => "save"
  | extend => "extend"
  | rerun => "rerun"
  | other name => name

def ofName (s : String) : Kind :=
  (all.find? fun k => k.name == s).getD (other s)

end Decision.Kind

/-- A decision, with a text that some of them need. -/
structure Decision where
  kind : Decision.Kind
  text : Option String := none
  deriving Repr, DecidableEq

end BrowserFlow
