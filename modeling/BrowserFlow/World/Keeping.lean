import BrowserFlow.Journal.Store
import BrowserFlow.Library.Store
import BrowserFlow.World.Basic

/-!
# Keeping records in the world

New entries of the journal and new workflows get identifiers and the time. A journal that cannot be
written is worth a warning and no more.
-/

namespace BrowserFlow

namespace World

variable {ε : Type}

/-- The date and the time. -/
def now : Effect ε World String := do
  return Clock.iso (← get).clock

end World

namespace Journal

/-- Makes an entry on a report and puts it into the journal. -/
def create (folder : String) (r : Report) (url : Value) (digest : Option Digest)
    (workflowId analysis : Value) : Effect Fault World Entry := do
  let id := World.identifier (← World.draw)
  let e := Entry.ofReport id (Clock.seconds (← get).clock) r url digest workflowId analysis
  match ← Effect.attempt (World.onDisk (add folder e)) with
  | .ok () => return e
  | .error f =>
    if !f.ofDisk then throw f
    World.warn (s!"运行日志写入失败 {id}: " ++ f.message)
    return e

end Journal

namespace Library

/-- Saves a new workflow. -/
def save (folder : String) (draft : Draft) : Effect Fault World Workflow := do
  World.onDisk (prepare folder)
  let now ← World.now
  let id := World.identifier (← World.draw)
  let w ← Effect.lift (ofDraft draft id now)
  World.onDisk (add folder w)
  return w

end Library

end BrowserFlow
