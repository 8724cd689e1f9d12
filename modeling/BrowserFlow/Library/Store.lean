import BrowserFlow.Disk
import BrowserFlow.Library.Workflow
import BrowserFlow.Text.Case

/-!
# The library of workflows on disk

The library is a folder with a file for every workflow and an index, which is a list of what is told
of each of them. A workflow is found by its number, or by its name without regard to the case of
letters; of several with one name the first in the index is meant.
-/

namespace BrowserFlow

/-- A new workflow to be saved. -/
structure Draft where
  name : Value
  intent : Value
  document : Value
  description : Value := .null
  tags : Value := .null

/-- What is to be changed of a workflow; null leaves a field as it is. -/
structure Changes where
  document : Value := .null
  intent : Value := .null
  name : Value := .null
  description : Value := .null
  tags : Value := .null
  reason : Value := .text "Manual update"

namespace Library

def indexPath (folder : String) : String :=
  pathIn folder "index.json"

/-- The file of a workflow. -/
def path (folder : String) (id : Value) : String :=
  pathIn folder (id.plainText ++ ".json")

/-- Makes the folder and an empty index, unless they are there. -/
def prepare (folder : String) : Effect Fault Disk Unit := do
  Disk.makeFolder folder
  if !(← get).has (indexPath folder) then Disk.writeJson false (indexPath folder) (.list [])

/-- The index; a blank file has an empty one. -/
def index (folder : String) : Effect Fault Disk Value := do
  if !(← get).has (indexPath folder) then return .list []
  let content ← Disk.read (indexPath folder)
  if content.isBlank then return .list []
  Effect.lift content.value

/-- Puts a workflow into its file. -/
def write (folder : String) (w : Workflow) : Effect Fault Disk Unit :=
  Disk.writeJson false (path folder w.id) w.toValue

/-! ## The index -/

/-- Whether an item of the index has a name, given in small letters. -/
def isNamed (lowered : String) (item : Value) : Except Fault Bool := do
  match ← item.required "name" with
  | .text s => return Text.lower s == lowered
  | v => throw (.part v.kindName "lower")

/-- The first item of the index with a name. -/
def findNamed (lowered : String) : List Value → Except Fault (Option Value)
  | [] => .ok none
  | item :: rest => do
    if ← isNamed lowered item then return some item
    findNamed lowered rest

/-- The index with a workflow added at its end. -/
def withItem (w : Workflow) : Value → Except Fault Value
  | .list items => .ok (.list (items ++ [.record w.indexItem]))
  | v => .error (.part v.kindName "append")

/-- Whether an item of the index is that of a workflow. -/
def isItemOf (w : Workflow) (item : Value) : Except Fault Bool :=
  (item.required "id").map fun id => id.same w.id

/-- An item of the index with what is told of a workflow put over it. -/
def refreshed (w : Workflow) : Value → Value
  | .map entries =>
    .map (w.indexItem.foldl (fun acc e => Value.putEntry acc (.text e.1) e.2) entries)
  | v => v

/-- The index with the items of a workflow brought up to date. -/
def refreshItems (w : Workflow) (v : Value) : Except Fault Value := do
  let items ← (← v.members).mapM fun item => do
    return if ← isItemOf w item then refreshed w item else item
  match v with
  | .list _ => return .list items
  | v => return v

/-- The index without the items of a workflow. -/
def withoutItem (w : Workflow) (v : Value) : Except Fault Value := do
  let items ← v.members
  let kept ← items.filterM fun item => do return !(← isItemOf w item)
  return .list kept

/-- Whether a collection holds an item. -/
def holds (item : Value) : Value → Except Fault Bool
  | .list items | .set items => .ok (items.any item.same)
  | .text s =>
    match item with
    | .text part => .ok (Text.includes s part)
    | v => .error (.kind s!"'in <string>' requires string as left operand, not {v.kindName}")
  | .map entries =>
    if item.isKey then .ok (Value.lookup entries item).isSome
    else .error (.kind s!"unhashable type: '{item.kindName}'")
  | v => .error (.kind s!"argument of type '{v.kindName}' is not iterable")

/-- Whether a collection holds one of some items. -/
def holdsAny (collection : Value) : List Value → Except Fault Bool
  | [] => .ok false
  | item :: rest => do
    if ← holds item collection then return true
    holdsAny collection rest

/-- Whether an item of the index has one of some tags. -/
def isTagged (tags item : Value) : Except Fault Bool := do
  let tags ← tags.members
  let _ ← match item with
    | .map _ => pure ()
    | v => throw (.part v.kindName "get")
  let own := item.field "tags"
  holdsAny (if own.truthy then own else .list []) tags

/-! ## Operations -/

/-- The path of the workflow with a number or a name. -/
def locate (folder : String) (name : Value) : Effect Failure Disk String := do
  if (← get).has (path folder name) then return path folder name
  let lowered ← match name with
    | .text s => pure (Text.lower s)
    | v => throw (.fault (.part v.kindName "lower"))
  let found ← Effect.mapError Failure.fault do
    let items ← Effect.lift (← index folder).members
    match ← Effect.lift (findNamed lowered items) with
    | some item => some <$> Effect.lift (item.required "id")
    | none => return none
  match found with
  | some id => return path folder id
  | none => throw (.notFound name.plainText)

/-- The workflow with a number or a name. -/
def load (folder : String) (name : Value) : Effect Failure Disk Workflow := do
  Effect.mapError Failure.fault (prepare folder)
  let path ← locate folder name
  Effect.mapError Failure.fault do
    let content ← Disk.read path
    Effect.lift (Workflow.ofValue (← Effect.lift content.value))

/-- The index, or those of its items that have one of some tags. -/
def list (folder : String) (tags : Value) : Effect Fault Disk Value := do
  prepare folder
  let all ← index folder
  if !tags.truthy then return all
  let items ← Effect.lift all.members
  return .list (← Effect.lift (items.filterM (isTagged tags)))

/-- The workflow of a draft with its number and the time at which it is saved. -/
def ofDraft (draft : Draft) (id now : String) : Except Fault Workflow := do
  let tags ← if draft.tags.truthy then draft.tags.members else pure []
  return { id := .text id
           name := draft.name
           intent := draft.intent
           document := draft.document
           createdAt := .text now
           updatedAt := .text now
           description := draft.description
           tags := .list tags
           versions := [⟨.int 1, draft.document, draft.intent, .text now,
             .text "Initial version"⟩] }

/-- Puts a new workflow into the library, and what is told of it at the end of the index. -/
def add (folder : String) (w : Workflow) : Effect Fault Disk Unit := do
  write folder w
  let updated ← Effect.lift (withItem w (← index folder))
  Disk.writeJson false (indexPath folder) updated

/-- A workflow with some changes. Another document becomes a new version. -/
def changed (c : Changes) (now : String) (w : Workflow) : Except Fault Workflow := do
  let isNew := c.document.truthy && !c.document.same w.document
  let intent := if c.intent.truthy then c.intent else w.intent
  let w := if isNew then w.withDocument c.document intent (.text now) c.reason else w
  let tags ← if c.tags.isNull then pure w.tags else Value.list <$> c.tags.members
  return { w with
    intent
    name := if c.name.truthy then c.name else w.name
    description := if c.description.isNull then w.description else c.description
    tags
    updatedAt := .text now }

/-- Changes a workflow in its file and in the index. -/
def update (folder : String) (now : String) (id : Value) (c : Changes) :
    Effect Failure Disk Workflow := do
  let w ← load folder id
  Effect.mapError Failure.fault do
    let w ← Effect.lift (changed c now w)
    write folder w
    let updated ← Effect.lift (refreshItems w (← index folder))
    Disk.writeJson false (indexPath folder) updated
    return w

/-- Removes a workflow and what the index tells of it. -/
def delete (folder : String) (name : Value) : Effect Failure Disk Unit := do
  let w ← load folder name
  Effect.mapError Failure.fault do
    Disk.remove (path folder w.id)
    let updated ← Effect.lift (withoutItem w (← index folder))
    Disk.writeJson false (indexPath folder) updated

/-- One more than a number. -/
def successor : Value → Except Fault Value
  | .bool b => .ok (.int (if b then 2 else 1))
  | .int n => .ok (.int (n + 1))
  | .float x => .ok (.float (x + 1))
  | v => .error (.kind s!"unsupported operand type(s) for +=: '{v.kindName}' and 'int'")

/-- Counts a run of a workflow in its file. -/
def recordRun (folder : String) (now : String) (id : Value) : Effect Failure Disk Workflow := do
  let w ← load folder id
  Effect.mapError Failure.fault do
    let w := { w with
      executions := ← Effect.lift (successor w.executions)
      lastExecuted := .text now }
    write folder w
    return w

end Library

end BrowserFlow
