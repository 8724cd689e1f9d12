import BrowserFlow.Failure

/-!
# Saved workflows

A document that is kept under a name, with all the versions that it has had. What is read back from
a file may hold anything in its fields, but it has to have the fields of a workflow.
-/

namespace BrowserFlow

/-- A document as it was at some time. -/
structure Version where
  number : Value
  document : Value
  intent : Value
  createdAt : Value
  /-- Why the version was made. -/
  reason : Value := .text ""

structure Workflow where
  id : Value
  name : Value
  /-- The instruction for which the document was made. -/
  intent : Value
  document : Value
  createdAt : Value
  updatedAt : Value
  description : Value := .null
  tags : Value := .list []
  /-- How often the document has been run. -/
  executions : Value := .int 0
  lastExecuted : Value := .null
  /-- The versions of the document, the oldest first. -/
  versions : List Version := []

namespace Version

def toValue (v : Version) : Value :=
  .record [("version", v.number), ("document", v.document), ("intent_text", v.intent),
    ("created_at", v.createdAt), ("reason", v.reason)]

def ofValue (v : Value) : Except Fault Version := do
  let v ← v.exactly ["version", "document", "intent_text", "created_at"] ["reason"]
  return { number := v.field "version"
           document := v.field "document"
           intent := v.field "intent_text"
           createdAt := v.field "created_at"
           reason := (v.field? "reason").getD (.text "") }

end Version

namespace Workflow

def toValue (w : Workflow) : Value :=
  .record [("id", w.id), ("name", w.name), ("intent_text", w.intent), ("document", w.document),
    ("created_at", w.createdAt), ("updated_at", w.updatedAt), ("description", w.description),
    ("tags", w.tags), ("executions", w.executions), ("last_executed", w.lastExecuted),
    ("versions", .list (w.versions.map Version.toValue))]

/-- The fields of a workflow that have to be there. -/
def requiredFields : List String :=
  ["id", "name", "intent_text", "document", "created_at", "updated_at"]

/-- The fields of a workflow that may be missing. -/
def optionalFields : List String :=
  ["description", "tags", "executions", "last_executed", "versions"]

def ofValue (v : Value) : Except Fault Workflow := do
  let _ ← match v with
    | .map _ => pure ()
    | v => throw (.part v.kindName "get")
  let versions ← (← ((v.field? "versions").getD (.list [])).members).mapM Version.ofValue
  let v ← v.exactly requiredFields optionalFields
  return { id := v.field "id"
           name := v.field "name"
           intent := v.field "intent_text"
           document := v.field "document"
           createdAt := v.field "created_at"
           updatedAt := v.field "updated_at"
           description := v.field "description"
           tags := (v.field? "tags").getD (.list [])
           executions := (v.field? "executions").getD (.int 0)
           lastExecuted := v.field "last_executed"
           versions }

/-- What the index tells of a workflow. -/
def indexItem (w : Workflow) : Table Value :=
  [("id", w.id), ("name", w.name), ("description", w.description), ("tags", w.tags),
    ("created_at", w.createdAt), ("updated_at", w.updatedAt), ("executions", w.executions)]

/-- The workflow with another document, which becomes its next version. -/
def withDocument (w : Workflow) (document intent createdAt reason : Value) : Workflow :=
  { w with
    document
    versions := w.versions ++
      [⟨.int (w.versions.length + 1), document, intent, createdAt, reason⟩] }

end Workflow

end BrowserFlow
