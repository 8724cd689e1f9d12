import BrowserFlow.Disk
import BrowserFlow.Journal.Entry

/-!
# The journal on disk

The journal is a folder with a file for every entry. Entries are added and never changed. They are
listed by their time, the newest first, and entries of one time by their numbers.
-/

namespace BrowserFlow.Journal

/-- The file of an entry. -/
def path (folder id : String) : String :=
  pathIn folder (id ++ ".json")

/-- Puts an entry into the journal. -/
def add (folder : String) (e : Entry) : Effect Fault Disk Unit := do
  Disk.makeFolder folder
  Disk.writeJson true (path folder e.id.plainText) e.toValue

/-- The entry with a number. -/
def get? (folder id : String) : Effect Fault Disk (Option Entry) := do
  if !(← get).has (path folder id) then return none
  let content ← Disk.read (path folder id)
  let v ← Effect.lift content.value
  some <$> Effect.lift (Entry.ofValue v)

/-- The number of the entry in a file of that name. -/
def idOf? (name : String) : Option String :=
  (Text.dropPrefix? ".json".toList.reverse name.toList.reverse).map fun cs =>
    String.ofList cs.reverse

/-- The entries with some numbers. -/
def getAll (folder : String) : List String → Effect Fault Disk (List Entry)
  | [] => return []
  | id :: rest => do
    let e ← get? folder id
    let others ← getAll folder rest
    return e.toList ++ others

/-- A point in time as an exact number. -/
def time? : Value → Option Rat
  | .bool b => some (if b then 1 else 0)
  | .int n => some n
  | .float x =>
    match Decimal.Binary.ofFloat x with
    | .finite negative m e =>
      let (num, den) := Decimal.ratio m e
      some (mkRat (if negative then -(num : Int) else num) den)
    | .infinite negative =>
      some (if negative then -(Decimal.beyond : Int) else (Decimal.beyond : Int))
    | .nan => some 0
  | _ => none

/-- Entries with their times, if these can be compared. A single entry needs no comparison. -/
def timed (entries : List Entry) : Except Fault (List (Rat × Entry)) :=
  match entries with
  | [] => .ok []
  | [e] => .ok [((time? e.timestamp).getD 0, e)]
  | es => es.mapM fun e =>
    match time? e.timestamp with
    | some t => .ok (t, e)
    | none => .error (.kind
        s!"'<' not supported between instances of '{e.timestamp.kindName}' and 'float'")

/-- Whether an entry is listed before another: it is newer, or as old and has a smaller number. -/
def listedBefore (a b : Rat × Entry) : Bool :=
  if a.1 = b.1 then decide (a.2.id.plainText ≤ b.2.id.plainText) else decide (b.1 ≤ a.1)

/-- The entries of the journal, or those on a workflow. -/
def list (folder : String) (workflowId : Value) : Effect Fault Disk (List Entry) := do
  let d ← get
  if !d.isFolder folder then return []
  let all ← getAll folder ((d.namesIn folder).filterMap idOf?)
  let wanted := all.filter fun e => workflowId.isNull || e.workflowId.same workflowId
  let sorted := (← Effect.lift (timed wanted)).mergeSort listedBefore
  return sorted.map (·.2)

end BrowserFlow.Journal
