import BrowserFlow.Library.Store
import BrowserFlow.Proofs.Json.Lasting
import BrowserFlow.Proofs.Outcomes

/-!
# Workflows as records

What is kept of a workflow may hold any values, but the library itself only ever puts in texts,
numbers and lists of texts. A `Record` is a workflow with such fields. Its form as a value lasts in
a file (`Record.lasting`) and is read back as the workflow that it was (`ofValue_toValue`).

On records it can be said what the operations of the library make of a workflow: a `Proposal`
becomes its first record (`ofDraft_toDraft`), and a `Revision` changes it (`changed_toChanges`),
which adds an edition exactly if it brings a new document.
-/

namespace BrowserFlow

/-! ## Reading back -/

theorem Version.ofValue_toValue (v : Version) : Version.ofValue v.toValue = .ok v := rfl

/-- A workflow is read back as it was. -/
theorem Workflow.ofValue_toValue (w : Workflow) : Workflow.ofValue w.toValue = .ok w := by
  have hversions : (w.versions.map Version.toValue).mapM Version.ofValue = .ok w.versions := by
    rw [mapM_eq_ok fun v _ => Version.ofValue_toValue v, List.map_id']
  show ((w.versions.map Version.toValue).mapM Version.ofValue >>=
    fun versions => .ok { w with versions }) = .ok w
  rw [hversions]
  rfl

namespace Library

/-! ## Records -/

/-- A version of a document. -/
structure Edition where
  number : Nat
  document : String
  intent : String
  createdAt : String
  reason : String
  deriving DecidableEq

/-- A workflow whose fields hold what they are meant to hold. -/
structure Record where
  id : String
  name : String
  intent : String
  document : String
  createdAt : String
  updatedAt : String
  description : Option String
  tags : List String
  executions : Nat
  lastExecuted : Option String
  editions : List Edition
  deriving DecidableEq

def Edition.toVersion (e : Edition) : Version :=
  ⟨.int e.number, .text e.document, .text e.intent, .text e.createdAt, .text e.reason⟩

def Record.toWorkflow (r : Record) : Workflow :=
  { id := .text r.id
    name := .text r.name
    intent := .text r.intent
    document := .text r.document
    createdAt := .text r.createdAt
    updatedAt := .text r.updatedAt
    description := .ofOption .text r.description
    tags := .texts r.tags
    executions := .int r.executions
    lastExecuted := .ofOption .text r.lastExecuted
    versions := r.editions.map Edition.toVersion }

theorem Edition.lasting (e : Edition) : Json.Lasting e.toVersion.toValue := by
  refine Json.lasting_record ?_ ?_
  · show ["version", "document", "intent_text", "created_at", "reason"].Nodup
    decide
  · simp only [toVersion, List.forall_mem_cons, List.not_mem_nil,
      false_imp_iff, implies_true, and_true]
    exact ⟨Json.lasting_int _, Json.lasting_text _, Json.lasting_text _, Json.lasting_text _,
      Json.lasting_text _⟩

/-- A record lasts in its file. -/
theorem Record.lasting (r : Record) : Json.Lasting r.toWorkflow.toValue := by
  have hversions : Json.Lasting (.list (r.toWorkflow.versions.map Version.toValue)) := by
    refine Json.lasting_list fun v hv => ?_
    obtain ⟨version, hversion, rfl⟩ := List.mem_map.1 hv
    obtain ⟨e, -, rfl⟩ := List.mem_map.1 hversion
    exact e.lasting
  refine Json.lasting_record ?_ ?_
  · show ["id", "name", "intent_text", "document", "created_at", "updated_at", "description", "tags",
      "executions", "last_executed", "versions"].Nodup
    decide
  · simp only [toWorkflow, List.forall_mem_cons, List.not_mem_nil,
      false_imp_iff, implies_true, and_true]
    exact ⟨Json.lasting_text _, Json.lasting_text _, Json.lasting_text _, Json.lasting_text _,
      Json.lasting_text _, Json.lasting_text _, Json.lasting_ofOption Json.lasting_text _,
      Json.lasting_texts _, Json.lasting_int _, Json.lasting_ofOption Json.lasting_text _, hversions⟩

/-- What the index tells of a record lasts in the file of the index. -/
theorem Record.lasting_indexItem (r : Record) :
    Json.Lasting (.record r.toWorkflow.indexItem) := by
  refine Json.lasting_record ?_ ?_
  · show ["id", "name", "description", "tags", "created_at", "updated_at", "executions"].Nodup
    decide
  · simp only [toWorkflow, Workflow.indexItem, List.forall_mem_cons, List.not_mem_nil,
      false_imp_iff, implies_true, and_true]
    exact ⟨Json.lasting_text _, Json.lasting_text _, Json.lasting_ofOption Json.lasting_text _,
      Json.lasting_texts _, Json.lasting_text _, Json.lasting_text _, Json.lasting_int _⟩

/-! ## Proposals and revisions -/

/-- A workflow to be saved. -/
structure Proposal where
  name : String
  intent : String
  document : String
  description : Option String := none
  tags : Option (List String) := none

def Proposal.toDraft (p : Proposal) : Draft :=
  { name := .text p.name
    intent := .text p.intent
    document := .text p.document
    description := .ofOption .text p.description
    tags := .ofOption .texts p.tags }

/-- The first record of a workflow. -/
def Proposal.record (p : Proposal) (id now : String) : Record :=
  { id
    name := p.name
    intent := p.intent
    document := p.document
    createdAt := now
    updatedAt := now
    description := p.description
    tags := p.tags.getD []
    executions := 0
    lastExecuted := none
    editions := [⟨1, p.document, p.intent, now, "Initial version"⟩] }

theorem ofDraft_toDraft (p : Proposal) (id now : String) :
    ofDraft p.toDraft id now = .ok (p.record id now).toWorkflow := by
  unfold ofDraft Proposal.toDraft
  cases htags : p.tags with
  | none => simp [Proposal.record, Record.toWorkflow, htags, Value.ofOption, Value.truthy]; rfl
  | some tags =>
    cases tags with
    | nil => simp [Proposal.record, Record.toWorkflow, htags]; rfl
    | cons tag tags => simp [Proposal.record, Record.toWorkflow, htags]; rfl

/-- What is to be changed of a workflow. -/
structure Revision where
  document : Option String := none
  intent : Option String := none
  name : Option String := none
  description : Option String := none
  tags : Option (List String) := none
  reason : String := "Manual update"

def Revision.toChanges (c : Revision) : Changes :=
  { document := .ofOption .text c.document
    intent := .ofOption .text c.intent
    name := .ofOption .text c.name
    description := .ofOption .text c.description
    tags := .ofOption .texts c.tags
    reason := .text c.reason }

/-- A text that is passed takes the place of the old one, unless it is empty. -/
def passed (new : Option String) (old : String) : String :=
  match new with
  | some s => if s = "" then old else s
  | none => old

/-- The document that a revision brings, if it is neither empty nor the old one. -/
def Revision.newDocument? (c : Revision) (old : String) : Option String :=
  c.document.filter fun s => s ≠ "" ∧ s ≠ old

/-- The edition that a revision adds to a record. -/
def Revision.edition? (c : Revision) (now : String) (r : Record) : Option Edition :=
  (c.newDocument? r.document).map fun s =>
    ⟨r.editions.length + 1, s, passed c.intent r.intent, now, c.reason⟩

/-- A record after a revision. -/
def Record.revised (r : Record) (now : String) (c : Revision) : Record :=
  { r with
    name := passed c.name r.name
    intent := passed c.intent r.intent
    document := (c.newDocument? r.document).getD r.document
    description := c.description.or r.description
    tags := c.tags.getD r.tags
    updatedAt := now
    editions := r.editions ++ (c.edition? now r).toList }

/-- A revision leaves what it does not pass, and what no revision passes. -/
theorem Record.revised_of_none (r : Record) (now : String) (c : Revision) :
    (c.document = none →
        (r.revised now c).document = r.document ∧ (r.revised now c).editions = r.editions) ∧
      (c.intent = none → (r.revised now c).intent = r.intent) ∧
      (c.name = none → (r.revised now c).name = r.name) ∧
      (c.description = none → (r.revised now c).description = r.description) ∧
      (c.tags = none → (r.revised now c).tags = r.tags) ∧ (r.revised now c).id = r.id ∧
      (r.revised now c).createdAt = r.createdAt ∧ (r.revised now c).executions = r.executions ∧
      (r.revised now c).lastExecuted = r.lastExecuted := by
  refine ⟨fun h => ?_, fun h => ?_, fun h => ?_, fun h => ?_, fun h => ?_, rfl, rfl, rfl, rfl⟩
  · simp [Record.revised, Revision.edition?, Revision.newDocument?, h]
  · simp [Record.revised, passed, h]
  · simp [Record.revised, passed, h]
  · simp [Record.revised, h]
  · simp [Record.revised, h]

/-- A record after a run. -/
def Record.counted (r : Record) (now : String) : Record :=
  { r with executions := r.executions + 1, lastExecuted := some now }

theorem truthy_passed (new : Option String) (old : String) :
    (if (Value.ofOption .text new).truthy then .ofOption .text new else .text old) =
      Value.text (passed new old) := by
  cases new with
  | none => rfl
  | some s => by_cases h : s = "" <;> simp [passed, Value.ofOption, Value.truthy, h]

/-- Whether a document is new can be told from the values. -/
theorem isSome_newDocument? (c : Revision) (old : String) :
    ((Value.ofOption .text c.document).truthy &&
      !(Value.ofOption .text c.document).same (.text old)) = (c.newDocument? old).isSome := by
  unfold Revision.newDocument?
  cases c.document with
  | none => rfl
  | some s => by_cases h : s = "" <;> by_cases hold : s = old <;>
      simp [Value.ofOption, Value.truthy, Option.filter, h, hold]

/-- What becomes of a workflow for which new tags can be had. -/
theorem changed_of_tags {c : Changes} {w : Workflow} {tags : Value}
    (htags : (if c.tags.isNull then .ok w.tags else Value.list <$> c.tags.members) =
      (.ok tags : Except Fault Value)) (now : String) :
    changed c now w =
      let intent := if c.intent.truthy then c.intent else w.intent
      let v := if c.document.truthy && !c.document.same w.document then
          w.withDocument c.document intent (.text now) c.reason else w
      .ok { v with
        intent
        name := if c.name.truthy then c.name else w.name
        description := if c.description.isNull then w.description else c.description
        tags
        updatedAt := .text now } := by
  unfold changed
  cases c.document.truthy && !c.document.same w.document with
  | false =>
    split at htags
    · rename_i hnull
      cases htags
      simp only [hnull]
      rfl
    · rename_i hnull
      simp only [hnull, htags]
      rfl
  | true =>
    split at htags
    · rename_i hnull
      cases htags
      simp only [hnull]
      rfl
    · rename_i hnull
      simp only [hnull, htags]
      rfl

theorem changed_toChanges (c : Revision) (now : String) (r : Record) :
    changed c.toChanges now r.toWorkflow = .ok (r.revised now c).toWorkflow := by
  have htags : (if c.toChanges.tags.isNull then .ok r.toWorkflow.tags
      else Value.list <$> c.toChanges.tags.members) =
      (.ok (Value.texts (c.tags.getD r.tags)) : Except Fault Value) := by
    unfold Revision.toChanges
    cases c.tags with
    | none => rfl
    | some tags => rfl
  have hintent : (if c.toChanges.intent.truthy then c.toChanges.intent
      else r.toWorkflow.intent) = .text (passed c.intent r.intent) := truthy_passed _ _
  have hname : (if c.toChanges.name.truthy then c.toChanges.name
      else r.toWorkflow.name) = .text (passed c.name r.name) := truthy_passed _ _
  have hdescription : (if c.toChanges.description.isNull then r.toWorkflow.description
      else c.toChanges.description) = .ofOption .text (c.description.or r.description) := by
    unfold Revision.toChanges
    cases c.description with
    | none => rfl
    | some s => rfl
  have hnew : (c.toChanges.document.truthy && !c.toChanges.document.same r.toWorkflow.document) =
      (c.newDocument? r.document).isSome := isSome_newDocument? c r.document
  rw [changed_of_tags htags]
  dsimp only
  rw [hintent, hname, hdescription]
  cases hdocument : c.newDocument? r.document with
  | none =>
    rw [hdocument, Option.isSome_none] at hnew
    simp only [hnew]
    simp [Record.revised, Revision.edition?, hdocument, Record.toWorkflow]
  | some s =>
    have hs : c.document = some s := (Option.filter_eq_some_iff.1 hdocument).1
    rw [hdocument, Option.isSome_some] at hnew
    simp only [hnew]
    simp [Record.revised, Revision.edition?, hdocument, Record.toWorkflow, Workflow.withDocument,
      Edition.toVersion, Revision.toChanges, hs, Value.ofOption]

end Library

end BrowserFlow
