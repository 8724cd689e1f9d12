import BrowserFlow.Journal.Store
import BrowserFlow.Proofs.Json.Lasting
import BrowserFlow.Proofs.Library.Record

/-!
# Entries as records

An entry is read back field by field, each as JSON gives it back (`Entry.ofValue_plain`). Of an
entry on a report that is all but the arguments of the steps and what was passed for it as it was
(`Entry.plain_ofReport`), and it can be written exactly if these can (`Entry.writable_ofReport`).
-/

namespace BrowserFlow

namespace Journal

instance : Inhabited Entry := ⟨{ id := .null }⟩

/-- A short step as it is read back. -/
def StepEntry.plain (s : StepEntry) : StepEntry :=
  { number := Json.plain s.number
    kind := Json.plain s.kind
    ok := Json.plain s.ok
    durationMs := Json.plain s.durationMs
    why := Json.plain s.why
    selector := Json.plain s.selector
    found := Json.plain s.found }

/-- An entry as it is read back. -/
def Entry.plain (e : Entry) : Entry :=
  { id := Json.plain e.id
    timestamp := Json.plain e.timestamp
    url := Json.plain e.url
    digest := Json.plain e.digest
    report := Json.plain e.report
    steps := e.steps.map StepEntry.plain
    success := Json.plain e.success
    failureReason := Json.plain e.failureReason
    elapsedMs := Json.plain e.elapsedMs
    workflowId := Json.plain e.workflowId
    analysis := Json.plain e.analysis }

theorem StepEntry.plain_toValue (s : StepEntry) : Json.plain s.toValue = s.plain.toValue :=
  Json.plain_record (by simp)

theorem Entry.plain_toValue (e : Entry) : Json.plain e.toValue = e.plain.toValue := by
  have hsteps : Json.plain (.list (e.steps.map StepEntry.toValue)) =
      .list ((e.steps.map StepEntry.plain).map StepEntry.toValue) := by
    rw [Json.plain_list, List.map_map, List.map_map]
    exact congrArg Value.list (List.map_congr_left fun s _ => s.plain_toValue)
  refine (Json.plain_record (by simp)).trans ?_
  simp only [List.map_cons, List.map_nil, Json.plainField, hsteps]
  rfl

theorem StepEntry.ofValue_toValue (s : StepEntry) : StepEntry.ofValue s.toValue = .ok s := rfl

theorem Entry.ofValue_toValue (e : Entry) : Entry.ofValue e.toValue = .ok e := by
  have hsteps : (e.steps.map StepEntry.toValue).mapM StepEntry.ofValue = .ok e.steps := by
    rw [mapM_eq_ok fun s _ => StepEntry.ofValue_toValue s, List.map_id']
  show ((e.steps.map StepEntry.toValue).mapM StepEntry.ofValue >>=
    fun steps => .ok { e with steps }) = .ok e
  rw [hsteps]
  rfl

/-- What is read from the file of an entry. -/
theorem Entry.ofValue_plain (e : Entry) : Entry.ofValue (Json.plain e.toValue) = .ok e.plain := by
  rw [e.plain_toValue, e.plain.ofValue_toValue]

/-! ## Entries on reports -/

theorem StepEntry.plain_ofReport (s : StepReport) :
    (StepEntry.ofReport s).plain = StepEntry.ofReport s := by
  have hoption : ∀ {α : Type} (f : α → Value) (a : Option α), (∀ a, Json.plain (f a) = f a) →
      Json.plain (.ofOption f a) = .ofOption f a := by
    intro α f a hf
    cases a with
    | none => rfl
    | some a => exact hf a
  unfold StepEntry.plain StepEntry.ofReport
  dsimp only
  congr 1
  · split
    · rfl
    · rfl
  · split
    · exact hoption _ _ fun _ => rfl
    · rfl
  · split
    · exact hoption _ _ fun _ => rfl
    · rfl

theorem Entry.plain_ofReport (id : String) (time : Float) (r : Report) (url : Value)
    (digest : Option Digest) (workflowId analysis : Value) :
    (Entry.ofReport id time r url digest workflowId analysis).plain =
      { Entry.ofReport id time r url digest workflowId analysis with
        url := Json.plain url
        digest := Json.plain (.ofOption Digest.toValue digest)
        report := Json.plain r.toValue
        workflowId := Json.plain workflowId
        analysis := Json.plain analysis } := by
  have hsteps : (r.steps.map StepEntry.ofReport).map StepEntry.plain =
      r.steps.map StepEntry.ofReport := by
    rw [List.map_map]
    exact List.map_congr_left fun s _ => StepEntry.plain_ofReport s
  unfold Entry.plain Entry.ofReport
  dsimp only
  rw [hsteps]
  congr 1
  split
  · rfl
  · rfl

/-- Everything that is entered and may be any value has a JSON text. -/
structure Enterable (r : Report) (url : Value) (digest : Option Digest)
    (workflowId analysis : Value) : Prop where
  arguments : ∀ s ∈ r.steps, Json.writable true s.arguments = true
  digest : ∀ g ∈ digest, Json.writable true g.timestamp = true
  url : Json.writable true url = true
  workflowId : Json.writable true workflowId = true
  analysis : Json.writable true analysis = true

theorem writable_stepReport {s : StepReport} :
    Json.writable true s.toValue = true ↔ Json.writable true s.arguments = true := by
  unfold StepReport.toValue
  rw [Json.writable_record]
  cases s.output <;> cases s.error <;> simp [Json.writable, Value.ofOption]

theorem writable_report {r : Report} : Json.writable true r.toValue = true ↔
    ∀ s ∈ r.steps, Json.writable true s.arguments = true := by
  unfold Report.toValue
  rw [Json.writable_record]
  simp [Json.writable, Json.itemsWritable_iff, writable_stepReport]

theorem writable_digest {g : Digest} :
    Json.writable true g.toValue = true ↔ Json.writable true g.timestamp = true := by
  unfold Digest.toValue Pattern.toValue
  rw [Json.writable_record]
  simp [Json.writable, Json.itemsWritable_iff, Json.writable_record, Value.texts]

theorem writable_stepEntry (s : StepReport) :
    Json.writable true (StepEntry.ofReport s).toValue = true := by
  have hoption : ∀ {α : Type} (f : α → Value) (a : Option α),
      (∀ a, Json.writable true (f a) = true) →
      Json.writable true (.ofOption f a) = true := by
    intro α f a hf
    cases a with
    | none => rfl
    | some a => exact hf a
  unfold StepEntry.toValue StepEntry.ofReport
  rw [Json.writable_record]
  simp only [List.forall_mem_cons, List.not_mem_nil, false_imp_iff, implies_true, and_true]
  refine ⟨rfl, rfl, rfl, rfl, ?_, ?_, ?_⟩
  · split
    · rfl
    · rfl
  · split
    · exact hoption _ _ fun _ => rfl
    · rfl
  · split
    · exact hoption _ _ fun _ => rfl
    · rfl

theorem Entry.writable_ofReport (id : String) (time : Float) (r : Report) (url : Value)
    (digest : Option Digest) (workflowId analysis : Value) :
    Json.writable true (Entry.ofReport id time r url digest workflowId analysis).toValue = true ↔
      Enterable r url digest workflowId analysis := by
  have hsteps : Json.writable true
      (.list ((r.steps.map StepEntry.ofReport).map StepEntry.toValue)) = true := by
    rw [Json.writable_list, List.map_map]
    intro v hv
    obtain ⟨s, -, rfl⟩ := List.mem_map.1 hv
    exact writable_stepEntry s
  have hdigest : Json.writable true (.ofOption Digest.toValue digest) = true ↔
      ∀ g ∈ digest, Json.writable true g.timestamp = true := by
    cases digest with
    | none => simp [Value.ofOption, Json.writable]
    | some g => simpa [Value.ofOption] using writable_digest
  have hreason : Json.writable true
      (if r.success then .null else .text (Journal.failureReason r.steps)) = true := by
    split
    · rfl
    · rfl
  unfold Entry.toValue Entry.ofReport
  rw [Json.writable_record]
  simp only [List.forall_mem_cons, List.not_mem_nil, false_imp_iff, implies_true, and_true,
    writable_report, hsteps, hdigest, hreason, true_and]
  constructor
  · rintro ⟨-, -, hurl, hdigest, hreport, -, -, hworkflow, hanalysis⟩
    exact ⟨hreport, hdigest, hurl, hworkflow, hanalysis⟩
  · intro h
    exact ⟨rfl, rfl, h.url, h.digest, h.arguments, rfl, rfl, h.workflowId, h.analysis⟩

end Journal

end BrowserFlow
