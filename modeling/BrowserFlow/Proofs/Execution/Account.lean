import BrowserFlow.Proofs.Execution.Advance
import BrowserFlow.Proofs.Text.Scan

/-!
# The account that a report gives

The numbers of a report are counted from its steps, and the steps are those that the run has taken:
they are numbered from one on and are of the kinds of the first actions of the document. A step that
failed tells how, and one that did not has at most so many characters to say. A run that gives its
report has taken all actions; the failure of a step that ends a strict run carries the report on the
steps until then, the last of which has failed (`report_accounts`).
-/

namespace BrowserFlow

theorem ActionFailure.message_ne_empty (f : ActionFailure) : f.message ≠ "" := by
  intro h
  have hlength := congrArg String.length h
  simp [message, String.length_append] at hlength

/-- A report on a run gives account of some actions. -/
structure Report.Accounts (actions : List Action) (r : Report) : Prop where
  numbers : r.steps.map (·.number) =
    (List.range' 1 r.steps.length).map (fun n : Nat => (n : Int))
  kinds : r.steps.map (·.kind) = (actions.take r.steps.length).map (·.kind)
  planned : r.plannedSteps = actions.length
  total : r.totalSteps = r.steps.length
  sum : r.totalSteps = r.successfulSteps + r.failedSteps
  successful : r.successfulSteps = r.steps.countP (·.success)
  failed : ∀ s ∈ r.steps, s.success = false →
    (∃ message, s.error = some message ∧ message ≠ "") ∧ s.output = none
  done : ∀ s ∈ r.steps, s.success = true →
    s.error = none ∧ ∀ output, s.output = some output → output.length ≤ 500

namespace Execution

variable {e : Executor} {request : RunRequest} {context context' : Table Value} {w w' : World}

/-- The report on actions that were taken gives account of them. -/
theorem Advances.accounts {total : Nat} {xs actions : List Action} {ts : List Taken}
    (h : Advances e request total 1 context w xs ts context' w') (hxs : xs <+: actions) (ms : Int)
    (aborted : Bool) :
    Report.Accounts actions (Report.ofSteps (ts.map (·.report)) ms actions.length aborted) := by
  have hlength : (ts.map (·.report)).length = xs.length := by
    rw [List.length_map, h.length_eq]
  exact
    { numbers := by
        show (ts.map (·.report)).map (·.number) =
          (List.range' 1 (ts.map (·.report)).length).map _
        rw [List.map_map, hlength]
        exact h.numbers_eq
      kinds := by
        show (ts.map (·.report)).map (·.kind) = (actions.take (ts.map (·.report)).length).map _
        rw [List.map_map, hlength, ← List.prefix_iff_eq_take.1 hxs]
        exact h.kinds_eq
      planned := rfl
      total := rfl
      sum := by
        simp only [Report.ofSteps]
        omega
      successful := rfl
      failed := by
        intro s hs hfailed
        obtain ⟨t, ht, rfl⟩ := List.mem_map.1 hs
        obtain ⟨n, a, hproper⟩ := h.proper ht
        cases hfailure : t.failure with
        | none =>
          rw [hproper.success.2 hfailure] at hfailed
          cases hfailed
        | some f =>
          obtain ⟨herror, houtput, -⟩ := hproper.failed f hfailure
          exact ⟨⟨f.message, herror, f.message_ne_empty⟩, houtput⟩
      done := by
        intro s hs hsuccess
        obtain ⟨t, ht, rfl⟩ := List.mem_map.1 hs
        obtain ⟨n, a, hproper⟩ := h.proper ht
        obtain ⟨herror, line, houtput⟩ := hproper.done (hproper.success.1 hsuccess)
        refine ⟨herror, fun output hsome => ?_⟩
        rw [houtput] at hsome
        cases hsome
        exact Text.length_clip_le 500 line }

/-- What a run gives is a report that accounts for all actions of the document. The failure of a
step that it gives in its place carries a report that accounts for the actions until then: the last
step of it has failed and no other. -/
theorem report_accounts (e : Executor) (request : RunRequest) (context : Table Value)
    (actions : List Action) (w : World) :
    (∀ r, (run e request context actions w).1.1 = .ok r →
      r.Accounts actions ∧ r.aborted = false ∧ r.steps.length = actions.length) ∧
    (∀ f, (run e request context actions w).1.1 = .error (.action f) →
      ∃ r, f.result = some r ∧ r.Accounts actions ∧ r.aborted = true ∧
        ∃ before last, r.steps = before ++ [last] ∧ last.success = false ∧
          ∀ s ∈ before, s.success = true) := by
  have hending := exists_ending e request actions.length 1 context actions w
  unfold run
  dsimp only
  generalize runFrom e request actions.length 1 context actions w = p at hending ⊢
  cases hending with
  | finished advances goesOn =>
    constructor
    · rintro r ⟨⟩
      refine ⟨advances.accounts (List.prefix_refl _) _ _, rfl, ?_⟩
      show (List.map _ _).length = _
      rw [List.length_map, advances.length_eq]
    · rintro f ⟨⟩
  | @broken xs rest ts c u v a g advances goesOn reported =>
    -- what is not the failure of a step is given as it is
    cases g with
    | action g => exact absurd rfl (report_ne_action reported g)
    | _ =>
      constructor
      · rintro r ⟨⟩
      · rintro f ⟨⟩
  | @aborted xs rest ts c u v a t g strict advances goesOn reported failure =>
    constructor
    · rintro r ⟨⟩
    · rintro f ⟨⟩
      have hfirst : xs ++ [a] <+: xs ++ a :: rest := ⟨rest, by simp⟩
      have hfailed : t.report.success = false := by
        rw [← Bool.not_eq_true, (report_proper reported).success, failure]
        exact Option.some_ne_none g
      have haccounts := (advances.concat reported).accounts hfirst ((v.clock : Int) - w.clock) true
      rw [List.map_append] at haccounts
      refine ⟨_, rfl, haccounts, rfl, _, _, rfl, hfailed, fun s hs => ?_⟩
      obtain ⟨t, ht, rfl⟩ := List.mem_map.1 hs
      exact (advances.success_iff ht).2 (goesOn t ht)

/-- The failure of a step that a run gives in its place. -/
def stepFailure? : Except Failure Report → Option ActionFailure
  | .error (.action f) => some f
  | _ => none

theorem stepFailure?_eq_some {q : Except Failure Report} {f : ActionFailure}
    (h : stepFailure? q = some f) : q = .error (.action f) := by
  unfold stepFailure? at h
  split at h
  · cases h
    rfl
  · cases h

/-- A click with a script behind it. -/
def clickThenScript : List Action :=
  [⟨"click", .click (.text ".next") (.text "left") 1 none, 1⟩,
    ⟨"evaluate", .evaluate "1" none none, 2⟩]

/-- With nothing to click on, a run reports on both, and a strict run on the click alone. -/
theorem report_accounts_click :
    (∃ r, (run {} {} [] clickThenScript {}).1.1 = .ok r ∧ r.Accounts clickThenScript ∧
      r.steps.length = 2) ∧
    ∃ f r, (run {} { strict := true } [] clickThenScript {}).1.1 = .error (.action f) ∧
      f.result = some r ∧ r.Accounts clickThenScript ∧ r.aborted = true := by
  have hlenient : (run {} {} [] clickThenScript {}).1.1.isOk = true := by
    decide +kernel
  have hstrict : (stepFailure? (run {} { strict := true } [] clickThenScript {}).1.1).isSome =
      true := by
    decide +kernel
  obtain ⟨hok, -⟩ := report_accounts {} {} [] clickThenScript {}
  obtain ⟨-, herror⟩ := report_accounts {} { strict := true } [] clickThenScript {}
  constructor
  · cases hrun : (run {} {} [] clickThenScript {}).1.1 with
    | error f =>
      rw [hrun] at hlenient
      cases hlenient
    | ok r =>
      obtain ⟨haccounts, -, hlength⟩ := hok r hrun
      exact ⟨r, rfl, haccounts, hlength⟩
  · obtain ⟨f, hf⟩ := Option.isSome_iff_exists.1 hstrict
    have hrun := stepFailure?_eq_some hf
    obtain ⟨r, hresult, haccounts, haborted, -⟩ := herror f hrun
    exact ⟨f, r, hrun, hresult, haccounts, haborted⟩

end Execution

end BrowserFlow
