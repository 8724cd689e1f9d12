import BrowserFlow.Proofs.Execution.Advance
import BrowserFlow.Proofs.World.Frame

/-!
# The files of a run

The files that a run of a document can put are told by the actions that it takes (`quiet_run`): they
are those in which these keep their data. Every action that a run takes is in the report on it, with
the file that it names (`exists_step_of_takes`), so that they are told by the report as well
(`quiet_run_ok`).
-/

namespace BrowserFlow

open Effect

variable {B : Disk.Bounds}

/-- The file that a step named for its data, as it is reported. -/
def StepReport.filename? (s : StepReport) : Option String :=
  match s.arguments.field "filename" with
  | .text name => some name
  | _ => none

namespace Execution

variable {e : Executor} {request : RunRequest} {instruction : Option String}

/-- The bounds allow what an action does to keep its data. -/
abbrev Allows (B : Disk.Bounds) (e : Executor) (filename : Option String) : Prop :=
  ∀ folder ∈ e.data, folder.Covered B filename

/-- An action does nothing to the disk but what it does to keep its data. -/
theorem quiet_report {a : Action} (h : Allows B e a.step.filename?) (total number : Nat) :
    Leads (World.Quiet B) (report e instruction total number a) := by
  refine World.quiet_onward.leads_report total number fun limit script format filename hs => ?_
  refine World.quiet_onward.leads_extract (fun folder hfolder data format => ?_) limit script format
  have hcovered := h folder hfolder
  rw [hs] at hcovered
  exact hcovered.quiet_save instruction data format

/-- What a run does to the world, by the actions that it takes. -/
theorem quiet_runFrom {total number : Nat} {context : Table Value} {actions : List Action}
    {w : World}
    (h : ∀ a x, Takes e request total number context actions w a x →
      Allows B e a.step.filename?) :
    World.Quiet B w (runFrom e request total number context actions w).2 :=
  leads_runFrom World.quiet_onward fun a x n ha => quiet_report (h a x ha) total n x

/-- So it is for the run of a document. -/
theorem quiet_run {context : Table Value} {actions : List Action} {w : World}
    (h : ∀ a x, Takes e request actions.length 1 context actions w a x →
      Allows B e a.step.filename?) :
    World.Quiet B w (run e request context actions w).2 := by
  have hrun := quiet_runFrom h
  unfold run
  dsimp only
  split
  · exact hrun
  · exact hrun
  · dsimp only
    split
    · exact hrun
    · refine trans_of (World.Quiet B) hrun ?_
      exact .of_eq rfl rfl rfl

/-! ## By the report -/

theorem report_arguments {a : Action} {total number : Nat} {w u : World} {t : Taken}
    (h : (report e instruction total number a).run w = (.ok t, u)) :
    t.report.arguments = .record a.step.arguments := by
  rw [report_eq] at h
  dsimp only at h
  generalize Effect.run (take e instruction number a) w = taken at h
  obtain ⟨outcome, v⟩ := taken
  cases outcome with
  | ok o =>
    cases h
    rfl
  | error f =>
    cases f with
    | action f =>
      cases h
      rfl
    | _ => cases h

/-- Every action that a run takes is reported, if the run does not end early. -/
theorem exists_step_of_takes {total number : Nat} {context : Table Value} {actions : List Action}
    {w x : World} {a : Action} (h : Takes e request total number context actions w a x)
    (hended : (runFrom e request total number context actions w).1.ended = none) :
    ∃ s ∈ (runFrom e request total number context actions w).1.steps,
      s.arguments = .record a.step.arguments := by
  have hcons : ∀ {number : Nat} {context : Table Value} {b : Action} {rest : List Action}
      {w : World},
      (runFrom e request total number context (b :: rest) w).1.ended = none →
      ∃ t u,
        (report e request.instruction total number (fill request context b)).run w = (.ok t, u) ∧
        let later := runFrom e request total (number + 1) (keep context t.stored) rest
          (pause e total number u)
        later.1.ended = none ∧
          (runFrom e request total number context (b :: rest) w).1.steps =
            t.report :: later.1.steps := by
    intro number context b rest w hended
    cases hrep : (report e request.instruction total number (fill request context b)).run w with
    | mk r u =>
      cases r with
      | error f =>
        rw [runFrom_cons_error hrep] at hended
        cases hended
      | ok t =>
        rcases goesOn_or_failed request t with hgoesOn | ⟨hstrict, f, hfailure⟩
        · rw [runFrom_cons_ok hgoesOn hrep] at hended ⊢
          exact ⟨t, u, rfl, hended, rfl⟩
        · rw [runFrom_cons_failed hstrict hfailure hrep] at hended
          cases hended
  induction h with
  | here number context b rest w =>
    obtain ⟨t, u, hrep, -, hsteps⟩ := hcons hended
    rw [hsteps]
    exact ⟨t.report, List.mem_cons_self, report_arguments hrep⟩
  | @later number context b a rest w u x t reported goesOn takes ih =>
    obtain ⟨t', u', hrep, hlater, hsteps⟩ := hcons hended
    cases reported.symm.trans hrep
    obtain ⟨s, hs, harguments⟩ := ih hlater
    rw [hsteps]
    exact ⟨s, List.mem_cons_of_mem _ hs, harguments⟩

/-- The report on a step names the file that the step does. -/
theorem filename?_of_arguments {s : StepReport} {step : Step}
    (h : s.arguments = .record step.arguments) : s.filename? = step.filename? := by
  unfold StepReport.filename?
  rw [h]
  cases step with
  | evaluate script format filename => cases format <;> cases filename <;> rfl
  | navigate url waitUntil t => cases t <;> rfl
  | click s button clicks t => cases t <;> rfl
  | typeText s text delay submit t => cases t <;> rfl
  | waitTime ms t => cases t <;> rfl
  | waitElement s state t => cases t <;> rfl
  | waitUrl url t => cases t <;> rfl
  | hover s position t => cases t <;> rfl
  | select s choice t => cases t <;> rfl
  | fillForm fields t => cases t <;> rfl
  | assert s text value visible t => cases t <;> rfl
  | _ => rfl

/-- What a run of which there is a report does to the world, by the steps that are reported. -/
theorem quiet_run_ok {context context' : Table Value} {actions : List Action} {w w' : World}
    {r : Report} (hrun : run e request context actions w = ((.ok r, context'), w'))
    (h : ∀ s ∈ r.steps, Allows B e s.filename?) : World.Quiet B w w' := by
  have hresult := (run_ok_iff context actions w r).1 (congrArg (fun p => p.1.1) hrun)
  obtain ⟨hended, hr⟩ := hresult
  have hquiet : World.Quiet B w (run e request context actions w).2 := by
    refine quiet_run fun a x hx => ?_
    obtain ⟨s, hs, harguments⟩ := exists_step_of_takes hx hended
    rw [← filename?_of_arguments harguments]
    refine h s ?_
    rw [hr]
    exact hs
  rw [hrun] at hquiet
  exact hquiet

end Execution

end BrowserFlow
