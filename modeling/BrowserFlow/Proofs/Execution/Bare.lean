import BrowserFlow.Proofs.Execution.Found
import BrowserFlow.Proofs.Execution.Rerun

/-!
# Runs that keep no data

A run is compared with the run of the same executor without a folder for data. As long as the disk
is all that can keep data from being kept, the two go side by side: they leave the same page at the
same time, and what they give is the same but for the outputs. An output differs only where a script
returned data that has been kept, and there by the path behind it (`run_bare`).

The argument is on one step (`meets_report_bare`). What a script returned is settled by both runs,
and in neither does that ask anything of the page or store anything. From there it is an induction
on the actions (`runFrom_bare`).
-/

namespace BrowserFlow

open Effect

/-! ## Without outputs -/

/-- A report on a step that does not tell what the output is, only whether there is one. -/
def StepReport.muted (s : StepReport) : StepReport :=
  { s with output := s.output.map fun _ => "" }

def Report.muted (r : Report) : Report :=
  { r with steps := r.steps.map StepReport.muted }

/-- A failure, with the report that it may carry. -/
def Failure.muted : Failure → Failure
  | .action f => .action { f with result := f.result.map Report.muted }
  | f => f

/-- The numbers in a report are told by its steps without their outputs. -/
theorem Report.muted_ofSteps (steps : List StepReport) (totalMs : Int) (planned : Nat)
    (aborted : Bool) : (ofSteps steps totalMs planned aborted).muted =
      ofSteps (steps.map StepReport.muted) totalMs planned aborted := by
  have hcount : (steps.map StepReport.muted).countP (·.success) = steps.countP (·.success) := by
    rw [List.countP_map]
    rfl
  unfold ofSteps muted
  rw [hcount, List.length_map]

/-- The same executor without a folder for data. -/
def Executor.bare (e : Executor) : Executor :=
  { e with data := none }

namespace Execution

open World (SamePage)

variable {e : Executor} {request : RunRequest} {instruction : Option String} {total number : Nat}
  {context : Table Value} {actions : List Action} {w w' : World}

/-! ## One step -/

/-- If data that a script returned is not kept then because of the disk. -/
def OnlyDiskFails (e : Executor) (instruction : Option String) (a : Action) (x : World) : Prop :=
  ∀ folder ∈ e.data, ∀ format filename v u, Returned e a x format filename v u →
    Extraction.isData v = true →
      ∀ f, ((folder.save instruction v format filename).run u).1 = .error f → f.ofDisk = true

theorem OnlyDiskFails.not_refuses {a : Action} {x : World}
    (h : OnlyDiskFails e instruction a x) (v : Value) : ¬ Refuses e a x v := by
  rintro ⟨folder, hfolder, format, filename, u, hreturned, hdata, haccepts⟩
  have hfails : ((folder.save instruction v format filename).run u).1 =
      .error DataFolder.noPath := by
    rw [folder.save_eq, if_neg (by rw [haccepts]; decide)]
    rfl
  exact Bool.false_ne_true (h folder hfolder format filename v u hreturned hdata _ hfails)

/-- With a folder for data a value `told` is made of what an action did, and without one `plain`.
They are made of the line for what a script returned, with the path behind it under which it has
been kept, or they are the same. -/
def Tells {α : Type} (e : Executor) (instruction : Option String) (a : Action) (x : World)
    (make : String → α) (told plain : α) : Prop :=
  (∃ v path, Saves e instruction a x v path ∧ plain = make (Extraction.summary v) ∧
    told = make (Extraction.summary v ++ " - saved to " ++ path)) ∨
  (∀ v path, ¬ Saves e instruction a x v path) ∧ told = plain

theorem Tells.map {α β : Type} {a : Action} {x : World} {make : String → α} {told plain : α}
    (h : Tells e instruction a x make told plain) (f : α → β) :
    Tells e instruction a x (fun s => f (make s)) (f told) (f plain) := by
  rcases h with ⟨v, path, hsaves, hplain, htold⟩ | ⟨hnone, hsame⟩
  · exact Or.inl ⟨v, path, hsaves, congrArg f hplain, congrArg f htold⟩
  · exact Or.inr ⟨hnone, congrArg f hsame⟩

/-- Both have done the same, but for what is told of it. -/
def SameDone (e : Executor) (instruction : Option String) (a : Action) (x : World)
    (o o' : StepOutcome) : Prop :=
  o'.stored = o.stored ∧ Tells e instruction a x id o.output o'.output

theorem Saves.act_ok {a : Action} {x : World} {v : Value} {path : String}
    (h : Saves e instruction a x v path) : ∃ o, ((act e instruction a).run x).1 = .ok o := by
  have hsaves := h
  obtain ⟨folder, -, format, filename, u, hreturned, -⟩ := hsaves
  obtain ⟨y, -, -, ⟨kept, -, hrun⟩ | ⟨hnone, -⟩ | ⟨hrefuses, -⟩⟩ :=
    act_returned hreturned instruction
  · rw [hrun]
    exact ⟨_, rfl⟩
  · exact absurd h (hnone path)
  · exact absurd hrefuses h.not_refuses

theorem parallel_evaluation (d d' : Nat) (e : Executor) (script : String) :
    Parallel (SamePage d d') Eq (evaluation e script) (evaluation e script) := by
  have hcall : Parallel (SamePage d d') Eq (reading e (.evaluate script none))
      (reading e (.evaluate script none)) :=
    (World.link_samePage d d').parallel_within fun _ _ hlimit =>
      (World.link_samePage d d').parallel_call hlimit _
  unfold evaluation
  split
  · exact parallel_bind_eq (parallel_throw _) fun _ => hcall
  · exact hcall

/-- Where there is no folder for data none is kept and no name is refused. -/
theorem act_returned_bare {a : Action} {x u : World} {format filename : Option String} {v : Value}
    (h : Returned e.bare a x format filename v u) (instruction : Option String) :
    ∃ y, y.page = u.page ∧ y.clock = u.clock ∧
      (act e.bare instruction a).run x = (.ok { output := Extraction.summary v }, y) := by
  obtain ⟨y, hpage, hclock, ⟨path, ⟨folder, hfolder, -⟩, -⟩ | ⟨-, -, hrun⟩ |
    ⟨⟨folder, hfolder, -⟩, -⟩⟩ := act_returned h instruction
  · cases hfolder
  · exact ⟨y, hpage, hclock, hrun⟩
  · cases hfolder

/-- A script comes to the same with a folder for data and without one. -/
theorem meets_script_bare {a : Action} {script : String} {format filename : Option String}
    (hstep : a.step = .evaluate script format filename) (hw : SamePage 0 0 w w')
    (hdisk : OnlyDiskFails e instruction a w) :
    Meets (SamePage 0 0) (SameDone e instruction a w) ((act e instruction a).run w)
      ((act e.bare instruction a).run w') := by
  obtain ⟨hresult, hstate⟩ := parallel_evaluation 0 0 e script w w' hw
  rcases hrun : (evaluation e script).run w with ⟨r, u⟩
  rcases hrun' : (evaluation e script).run w' with ⟨r', u'⟩
  rw [hrun, hrun'] at hresult hstate
  cases hresult with
  | error f =>
    rw [act_evaluate hstep, act_evaluate hstep, run_bind_error hrun]
    have hbare : (evaluation e.bare script).run w' = (.error f, u') := hrun'
    rw [run_bind_error hbare]
    exact ⟨.error f, hstate⟩
  | @ok v v' related =>
    subst related
    have hreturned : Returned e a w format filename v u := ⟨script, hstep, hrun⟩
    have hreturned' : Returned e.bare a w' format filename v u' := ⟨script, hstep, hrun'⟩
    obtain ⟨y', hpage', hclock', hact'⟩ := act_returned_bare hreturned' instruction
    obtain ⟨y, hpage, hclock, hact⟩ := act_returned hreturned instruction
    have hsame : SamePage 0 0 y y' :=
      ⟨by rw [hpage, hpage']; exact hstate.page, by rw [hclock, hclock']; exact hstate.clock⟩
    rw [hact']
    rcases hact with ⟨path, hsaves, hact⟩ | ⟨hnone, -, hact⟩ | ⟨hrefuses, -⟩
    · rw [hact]
      exact ⟨.ok ⟨rfl, Or.inl ⟨v, path, hsaves, rfl, rfl⟩⟩, hsame⟩
    · rw [hact]
      refine ⟨.ok ⟨rfl, Or.inr ⟨fun v' path hsaves => ?_, rfl⟩⟩, hsame⟩
      obtain rfl := hsaves.value_eq hreturned
      exact hnone path hsaves
    · exact absurd hrefuses (hdisk.not_refuses v)

theorem meets_act_bare {a : Action} (hw : SamePage 0 0 w w')
    (hdisk : OnlyDiskFails e instruction a w) :
    Meets (SamePage 0 0) (SameDone e instruction a w) ((act e instruction a).run w)
      ((act e.bare instruction a).run w') := by
  by_cases hscript : ∃ script format filename, a.step = .evaluate script format filename
  · obtain ⟨script, format, filename, hstep⟩ := hscript
    exact meets_script_bare hstep hw hdisk
  · have hother : Parallel (SamePage 0 0) Eq (act e instruction a) (act e.bare instruction a) :=
      (World.link_samePage 0 0).parallel_act a rfl (fun _ => rfl)
        fun _ script format filename hstep => absurd ⟨script, format, filename, hstep⟩ hscript
    refine (hother w w' hw).mono_result fun o o' heq => ?_
    subst heq
    refine ⟨rfl, Or.inr ⟨?_, rfl⟩⟩
    rintro v path ⟨-, -, format, filename, -, ⟨script, hstep, -⟩, -⟩
    exact hscript ⟨script, format, filename, hstep⟩

/-- Both have come to the same with a step, but for the output that is reported of it. -/
structure Taken.SameBare (e : Executor) (instruction : Option String) (a : Action) (x : World)
    (t t' : Taken) : Prop where
  report : t'.report.muted = t.report.muted
  stored : t'.stored = t.stored
  failure : t'.failure = t.failure
  output : Tells e instruction a x (fun s => some (Text.clip outputLength s)) t.report.output
    t'.report.output

/-- A step comes to the same with a folder for data and without one. -/
theorem meets_report_bare (total number : Nat) {a : Action} (hw : SamePage 0 0 w w')
    (hdisk : OnlyDiskFails e instruction a w) :
    Meets (SamePage 0 0) (Taken.SameBare e instruction a w)
      ((report e instruction total number a).run w)
      ((report e.bare instruction total number a).run w') := by
  rw [report_eq, report_eq]
  by_cases hhandled : (e.registry.get? a.kind).isSome
  · have hhandled' : (e.bare.registry.get? a.kind).isSome := hhandled
    obtain ⟨hresult, hstate⟩ := meets_act_bare hw hdisk
    rw [take_eq hhandled, take_eq hhandled']
    have hfails : ∀ f, ((act e instruction a).run w).1 = .error f →
        ∀ v path, ¬ Saves e instruction a w v path := by
      intro f hf v path hsaves
      obtain ⟨o, ho⟩ := hsaves.act_ok
      rw [hf] at ho
      cases ho
    generalize (act e instruction a).run w = p at hresult hstate hfails
    generalize (act e.bare instruction a).run w' = p' at hresult hstate
    obtain ⟨r, u⟩ := p
    obtain ⟨r', u'⟩ := p'
    dsimp only at hresult hstate hfails ⊢
    have hms : (u'.clock : Int) - w'.clock = (u.clock : Int) - w.clock := by
      have := hw.clock
      have := hstate.clock
      omega
    have hsaid : ∀ printed printed' : String,
        SamePage 0 0 { u with printed } { u' with printed := printed' } :=
      fun _ _ => ⟨hstate.page, hstate.clock⟩
    rw [hms]
    cases hresult with
    | ok related =>
      obtain ⟨hstored, htells⟩ := related
      exact ⟨.ok ⟨rfl, hstored, rfl, htells.map fun s => some (Text.clip outputLength s)⟩,
        hsaid _ _⟩
    | error f =>
      rw [mapError_error, mapError_error]
      have hsame : e.bare.timeoutMs = e.timeoutMs := rfl
      rw [hsame]
      cases failureOf number a (a.step.timeout e.timeoutMs) f with
      | action g => exact ⟨.ok ⟨rfl, rfl, rfl, Or.inr ⟨hfails f rfl, rfl⟩⟩, hsaid _ _⟩
      | _ => exact ⟨.error _, hstate⟩
  · have hhandled' : ¬ (e.bare.registry.get? a.kind).isSome := hhandled
    rw [take_unhandled hhandled, take_unhandled hhandled']
    exact ⟨.error _, hw⟩

/-! ## All steps -/

/-- What came of some actions, without the outputs. -/
def Progress.muted (p : Progress) : Progress :=
  { p with steps := p.steps.map StepReport.muted }

/-- Actions come to the same with a folder for data and without one. -/
theorem runFrom_bare (hw : SamePage 0 0 w w')
    (hdisk : ∀ a x, Takes e request total number context actions w a x →
      OnlyDiskFails e request.instruction a x) :
    (runFrom e.bare request total number context actions w').1.muted =
        (runFrom e request total number context actions w).1.muted ∧
      SamePage 0 0 (runFrom e request total number context actions w).2
        (runFrom e.bare request total number context actions w').2 := by
  induction actions generalizing number context w w' with
  | nil => exact ⟨rfl, hw⟩
  | cons a rest ih =>
    obtain ⟨hresult, hstate⟩ :=
      meets_report_bare total number hw (hdisk _ w (.here number context a rest w))
    rcases hrep : (report e request.instruction total number (fill request context a)).run w with
      ⟨r, u⟩
    rcases hrep' : (report e.bare request.instruction total number
      (fill request context a)).run w' with ⟨r', u'⟩
    rw [hrep, hrep'] at hresult hstate
    cases hresult with
    | error f =>
      rw [runFrom_cons_error hrep, runFrom_cons_error hrep']
      exact ⟨rfl, hstate⟩
    | @ok t t' related =>
      rcases goesOn_or_failed request t with hgoesOn | ⟨hstrict, f, hfailure⟩
      · have hgoesOn' : request.strict = false ∨ t'.failure = none := by
          rw [related.failure]
          exact hgoesOn
        rw [runFrom_cons_ok hgoesOn hrep, runFrom_cons_ok hgoesOn' hrep', related.stored]
        obtain ⟨hlater, hafter⟩ := ih (pause_samePage e total number hstate)
          fun b x htakes => hdisk b x (.later hrep hgoesOn htakes)
        obtain ⟨hsteps, hcontext, hended⟩ := Progress.mk.inj hlater
        refine ⟨?_, hafter⟩
        show Progress.mk _ _ _ = Progress.mk _ _ _
        rw [Progress.mk.injEq]
        refine ⟨?_, hcontext, hended⟩
        rw [List.map_cons, List.map_cons, related.report]
        exact congrArg _ hsteps
      · have hfailure' : t'.failure = some f := related.failure.trans hfailure
        rw [runFrom_cons_failed hstrict hfailure hrep, runFrom_cons_failed hstrict hfailure' hrep']
        refine ⟨?_, hstate⟩
        show Progress.mk [_] _ _ = Progress.mk [_] _ _
        rw [related.report]

/-- What a run gives, without the outputs. -/
def mutedEnd (q : Except Failure Report) : Except Failure Report :=
  (q.map Report.muted).mapError Failure.muted

/-- What a run gives is told by what came of its actions. -/
theorem mutedEnd_run {e' : Executor} (hclock : w'.clock = w.clock)
    (hprogress : (runFrom e' request actions.length 1 context actions w').1.muted =
      (runFrom e request actions.length 1 context actions w).1.muted)
    (hstate : SamePage 0 0 (runFrom e request actions.length 1 context actions w).2
      (runFrom e' request actions.length 1 context actions w').2) :
    mutedEnd (run e' request context actions w').1.1 =
      mutedEnd (run e request context actions w).1.1 := by
  unfold run
  dsimp only
  generalize runFrom e request actions.length 1 context actions w = p at hprogress hstate
  generalize runFrom e' request actions.length 1 context actions w' = p' at hprogress hstate
  obtain ⟨⟨steps, after, ended⟩, u⟩ := p
  obtain ⟨⟨steps', after', ended'⟩, u'⟩ := p'
  obtain ⟨hsteps, rfl, rfl⟩ := Progress.mk.inj hprogress
  have helapsed : (u'.clock : Int) - w'.clock = u.clock - w.clock := by
    rw [hclock, ← Nat.add_zero u'.clock, ← hstate.clock, Nat.add_zero]
  have hreport : ∀ aborted,
      (Report.ofSteps steps' (u'.clock - w'.clock) actions.length aborted).muted =
        (Report.ofSteps steps (u.clock - w.clock) actions.length aborted).muted := by
    intro aborted
    rw [Report.muted_ofSteps, Report.muted_ofSteps, hsteps, helapsed]
  cases ended' with
  | none => exact congrArg Except.ok (hreport false)
  | some f =>
    cases f with
    | action f =>
      exact congrArg (fun r => (Except.error (Failure.action { f with result := some r }) :
        Except Failure Report)) (hreport true)
    | _ => rfl

section

variable (hdisk : ∀ a x, Takes e request actions.length 1 context actions w a x →
  OnlyDiskFails e request.instruction a x)

include hdisk

/-- So it is with the first actions of a run. -/
theorem stage_bare (i : Nat) :
    contextAt e.bare request context actions w i = contextAt e request context actions w i ∧
      SamePage 0 0 (worldAt e request context actions w i)
        (worldAt e.bare request context actions w i) := by
  have hfirst : ∀ a x, Takes e request actions.length 1 context (actions.take i) w a x →
      OnlyDiskFails e request.instruction a x := by
    intro a x htakes
    have hall := htakes.append (actions.drop i)
    rw [List.take_append_drop] at hall
    exact hdisk a x hall
  obtain ⟨hprogress, hstate⟩ := runFrom_bare ⟨rfl, rfl⟩ hfirst
  exact ⟨(Progress.mk.inj hprogress).2.1, hstate⟩

/-- A run that keeps data and one that does not, from the same world, come to the same, as long as
only the disk can keep data from being kept: to the same reports but for the outputs, the same
failures, the same stored values and the same page at the same time. The output of a step differs
exactly where it returned data that has been kept, and there by the path behind it. -/
theorem run_bare :
    mutedEnd (run e.bare request context actions w).1.1 =
        mutedEnd (run e request context actions w).1.1 ∧
      (run e.bare request context actions w).1.2 = (run e request context actions w).1.2 ∧
      (run e.bare request context actions w).2.page = (run e request context actions w).2.page ∧
      (run e.bare request context actions w).2.clock = (run e request context actions w).2.clock ∧
      ∀ r r', Gives (run e request context actions w).1.1 r →
        Gives (run e.bare request context actions w).1.1 r' →
          ∀ i a s s', actions[i]? = some a → r.steps[i]? = some s → r'.steps[i]? = some s' →
            Tells e request.instruction
              (fill request (contextAt e request context actions w i) a)
              (worldAt e request context actions w i)
              (fun line => some (Text.clip outputLength line)) s.output s'.output := by
  obtain ⟨hprogress, hstate⟩ := runFrom_bare ⟨rfl, rfl⟩ hdisk
  refine ⟨mutedEnd_run rfl hprogress hstate, ?_, ?_, ?_, ?_⟩
  · rw [context_run, context_run]
    exact (Progress.mk.inj hprogress).2.1
  · rw [page_run, page_run]
    exact hstate.page.symm
  · rw [world_run, world_run e]
    exact hstate.clock.symm
  · intro r r' hr hr' i a s s' ha hs hs'
    obtain ⟨b, t, v, hb, rfl, htakes, hreport⟩ := reported_of_gives hr hs
    obtain ⟨b', t', v', hb', rfl, -, hreport'⟩ := reported_of_gives hr' hs'
    cases ha.symm.trans hb
    cases ha.symm.trans hb'
    obtain ⟨hcontext, hworld⟩ := stage_bare hdisk i
    rw [hcontext] at hreport'
    obtain ⟨hresult, -⟩ := meets_report_bare actions.length (1 + i) hworld (hdisk _ _ htakes)
    rw [hreport, hreport'] at hresult
    cases hresult with
    | ok related => exact related.output

end

/-- A list of one number is told with the path under which it has been kept, or without. -/
theorem run_bare_listing :
    (run silently.bare {} [] [keptAs "n"] listing).2.page =
        (run silently {} [] [keptAs "n"] listing).2.page ∧
      (run silently {} [] [keptAs "n"] listing).1.1.toOption.map (·.steps.map (·.output)) =
        some [some "Extracted data (1 items): [1] - saved to d/n"] ∧
      (run silently.bare {} [] [keptAs "n"] listing).1.1.toOption.map (·.steps.map (·.output)) =
        some [some "Extracted data (1 items): [1]"] := by
  have hdisk : ∀ a x, Takes silently {} 1 1 [] [keptAs "n"] listing a x →
      OnlyDiskFails silently none a x := by
    intro a x htakes
    cases htakes with
    | here =>
      rintro folder ⟨⟩ format filename v u hreturned - f hf
      obtain ⟨u', hagain⟩ := returned_listing (by decide : '$' ∉ "n".toList)
      obtain ⟨-, rfl, -, -⟩ := hagain.unique hreturned
      rcases DataFolder.save_fails _ _ _ _ _ hf with ⟨hof, -⟩ | ⟨-, haccepts⟩
      · exact hof
      · exact absurd haccepts (by decide)
    | later _ _ htakes => cases htakes
  exact ⟨(run_bare hdisk).2.2.1, by decide +kernel, by decide +kernel⟩

end Execution

end BrowserFlow
