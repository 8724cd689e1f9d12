import BrowserFlow.Proofs.Execution.Stored
import BrowserFlow.Proofs.Execution.Touch

/-!
# What becomes of what a script returned

A step that evaluates a script asks the page for its value and then settles what becomes of the
value (`act_evaluate`). There are four ways (`settled_settle`): the value is only told, it is kept
as well, it is lost on the disk, or the name for it is refused. Only the last makes the step fail.

Every step on which a run reports is reported where the actions before it have led, also in a run
that ends early (`reported_of_step`). So what a run reports of a script is told by the value that
the script returned (`output_of_returned`).
-/

namespace BrowserFlow

open Effect

/-! ## Settling -/

namespace Step

/-- What is done with a value that a script returned. -/
def settle (scene : Scene) (format filename : Option String) (result : Value) :
    Effect Fault World StepOutcome := do
  let output := Extraction.summary result
  match scene.data, Extraction.isData result with
  | some folder, true =>
    match ← Effect.attempt (folder.save scene.instruction result format filename) with
    | .ok path => return { output := output ++ " - saved to " ++ path }
    | .error f =>
      if !f.ofDisk then throw f
      World.warn ("提取数据保存失败: " ++ f.message)
      return { output }
  | _, _ => return { output }

theorem extract_eq (scene : Scene) (limit : Option Nat) (script : String)
    (format filename : Option String) :
    extract scene limit script format filename =
      World.call limit (.evaluate script none) >>= settle scene format filename :=
  rfl

/-- What becomes of a value that a script returned. -/
inductive Settled (scene : Scene) (format filename : Option String) (v : Value) (u : World) :
    Except Fault StepOutcome × World → Prop
  | told (h : ∀ folder ∈ scene.data, Extraction.isData v = false) :
      Settled scene format filename v u (.ok { output := Extraction.summary v }, u)
  | saved {folder : DataFolder} {path : String} {u' : World} (hfolder : folder ∈ scene.data)
      (hdata : Extraction.isData v = true)
      (hsave : (folder.save scene.instruction v format filename).run u = (.ok path, u')) :
      Settled scene format filename v u
        (.ok { output := Extraction.summary v ++ " - saved to " ++ path }, u')
  /-- The disk does not keep it. -/
  | lost {folder : DataFolder} {f : Fault} {u' : World} (hfolder : folder ∈ scene.data)
      (hdata : Extraction.isData v = true)
      (hsave : (folder.save scene.instruction v format filename).run u = (.error f, u'))
      (hdisk : f.ofDisk = true) :
      Settled scene format filename v u (.ok { output := Extraction.summary v },
        { u' with warnings := u'.warnings ++ ["提取数据保存失败: " ++ f.message] })
  /-- The name for it can be part of no path. -/
  | refused {folder : DataFolder} (hfolder : folder ∈ scene.data)
      (hdata : Extraction.isData v = true) (haccepts : folder.accepts filename = false) :
      Settled scene format filename v u (.error DataFolder.noPath, u)

theorem settled_settle (scene : Scene) (format filename : Option String) (v : Value) (u : World) :
    Settled scene format filename v u ((settle scene format filename v).run u) := by
  unfold settle
  dsimp only
  split
  · rename_i folder hfolder hdata
    rcases hsave : (folder.save scene.instruction v format filename).run u with ⟨f | path, u'⟩
    · have hattempt : (attempt (folder.save scene.instruction v format filename) :
          Effect Fault World _).run u = (.ok (.error f), u') := by
        rw [run_attempt, hsave]
      rw [run_bind_ok hattempt]
      rcases folder.save_fails _ v format filename (congrArg Prod.fst hsave) with
        ⟨hdisk, -⟩ | ⟨rfl, haccepts⟩
      · dsimp only
        rw [hdisk]
        exact .lost hfolder hdata hsave hdisk
      · have hrefused : u' = u := by
          rw [folder.save_eq, if_neg (by rw [haccepts]; decide)] at hsave
          cases hsave
          rfl
        rw [hrefused]
        exact .refused hfolder hdata haccepts
    · have hattempt : (attempt (folder.save scene.instruction v format filename) :
          Effect Fault World _).run u = (.ok (.ok path), u') := by
        rw [run_attempt, hsave]
      rw [run_bind_ok hattempt]
      exact .saved hfolder hdata hsave
  · rename_i hother
    refine .told fun folder hfolder => ?_
    rw [← Bool.not_eq_true]
    exact fun hdata => hother folder hfolder hdata

end Step

namespace Execution

variable {e : Executor} {request : RunRequest} {instruction : Option String} {total number : Nat}
  {context : Table Value} {actions : List Action} {w : World}

/-! ## Scripts -/

/-- Asks the page for the value of a script, within the time of a step. -/
def evaluation (e : Executor) (script : String) : Effect Fault World Value := do
  if timeBound ≤ (e.timeoutMs + graceMs).natAbs then
    throw overlong
  reading e (.evaluate script none)

/-- A script is evaluated and what it returns is settled. -/
theorem act_evaluate {a : Action} {script : String} {format filename : Option String}
    (hstep : a.step = .evaluate script format filename) :
    act e instruction a =
      evaluation e script >>= Step.settle ⟨e.data, instruction⟩ format filename := by
  have hwithin : ∀ ms : Int, (World.within ms fun limit =>
      Step.extract ⟨e.data, instruction⟩ limit script format filename) =
        (World.within ms fun limit => World.call limit (.evaluate script none)) >>=
          Step.settle ⟨e.data, instruction⟩ format filename := by
    intro ms
    unfold World.within
    by_cases hms : ms ≤ 0
    · rw [if_pos hms, if_pos hms]
      rfl
    · rw [if_neg hms, if_neg hms]
      rfl
  have htimeout : a.step.timeout e.timeoutMs = e.timeoutMs := by
    rw [hstep]
    rfl
  unfold act evaluation reading
  rw [htimeout, hstep]
  dsimp only
  by_cases hlong : timeBound ≤ (e.timeoutMs + graceMs).natAbs
  · rw [if_pos hlong, if_pos hlong]
    rfl
  · rw [if_neg hlong, if_neg hlong]
    exact hwithin _

/-- An action evaluates a script that returns a value, which leads to another world. -/
def Returned (e : Executor) (a : Action) (x : World) (format filename : Option String) (v : Value)
    (u : World) : Prop :=
  ∃ script, a.step = .evaluate script format filename ∧ (evaluation e script).run x = (.ok v, u)

/-- What a script returned is settled. -/
theorem Returned.settled {a : Action} {x u : World} {format filename : Option String} {v : Value}
    (h : Returned e a x format filename v u) (instruction : Option String) :
    Step.Settled ⟨e.data, instruction⟩ format filename v u ((act e instruction a).run x) := by
  obtain ⟨script, hstep, hrun⟩ := h
  rw [act_evaluate hstep, run_bind_ok hrun]
  exact Step.settled_settle _ format filename v u

/-! ## The steps of a run -/

/-- A run gives a report, be it in the failure that ended it. -/
def Gives (q : Except Failure Report) (r : Report) : Prop :=
  q = .ok r ∨ ∃ f, q = .error (.action f) ∧ f.result = some r

/-- What a run takes of its first actions it takes of all of them. -/
theorem Takes.append {b : Action} {x : World}
    (h : Takes e request total number context actions w b x) (rest : List Action) :
    Takes e request total number context (actions ++ rest) w b x := by
  induction h with
  | here number context a others w => exact .here number context a (others ++ rest) w
  | later reported goesOn _ ih => exact .later reported goesOn ih

/-- Every step on which a run reports is reported where the actions before it have led. -/
theorem reported_of_runFrom {i : Nat} {s : StepReport}
    (hs : (runFrom e request total number context actions w).1.steps[i]? = some s) :
    ∃ a t v, actions[i]? = some a ∧ t.report = s ∧
      let before := runFrom e request total number context (actions.take i) w
      Takes e request total number context actions w (fill request before.1.context a) before.2 ∧
      (report e request.instruction total (number + i) (fill request before.1.context a)).run
        before.2 = (.ok t, v) := by
  induction actions generalizing number context w i with
  | nil => cases hs
  | cons a rest ih =>
    rcases hrep : (report e request.instruction total number (fill request context a)).run w with
      ⟨f | t, u⟩
    · rw [runFrom_cons_error hrep] at hs
      cases hs
    rcases i with _ | i
    · refine ⟨a, t, u, rfl, ?_, .here number context a rest w, hrep⟩
      rcases goesOn_or_failed request t with hgoesOn | ⟨hstrict, f, hfailure⟩
      · rw [runFrom_cons_ok hgoesOn hrep] at hs
        exact Option.some.inj hs
      · rw [runFrom_cons_failed hstrict hfailure hrep] at hs
        exact Option.some.inj hs
    · rcases goesOn_or_failed request t with hgoesOn | ⟨hstrict, f, hfailure⟩
      · rw [runFrom_cons_ok hgoesOn hrep] at hs
        obtain ⟨b, t', v, hb, hreport, htakes, hrun⟩ := ih hs
        rw [Nat.add_right_comm] at hrun
        refine ⟨b, t', v, hb, hreport, ?_⟩
        rw [List.take_succ_cons, runFrom_cons_ok hgoesOn hrep]
        exact ⟨.later hrep hgoesOn htakes, hrun⟩
      · rw [runFrom_cons_failed hstrict hfailure hrep] at hs
        cases hs

theorem steps_of_gives {r : Report} (h : Gives (run e request context actions w).1.1 r) :
    r.steps = (runFrom e request actions.length 1 context actions w).1.steps := by
  unfold run at h
  dsimp only at h
  generalize runFrom e request actions.length 1 context actions w = p at h ⊢
  obtain ⟨⟨steps, after, ended⟩, u⟩ := p
  cases ended with
  | none =>
    rcases h with h | ⟨f, h, -⟩
    · cases h
      rfl
    · cases h
  | some f =>
    cases f with
    | action f =>
      rcases h with h | ⟨g, h, hresult⟩
      · cases h
      · cases h
        cases hresult
        rfl
    | _ =>
      rcases h with h | ⟨g, h, -⟩
      · cases h
      · cases h

/-- So it is with the steps of a report that a run gives. -/
theorem reported_of_gives {r : Report} (h : Gives (run e request context actions w).1.1 r) {i : Nat}
    {s : StepReport} (hs : r.steps[i]? = some s) :
    ∃ a t v, actions[i]? = some a ∧ t.report = s ∧
      Takes e request actions.length 1 context actions w
        (fill request (contextAt e request context actions w i) a)
        (worldAt e request context actions w i) ∧
      (report e request.instruction actions.length (1 + i)
        (fill request (contextAt e request context actions w i) a)).run
          (worldAt e request context actions w i) = (.ok t, v) := by
  rw [steps_of_gives h] at hs
  exact reported_of_runFrom hs

/-- What is reported of an action is what it did. -/
theorem act_of_report {a : Action} {v : World} {t : Taken}
    (h : (report e instruction total number a).run w = (.ok t, v)) :
    (∃ o, ((act e instruction a).run w).1 = .ok o ∧ t.failure = none ∧ t.stored = o.stored ∧
      t.report.output = some (Text.clip outputLength o.output)) ∨
    ∃ f g, ((act e instruction a).run w).1 = .error f ∧ t.failure = some g ∧
      t.report.output = none := by
  obtain ⟨ms, ⟨o, ho, rfl⟩ | ⟨g, hg, rfl⟩⟩ := report_cases h
  · refine Or.inl ⟨o, ?_, rfl, rfl, rfl⟩
    by_cases hhandled : (e.registry.get? a.kind).isSome
    · rw [take_eq hhandled] at ho
      cases hact : ((act e instruction a).run w).1 with
      | ok o' =>
        rw [hact] at ho
        cases ho
        rfl
      | error f =>
        rw [hact] at ho
        cases ho
    · rw [take_unhandled hhandled] at ho
      cases ho
  · by_cases hhandled : (e.registry.get? a.kind).isSome
    · rw [take_eq hhandled] at hg
      cases hact : ((act e instruction a).run w).1 with
      | ok o =>
        rw [hact] at hg
        cases hg
      | error f => exact Or.inr ⟨f, g, rfl, rfl, rfl⟩
    · rw [take_unhandled hhandled] at hg
      cases hg

/-! ## What a run reports of a script -/

theorem Returned.unique {a : Action} {x u u' : World}
    {format format' filename filename' : Option String} {v v' : Value}
    (h : Returned e a x format filename v u)
    (h' : Returned e a x format' filename' v' u') :
    format' = format ∧ filename' = filename ∧ v' = v ∧ u' = u := by
  obtain ⟨script, hstep, hrun⟩ := h
  obtain ⟨script', hstep', hrun'⟩ := h'
  rw [hstep] at hstep'
  cases hstep'
  rw [hrun] at hrun'
  cases hrun'
  exact ⟨rfl, rfl, rfl, rfl⟩

/-- A value that a script returned is kept as data under a path. -/
def Saves (e : Executor) (instruction : Option String) (a : Action) (x : World) (v : Value)
    (path : String) : Prop :=
  ∃ folder ∈ e.data, ∃ format filename u, Returned e a x format filename v u ∧
    Extraction.isData v = true ∧
    ((folder.save instruction v format filename).run u).1 = .ok path

/-- A value that a script returned is data for which the name can be part of no path. -/
def Refuses (e : Executor) (a : Action) (x : World) (v : Value) : Prop :=
  ∃ folder ∈ e.data, ∃ format filename u, Returned e a x format filename v u ∧
    Extraction.isData v = true ∧ folder.accepts filename = false

theorem Saves.not_refuses {a : Action} {x : World} {v : Value} {path : String}
    (h : Saves e instruction a x v path) : ¬ Refuses e a x v := by
  obtain ⟨folder, hfolder, format, filename, u, hreturned, -, hsave⟩ := h
  rintro ⟨folder', hfolder', format', filename', u', hreturned', -, haccepts⟩
  obtain ⟨-, rfl, -, -⟩ := hreturned.unique hreturned'
  cases hfolder.symm.trans hfolder'
  rw [DataFolder.save_eq, if_neg (by rw [haccepts]; decide)] at hsave
  cases hsave

theorem Returned.refuses_iff {a : Action} {x u : World} {format filename : Option String}
    {v : Value} (h : Returned e a x format filename v u) :
    Refuses e a x v ↔
      ∃ folder ∈ e.data, Extraction.isData v = true ∧ folder.accepts filename = false := by
  constructor
  · rintro ⟨folder, hfolder, format', filename', u', hreturned, hdata, haccepts⟩
    obtain ⟨-, rfl, -, -⟩ := h.unique hreturned
    exact ⟨folder, hfolder, hdata, haccepts⟩
  · rintro ⟨folder, hfolder, hdata, haccepts⟩
    exact ⟨folder, hfolder, format, filename, u, h, hdata, haccepts⟩

theorem Saves.value_eq {a : Action} {x u : World} {format filename : Option String} {v v' : Value}
    {path : String} (h : Saves e instruction a x v' path)
    (hreturned : Returned e a x format filename v u) : v' = v := by
  obtain ⟨folder, hfolder, format', filename', u', hagain, -⟩ := h
  exact (hreturned.unique hagain).2.2.1

/-- This is the only way in which data can have been kept. -/
theorem Returned.saves_iff {a : Action} {x u : World} {format filename : Option String} {v : Value}
    (h : Returned e a x format filename v u) (path : String) :
    Saves e instruction a x v path ↔ ∃ folder ∈ e.data, Extraction.isData v = true ∧
      ((folder.save instruction v format filename).run u).1 = .ok path := by
  constructor
  · rintro ⟨folder, hfolder, format', filename', u', hreturned, hdata, hsave⟩
    obtain ⟨rfl, rfl, -, rfl⟩ := h.unique hreturned
    exact ⟨folder, hfolder, hdata, hsave⟩
  · rintro ⟨folder, hfolder, hdata, hsave⟩
    exact ⟨folder, hfolder, format, filename, u, h, hdata, hsave⟩

/-- An action whose script returned a value tells the value and where it is kept, unless the name
for it is refused. What becomes of the value asks nothing of the page. -/
theorem act_returned {a : Action} {x u : World} {format filename : Option String} {v : Value}
    (h : Returned e a x format filename v u) (instruction : Option String) :
    ∃ y, y.page = u.page ∧ y.clock = u.clock ∧
      ((∃ path, Saves e instruction a x v path ∧ (act e instruction a).run x =
          (.ok { output := Extraction.summary v ++ " - saved to " ++ path }, y)) ∨
        ((∀ path, ¬ Saves e instruction a x v path) ∧ ¬ Refuses e a x v ∧
          (act e instruction a).run x = (.ok { output := Extraction.summary v }, y)) ∨
        (Refuses e a x v ∧ (act e instruction a).run x = (.error DataFolder.noPath, y))) := by
  have hsettled := h.settled instruction
  generalize (act e instruction a).run x = q at hsettled
  cases hsettled with
  | told hnone =>
    refine ⟨u, rfl, rfl, Or.inr (Or.inl ⟨fun path hpath => ?_, fun hrefuses => ?_, rfl⟩)⟩
    · obtain ⟨folder, hfolder, hdata, -⟩ := (h.saves_iff path).1 hpath
      rw [hnone folder hfolder] at hdata
      cases hdata
    · obtain ⟨folder, hfolder, hdata, -⟩ := h.refuses_iff.1 hrefuses
      rw [hnone folder hfolder] at hdata
      cases hdata
  | @saved folder path u' hfolder hdata hsave =>
    obtain ⟨hpage, hclock⟩ := folder.still_save instruction v format filename u
    rw [hsave] at hpage hclock
    have hkept := (h.saves_iff path).2 ⟨folder, hfolder, hdata, congrArg Prod.fst hsave⟩
    exact ⟨u', hpage, hclock, Or.inl ⟨path, hkept, rfl⟩⟩
  | @lost folder f u' hfolder hdata hsave hdisk =>
    obtain ⟨hpage, hclock⟩ := folder.still_save instruction v format filename u
    rw [hsave] at hpage hclock
    refine ⟨{ u' with warnings := u'.warnings ++ ["提取数据保存失败: " ++ f.message] }, hpage, hclock,
      Or.inr (Or.inl ⟨fun path hpath => ?_, fun hrefuses => ?_, rfl⟩)⟩
    · obtain ⟨folder', hfolder', -, hsave'⟩ := (h.saves_iff path).1 hpath
      cases hfolder.symm.trans hfolder'
      rw [hsave] at hsave'
      cases hsave'
    · obtain ⟨folder', hfolder', -, haccepts⟩ := h.refuses_iff.1 hrefuses
      cases hfolder.symm.trans hfolder'
      rw [DataFolder.save_eq, if_neg (by rw [haccepts]; decide)] at hsave
      cases hsave
      cases hdisk
  | @refused folder hfolder hdata haccepts =>
    exact ⟨u, rfl, rfl, Or.inr (Or.inr ⟨h.refuses_iff.2 ⟨folder, hfolder, hdata, haccepts⟩, rfl⟩)⟩

/-- So it is with the report on it. -/
theorem report_returned {a : Action} {x u y : World} {format filename : Option String} {v : Value}
    {t : Taken} (h : Returned e a x format filename v u)
    (hreport : (report e instruction total number a).run x = (.ok t, y)) :
    (∃ path, Saves e instruction a x v path ∧ t.failure = none ∧ t.report.output =
      some (Text.clip outputLength (Extraction.summary v ++ " - saved to " ++ path))) ∨
    ((∀ path, ¬ Saves e instruction a x v path) ∧ ¬ Refuses e a x v ∧ t.failure = none ∧
      t.report.output = some (Text.clip outputLength (Extraction.summary v))) ∨
    (Refuses e a x v ∧ t.failure ≠ none ∧ t.report.output = none) := by
  have hact := act_of_report hreport
  obtain ⟨z, -, -, ⟨path, hsaves, hrun⟩ | ⟨hnone, hnot, hrun⟩ | ⟨hrefuses, hrun⟩⟩ :=
    act_returned h instruction
  all_goals rw [hrun] at hact
  · rcases hact with ⟨o, ho, hfailure, -, houtput⟩ | ⟨f, g, hf, -⟩
    · cases ho
      exact Or.inl ⟨path, hsaves, hfailure, houtput⟩
    · cases hf
  · rcases hact with ⟨o, ho, hfailure, -, houtput⟩ | ⟨f, g, hf, -⟩
    · cases ho
      exact Or.inr (Or.inl ⟨hnone, hnot, hfailure, houtput⟩)
    · cases hf
  · rcases hact with ⟨o, ho, -⟩ | ⟨f, g, -, hfailure, houtput⟩
    · cases ho
    · refine Or.inr (Or.inr ⟨hrefuses, ?_, houtput⟩)
      rw [hfailure]
      exact Option.some_ne_none g

end Execution

end BrowserFlow
