import BrowserFlow.Proofs.Execution.Rerun
import BrowserFlow.Proofs.Session.Call
import BrowserFlow.Proofs.Session.Growth
import BrowserFlow.Proofs.Session.Journal

/-!
# Running again what was accepted

What the steps of a session have stored is kept from one round to the next, also if the round has
failed, while a workflow that is run on its own begins with nothing. So an accepted document may
have been verified with variables that it does not store itself. `accepted_rerun_iff` says that this
is all that can make a difference on the same page: run again without variables the document shows
the same of every step exactly if the accepted round filled in none of them with what only an
earlier round had stored.
-/

namespace BrowserFlow.Session

open Document (load)
open Effect
open Execution (FilledAlike shown)

variable {s t : Session}

/-- The run of a document begins with what has been stored so far, on the page as it is. -/
theorem executed_runs {intent document : String} {report : Report}
    (h : (executed intent document).run s = (.ok report, t)) :
    ∃ actions w, (load s.registry document).2 = .ok actions ∧ w.page = s.world.page ∧
      (Execution.run s.executor { instruction := some intent } s.context actions w).1.1 =
        .ok report := by
  unfold executed at h
  rw [enter, run_bind_ok (run_modify _ s)] at h
  obtain ⟨report', u, hrun, h⟩ := bind_ok h
  cases h
  unfold runDocument at hrun
  rw [run_bind_ok (run_get _)] at hrun
  obtain ⟨actions, v, hread, hrun⟩ := bind_ok hrun
  have hloads := inWorld_ok hread
  rw [Planner.run_read] at hloads
  obtain ⟨-, rfl⟩ := Prod.mk.inj hread
  rw [run_bind_ok (run_get _)] at hrun
  refine ⟨actions, ((Planner.read s.registry document).run s.world).2, hloads, ?_, ?_⟩
  · rw [Planner.run_read]
  · exact congrArg Prod.fst hrun

/-- A call of `run` that ends in acceptance without a continuation has accepted the document of the
last round, and the last attempt of its outcome carries the report on that. -/
theorem Served.accepted_trial {intent : String} {y : Stint} {o : Outcome}
    (h : Served s (.run intent) [y] (.ok o) t) (haccepted : o.state = .accept) :
    ∃ (x : Lap) (T : Trial x), y.laps.getLast? = some x ∧ o.document = some T.document ∧
      o.attempts.getLast? = some T.attempt ∧ T.attempt.report = some T.report := by
  cases h with
  | @run _ z _ _ _ opening task start works =>
    obtain ⟨rest, hstints, -⟩ := works.continuations
    obtain ⟨rfl, rfl⟩ := List.cons.inj hstints
    obtain ⟨y', e, hy, hresult, rfl, -⟩ := works.last rfl
    obtain rfl := Option.some.inj hy
    obtain ⟨x, hx, hended, -, hexisting⟩ := y.runs.last hresult
    obtain ⟨T, -, hlast, hstate⟩ := Lap.ended hended
    obtain ⟨-, -, document, hwhole, hdocument⟩ := hstate haccepted
    have hown : T.document = document := by
      rw [task] at hexisting
      cases htask : x.task with
      | fresh =>
        rw [htask] at hwhole
        exact Except.ok.inj hwhole
      | further =>
        rw [htask] at hexisting
        cases hexisting
    exact ⟨x, T, hx, hown ▸ hdocument, hlast, T.concludes_attempt.report⟩

theorem keeps_context_obtain (task : Task) : Keeps Session.context task.obtain := by
  have hsay : ∀ line : String, Keeps Session.context (say line) := fun _ _ => rfl
  have hworld : ∀ x : Effect Failure World String, Keeps Session.context (inWorld x) :=
    fun _ _ => rfl
  have hasked : ∀ (p : Phase) (x : Session → Effect Failure World String) (line : String → String),
      Keeps Session.context (do
        enter p
        let s ← get
        let document ← inWorld (x s)
        say (line document)
        return document : Act String) :=
    fun p x line => keeps_bind (keeps_modify fun _ => rfl) fun _ => keeps_get_bind fun s =>
      keeps_bind (hworld _) fun _ => keeps_bind (hsay _) fun _ => keeps_pure _
  cases task with
  | fresh number intent document =>
    refine keeps_bind (keeps_bind (hsay _) fun _ => keeps_get_bind fun _ =>
      keeps_bind (hsay _) fun _ => hsay _) fun _ => ?_
    cases document with
    | some document => exact keeps_pure _
    | none => exact hasked _ _ _
  | further existing followUp history => exact hasked _ _ _

/-- What is stored when a document is run has been stored before its round. -/
theorem Trial.context {x : Lap} (T : Trial x) : T.obtained.context = x.start.context :=
  (keeps_context_obtain x.task).of_run T.obtains

/-- What an accepted document shows of its steps when it is run again, with nothing stored and for
whatever instruction, in a world with the page on which it was verified. It shows the same as when
it was verified exactly if every step was filled in then as it is without what the session had
stored before the round. -/
theorem accepted_rerun_iff {intent : String} {y : Stint} {o : Outcome}
    (h : Served s (.run intent) [y] (.ok o) t) (haccepted : o.state = .accept) :
    ∃ (x : Lap) (T : Trial x) (actions : List Action) (start : World),
      y.laps.getLast? = some x ∧ o.document = some T.document ∧
      o.attempts.getLast? = some T.attempt ∧ T.attempt.report = some T.report ∧
      (load T.obtained.registry T.document).2 = .ok actions ∧
      start.page = T.obtained.world.page ∧
      (Execution.run T.obtained.executor { instruction := some x.task.instruction }
        x.start.context actions start).1.1 = .ok T.report ∧
      ∀ (instruction : Option String) (w : World), w.page = T.obtained.world.page →
        ((∃ r, (Execution.run T.obtained.executor { instruction } [] actions w).1.1 = .ok r ∧
            shown r.steps = shown T.report.steps) ↔
          FilledAlike T.obtained.executor { instruction := some x.task.instruction }
            { instruction } actions.length 1 x.start.context [] actions start) := by
  obtain ⟨x, T, hx, hdocument, hlast, hreport⟩ := h.accepted_trial haccepted
  obtain ⟨actions, start, hload, hpage, hrun⟩ := executed_runs T.executes
  rw [T.context] at hrun
  refine ⟨x, T, actions, start, hx, hdocument, hlast, hreport, hload, hpage, hrun, ?_⟩
  intro instruction w hw
  exact Execution.run_shown_iff rfl rfl (hw.trans hpage.symm) hrun

/-- Whether the last thing that a round came to is an accepted outcome. -/
def Lap.accepts (x : Lap) : Bool :=
  match x.result with
  | .ok (.ended e) => e.outcome.accepted
  | _ => false

theorem Lap.state_of_accepts {x : Lap} {e : Ending} (h : x.accepts = true)
    (hresult : x.result = .ok (.ended e)) : e.outcome.state = .accept := by
  unfold accepts at h
  rw [hresult] at h
  exact of_decide_eq_true h

/-- A document that answers an instruction with nothing to do is run again with the same report. -/
theorem accepted_rerun_iff_brief :
    ∃ y o t, Served brief (.run "go") [y] (.ok o) t ∧ o.state = .accept ∧
      ∃ (x : Lap) (T : Trial x) (actions : List Action),
        o.document = some T.document ∧ (load T.obtained.registry T.document).2 = .ok actions ∧
        ∀ (instruction : Option String) (w : World), w.page = T.obtained.world.page →
          ∃ r, (Execution.run T.obtained.executor { instruction } [] actions w).1.1 = .ok r ∧
            shown r.steps = shown T.report.steps := by
  obtain ⟨x, htask, hstart, hlast, hsettles, haccepts⟩ : ∃ x : Lap,
      x.task = .fresh 1 "go" none ∧ x.start = brief.begun "go" ∧
      x.isLast = (x.start.roundsLeft == 0) ∧ x.settles = true ∧ x.accepts = true :=
    ⟨⟨.fresh 1 "go" none, (brief.begun "go").roundsLeft == 0, brief.begun "go"⟩, rfl, rfl, rfl,
      by decide +kernel, by decide +kernel⟩
  obtain ⟨e, hresult, hdone⟩ := Lap.settles_iff.1 hsettles
  have haccepted := Lap.state_of_accepts haccepts hresult
  let y : Stint := ⟨.run, x.task, x.start, [x], .ok e, x.finish, .ended hlast hresult⟩
  have hserved : Served brief (.run "go") [y] (.ok e.outcome) x.finish :=
    .run (x := y) rfl htask hstart (.ended rfl hdone)
  obtain ⟨x', T, actions, start, hx', hdocument, -, -, hload, -, -, hrerun⟩ :=
    accepted_rerun_iff hserved haccepted
  obtain rfl : x = x' := Option.some.inj hx'
  refine ⟨y, e.outcome, x.finish, hserved, haccepted, x, T, actions, hdocument, hload, ?_⟩
  intro instruction w hw
  -- in the first round nothing is stored, so that there is nothing to be filled in differently
  refine (hrerun instruction w hw).2 ?_
  rw [show x.start.context = [] from congrArg Session.context hstart]
  exact Execution.filledAlike_self rfl

/-! ## A document that leans on a rejected one -/

/-- A session in which a rejected document stores the name of an element, and the accepted one
clicks on the element of that name. -/
def borrowing : Session :=
  { settings := {}
    decider := .scripted [{ kind := .autofix }] []
    world :=
      { page := { results := [.value (.text "v")], elements := [("#v", [{}])] }
        replies := [.content (some "- store: \x7bas: N, eval: x\x7d"),
          .content (some "\x7b\"success\": false\x7d"),
          .content (some "- click: \"#$\x7bN\x7d\""),
          .content (some "\x7b\"success\": true\x7d")] } }

/-- Whether the document of a round, run again where it was run but with nothing stored, succeeds
and fails in the same steps. -/
def Lap.repeats (x : Lap) : Bool :=
  match x.task.obtain.run x.start with
  | (.ok document, s) =>
    match (executed x.task.instruction document).run s, (load s.registry document).2 with
    | (.ok r, _), .ok actions =>
      match (Execution.run s.executor { instruction := some x.task.instruction } [] actions
        s.world).1.1 with
      | .ok r' => r'.steps.map (·.success) == r.steps.map (·.success)
      | .error _ => false
    | _, _ => false
  | _ => false

theorem Trial.repeats {x : Lap} (T : Trial x) {actions : List Action} {r : Report}
    (hload : (load T.obtained.registry T.document).2 = .ok actions)
    (hr : (Execution.run T.obtained.executor { instruction := some x.task.instruction } [] actions
      T.obtained.world).1.1 = .ok r)
    (hshown : shown r.steps = shown T.report.steps) : x.repeats = true := by
  have hsuccess : r.steps.map (·.success) = T.report.steps.map (·.success) := by
    have h := congrArg (List.map Prod.snd) hshown
    simp only [shown, List.map_map] at h
    exact h
  unfold Lap.repeats
  rw [T.obtains]
  dsimp only
  rw [T.executes, hload]
  dsimp only
  rw [hr]
  exact beq_iff_eq.2 hsuccess

/-- The round that follows on a round, behind which `left` may follow. -/
def Lap.then? (left : Nat) (x : Lap) : Option Lap :=
  match x.result with
  | .ok (.again next) => some ⟨next, left == 0, x.finish⟩
  | _ => none

theorem Lap.then?_eq_some {left : Nat} {x z : Lap} (h : x.then? left = some z) :
    x.result = .ok (.again z.task) ∧ z.isLast = (left == 0) ∧ z.start = x.finish := by
  unfold then? at h
  split at h
  · rename_i next hresult
    obtain rfl := Option.some.inj h
    exact ⟨hresult, rfl, rfl⟩
  · cases h

/-- Run again on the page on which it was verified, the accepted document of such a session does not
show the same of its steps. -/
theorem not_reruns_borrowed :
    ¬ ∀ (s t : Session) (intent : String) (y : Stint) (o : Outcome),
      Served s (.run intent) [y] (.ok o) t → o.state = .accept →
      ∀ (x : Lap) (T : Trial x) (actions : List Action), y.laps.getLast? = some x →
        (load T.obtained.registry T.document).2 = .ok actions →
        ∀ w : World, w.page = T.obtained.world.page →
          ∃ r, (Execution.run T.obtained.executor { instruction := some x.task.instruction } []
              actions w).1.1 = .ok r ∧
            shown r.steps = shown T.report.steps := by
  intro h
  let x : Lap := ⟨.fresh 1 "look" none, false, borrowing.begun "look"⟩
  have hthen : (x.then? 3).any (fun z => z.settles && z.accepts && !z.repeats) = true := by
    decide +kernel
  obtain ⟨z, hz, hchecks⟩ := (Option.any_eq_true _ _).1 hthen
  rw [Bool.and_eq_true, Bool.and_eq_true, Bool.not_eq_true'] at hchecks
  obtain ⟨⟨hsettles, haccepts⟩, hrepeats⟩ := hchecks
  obtain ⟨hx, hlast, hstart⟩ := Lap.then?_eq_some hz
  obtain ⟨e, hresult, hdone⟩ := Lap.settles_iff.1 hsettles
  have haccepted := Lap.state_of_accepts haccepts hresult
  have hlater : Runs 3 z.task x.finish [z] (.ok e) z.finish := by
    rw [← hstart]
    exact .ended hlast hresult
  let y : Stint := ⟨.run, x.task, x.start, [x, z], .ok e, z.finish, .again rfl hx hlater⟩
  have hserved : Served borrowing (.run "look") [y] (.ok e.outcome) z.finish :=
    .run (x := y) rfl rfl rfl (.ended rfl hdone)
  rcases z.stops_or_trial with hstops | ⟨⟨T⟩⟩
  · obtain ⟨f, hf⟩ := hstops.failed
    cases hresult.symm.trans hf
  · obtain ⟨actions, -, hload, -⟩ := executed_runs T.executes
    obtain ⟨r, hr, hshown⟩ := h _ _ _ y _ hserved haccepted z T actions rfl hload _ rfl
    exact Bool.false_ne_true (hrepeats.symm.trans (T.repeats hload hr hshown))

end BrowserFlow.Session
