import BrowserFlow.Proofs.Execution.Files
import BrowserFlow.Proofs.Journal.Creation
import BrowserFlow.Proofs.World.Link

/-!
# Running a document again

The actions of a document are run twice, on the same page at any other time, with different
variables and perhaps for another instruction. As long as both runs fill in the placeholders alike,
each step comes to the same: the same arguments, the same success, and the same value to store
(`parallel_report`). Where the placeholders of a step come out differently its arguments already do.
So the second run shows the same of every step exactly if every step of the first is filled in alike
(`shown_runFrom_iff`).
-/

namespace BrowserFlow

open Effect

/-! ## Steps by their arguments -/

theorem FormField.toValue_inj {f g : FormField} (h : f.toValue = g.toValue) : f = g := by
  obtain ⟨s, v⟩ := f
  obtain ⟨s', v'⟩ := g
  simp only [FormField.toValue, Value.record, List.map_cons, List.map_nil, Value.map.injEq,
    List.cons.injEq, Prod.mk.injEq, Value.text.injEq, true_and, and_true] at h
  rw [h.1, h.2]

theorem Step.Choice.substitute_inj {c : Choice} {env env' : Env}
    (h : (Step.Choice.substitute env c).toValue = (Step.Choice.substitute env' c).toValue) :
    Step.Choice.substitute env c = Step.Choice.substitute env' c := by
  cases c <;> simp_all [Step.Choice.substitute, Choice.toValue, Value.record]

/-- A filled-in step is known by its arguments. -/
theorem Step.substitute_inj {s : Step} {env env' : Env}
    (h : (s.substitute env).arguments = (s.substitute env').arguments) :
    s.substitute env = s.substitute env' := by
  cases s with
  | select s choice t =>
    simp only [substitute, arguments, List.cons_append, List.cons.injEq, Prod.mk.injEq,
      true_and] at h
    rw [substitute, substitute, h.1, Step.Choice.substitute_inj h.2.1]
  | fillForm fields t =>
    simp only [substitute, arguments, List.cons.injEq, Prod.mk.injEq, Value.list.injEq,
      true_and, and_true] at h
    have hfields := (List.map_inj_right fun f g => FormField.toValue_inj).mp h
    rw [substitute, substitute, hfields]
  | evaluate script format filename =>
    cases format <;> cases filename <;> simp_all [substitute, arguments, optional]
  | assert s text value visible t =>
    cases text <;> cases value <;> simp_all [substitute, arguments, Value.ofOption]
  | _ => simp_all [substitute, arguments]
/-! ## The same page -/

/-- The same page, in worlds whose clocks stood at `d` and `d'` at the same moment. -/
structure World.SamePage (d d' : Nat) (w w' : World) : Prop where
  page : w.page = w'.page
  clock : w.clock + d' = w'.clock + d

theorem World.link_samePage (d d' : Nat) : Link d d' (World.SamePage d d') where
  page h := h.page
  clock h := h.clock
  turned _ h := ⟨rfl, h.clock⟩
  passed hc h := ⟨h.page, hc⟩
  said _ _ _ _ h := ⟨h.page, h.clock⟩

/-! ## What is kept of a script -/

/-- Nothing is asked of the page, no time passes, and only the disk can fail. -/
def World.Aside {α : Type} (x : Effect Fault World α) : Prop :=
  ∀ w, (x.run w).2.page = w.page ∧ (x.run w).2.clock = w.clock ∧
    ∀ f, (x.run w).1 = .error f → f.ofDisk = true

namespace World

variable {α β : Type}

theorem aside_pure (a : α) : Aside (pure a) :=
  fun _ => ⟨rfl, rfl, fun _ h => nomatch h⟩

theorem aside_print (line : String) : Aside (print line) :=
  fun _ => ⟨rfl, rfl, fun _ h => nomatch h⟩

theorem aside_onDisk {x : Effect Fault Disk α}
    (hx : ∀ d f, (x.run d).1 = .error f → f.ofDisk = true) : Aside (onDisk x) :=
  fun w => ⟨rfl, rfl, fun f h => hx w.disk f h⟩

theorem aside_bind {x : Effect Fault World α} {f : α → Effect Fault World β} (hx : Aside x)
    (hf : ∀ a, Aside (f a)) : Aside (x >>= f) := by
  intro w
  obtain ⟨hpage, hclock, hfails⟩ := hx w
  rcases hrun : (x >>= f).run w with ⟨r, u⟩
  rcases bind_cases hrun with ⟨g, hg, rfl⟩ | ⟨a, v, hv, hu⟩
  · rw [hg] at hpage hclock hfails
    refine ⟨hpage, hclock, fun f hf => ?_⟩
    cases hf
    exact hfails g rfl
  · rw [hv] at hpage hclock
    have hlater := hf a v
    rw [hu] at hlater
    exact ⟨hlater.1.trans hpage, hlater.2.1.trans hclock, hlater.2.2⟩

end World

theorem Disk.makeFolder_ofDisk {path : String} (d : Disk) (f : Fault)
    (h : ((makeFolder path).run d).1 = .error f) : f.ofDisk = true := by
  rcases Journal.makeFolder_cases path d with ⟨made, hrun, -⟩ | hrun
  · rw [hrun] at h
    cases h
  · rw [hrun] at h
    cases h
    rfl

theorem Disk.write_ofDisk {path : String} {content : Content} (d : Disk) (f : Fault)
    (h : ((write path content).run d).1 = .error f) : f.ofDisk = true := by
  rcases write_cases d path content with ⟨k, -, hrun⟩ | ⟨-, g, hg, hrun⟩
  · rw [hrun] at h
    cases h
  · rw [hrun] at h
    cases h
    exact hg

namespace DataFolder

variable (folder : DataFolder) (instruction : Option String) (data : Value)
  (format filename : Option String)

theorem aside_keep : World.Aside (folder.keep instruction data format filename) := by
  have hname : ∀ format, World.Aside (nameFor format filename) := by
    intro format
    unfold nameFor
    split
    · exact fun w => ⟨rfl, rfl, fun f h => nomatch h⟩
    · exact fun w => ⟨rfl, rfl, fun f h => nomatch h⟩
    · exact World.aside_pure _
  have hput : ∀ content shown name, World.Aside (folder.put content shown name) := by
    intro content shown name
    refine World.aside_bind (World.aside_onDisk Disk.write_ofDisk) fun _ => ?_
    split
    · refine World.aside_bind (World.aside_print _) fun _ => ?_
      refine World.aside_bind (World.aside_print _) fun _ => ?_
      refine World.aside_bind (World.aside_print _) fun _ => ?_
      refine World.aside_bind (World.aside_print _) fun _ => ?_
      exact World.aside_bind (World.aside_print _) fun _ => World.aside_pure _
    · exact World.aside_pure _
  refine World.aside_bind (World.aside_onDisk Disk.makeFolder_ofDisk) fun _ => ?_
  exact World.aside_bind (hname _) fun name => hput _ _ name

/-- Keeping data asks nothing of the page, and no time passes. -/
theorem still_save (w : World) :
    ((folder.save instruction data format filename).run w).2.page = w.page ∧
      ((folder.save instruction data format filename).run w).2.clock = w.clock := by
  rw [save_eq]
  split
  · obtain ⟨hpage, hclock, -⟩ := folder.aside_keep instruction data format filename w
    exact ⟨hpage, hclock⟩
  · exact ⟨rfl, rfl⟩

/-- Data is not kept because of the disk, or because the name can be part of no path. -/
theorem save_fails {w : World} {f : Fault}
    (h : ((folder.save instruction data format filename).run w).1 = .error f) :
    f.ofDisk = true ∧ folder.accepts filename = true ∨
      f = noPath ∧ folder.accepts filename = false := by
  rw [save_eq] at h
  cases haccepts : folder.accepts filename with
  | true =>
    rw [if_pos haccepts] at h
    exact Or.inl ⟨(folder.aside_keep instruction data format filename w).2.2 f h, rfl⟩
  | false =>
    rw [if_neg (by rw [haccepts]; decide)] at h
    cases h
    exact Or.inr ⟨rfl, rfl⟩

end DataFolder

namespace Execution

open World (SamePage SameLimit)

variable {d d' : Nat}

/-- What a step stores. -/
def SameStored (o o' : StepOutcome) : Prop :=
  o'.stored = o.stored

/-- Without a look at the page or at the clock there is an outcome that stores nothing. -/
def Unstored (x : Effect Fault World StepOutcome) : Prop :=
  ∀ w, ∃ output u, x.run w = (.ok { output }, u) ∧ u.page = w.page ∧ u.clock = w.clock

theorem unstored_pure (output : String) : Unstored (pure { output }) :=
  fun _ => ⟨output, _, rfl, rfl, rfl⟩

theorem unstored_warn_bind (text : String) {x : Unit → Effect Fault World StepOutcome}
    (hx : Unstored (x ())) : Unstored (World.warn text >>= x) := by
  intro w
  obtain ⟨output, u, hrun, hpage, hclock⟩ := hx _
  exact ⟨output, u, hrun, hpage, hclock⟩

/-- What goes on from an attempt that can only fail on the disk. -/
theorem unstored_attempt_bind {α : Type} {x : Effect Fault World α}
    {f : Except Fault α → Effect Fault World StepOutcome} (hx : World.Aside x)
    (hok : ∀ a, Unstored (f (.ok a))) (herror : ∀ g, g.ofDisk = true → Unstored (f (.error g))) :
    Unstored (attempt x >>= f) := by
  intro w
  obtain ⟨hpage, hclock, hfails⟩ := hx w
  rcases hrun : x.run w with ⟨r, v⟩
  rw [hrun] at hpage hclock hfails
  have hattempt : (attempt x : Effect Fault World _).run w = (.ok r, v) := by
    rw [run_attempt, hrun]
  have hlater : Unstored (f r) := by
    cases r with
    | ok a => exact hok a
    | error g => exact herror g (hfails g rfl)
  obtain ⟨output, u, hrun', hpage', hclock'⟩ := hlater v
  rw [run_bind_ok hattempt]
  exact ⟨output, u, hrun', hpage'.trans hpage, hclock'.trans hclock⟩

theorem parallel_unstored {x y : Effect Fault World StepOutcome} (hx : Unstored x)
    (hy : Unstored y) : Parallel (SamePage d d') SameStored x y := by
  intro w w' hw
  obtain ⟨output, u, hrun, hpage, hclock⟩ := hx w
  obtain ⟨output', u', hrun', hpage', hclock'⟩ := hy w'
  rw [hrun, hrun']
  refine ⟨.ok rfl, ?_, ?_⟩
  · rw [hpage, hpage']
    exact hw.page
  · rw [hclock, hclock']
    exact hw.clock

/-- Whatever the disk makes of what a script returned, the script has returned it. -/
theorem unstored_keep (folder : DataFolder) (instruction : Option String) (result : Value)
    (format filename : Option String) (output : String) :
    Unstored (attempt (folder.keep instruction result format filename) >>= fun kept =>
      match kept with
      | .ok path => return { output := output ++ " - saved to " ++ path }
      | .error f => do
        if !f.ofDisk then throw f
        World.warn ("提取数据保存失败: " ++ f.message)
        return { output }) := by
  refine unstored_attempt_bind (folder.aside_keep _ result format filename)
    (fun path => unstored_pure _) fun f hdisk => ?_
  dsimp only
  rw [hdisk]
  exact unstored_warn_bind _ (unstored_pure _)

/-- Where a script keeps what it returned comes to the same for every instruction. -/
theorem parallel_extract (data : Option DataFolder) {instruction instruction' : Option String}
    {limit limit' : Option Nat} (hlimit : SameLimit d d' limit limit') (script : String)
    (format filename : Option String) :
    Parallel (SamePage d d') SameStored
      (Step.extract ⟨data, instruction⟩ limit script format filename)
      (Step.extract ⟨data, instruction'⟩ limit' script format filename) := by
  refine (World.link_samePage d d').parallel_call_bind hlimit fun result => ?_
  dsimp only
  split
  · rename_i folder _
    rw [DataFolder.save_eq, DataFolder.save_eq]
    cases haccepts : folder.accepts filename with
    | true =>
      -- the data may be kept in different ways, but neither way stores anything
      rw [if_pos rfl, if_pos rfl]
      exact parallel_unstored (unstored_keep folder _ result format filename _)
        (unstored_keep folder _ result format filename _)
    | false =>
      rw [if_neg (by decide), if_neg (by decide)]
      refine parallel_bind_eq (parallel_attempt_eq (parallel_throw _)) fun kept => ?_
      have hwarned : ∀ (line output : String), Parallel (SamePage d d') SameStored
          (World.warn line >>= fun _ => pure { output })
          (World.warn line >>= fun _ => pure { output }) := fun line output =>
        parallel_unstored (unstored_warn_bind line (unstored_pure output))
          (unstored_warn_bind line (unstored_pure output))
      cases kept with
      | ok path => exact parallel_unstored (unstored_pure _) (unstored_pure _)
      | error f =>
        exact parallel_ite (parallel_bind_eq (parallel_throw _) fun _ => hwarned _ _)
          (hwarned _ _)
  · exact parallel_unstored (unstored_pure _) (unstored_pure _)

/-! ## One step -/

/-- Both have come to the same with a step, but for what it says of the result and the time that it
took. -/
structure Taken.Same (t t' : Taken) : Prop where
  arguments : t'.report.arguments = t.report.arguments
  success : t'.report.success = t.report.success
  stored : t'.stored = t.stored
  failure : t'.failure = t.failure

/-- A step comes to the same on the same page. -/
theorem parallel_report (e : Executor) (instruction instruction' : Option String)
    (total number : Nat) (action : Action) :
    Parallel (SamePage d d') Taken.Same (report e instruction total number action)
      (report e instruction' total number action) := by
  have htake : Parallel (SamePage d d') SameStored (take e instruction number action)
      (take e instruction' number action) :=
    (World.link_samePage d d').parallel_take number action rfl rfl (fun _ => rfl)
      fun hlimit script format filename _ => parallel_extract e.data hlimit script format filename
  intro w w' hw
  obtain ⟨hresult, hstate⟩ := htake w w' hw
  rw [report_eq, report_eq]
  generalize (take e instruction number action).run w = p at hresult hstate
  generalize (take e instruction' number action).run w' = p' at hresult hstate
  obtain ⟨r, u⟩ := p
  obtain ⟨r', u'⟩ := p'
  dsimp only at hresult hstate ⊢
  have hsaid : ∀ printed printed' : String,
      SamePage d d' { u with printed } { u' with printed := printed' } :=
    fun _ _ => ⟨hstate.page, hstate.clock⟩
  cases hresult with
  | ok related => exact ⟨.ok ⟨rfl, rfl, related, rfl⟩, hsaid _ _⟩
  | error f =>
    cases f with
    | action f => exact ⟨.ok ⟨rfl, rfl, rfl, rfl⟩, hsaid _ _⟩
    | _ => exact ⟨.error _, hstate⟩

/-! ## All steps -/

variable {e : Executor} {request request' : RunRequest}

/-- What is reported of some steps: the arguments of each, and whether it succeeded. -/
def shown (steps : List StepReport) : List (Value × Bool) :=
  steps.map fun s => (s.arguments, s.success)

/-- Every action that a run takes with some variables is filled in alike with others, where the
values that the run stores on its way are added to both. -/
def FilledAlike (e : Executor) (request request' : RunRequest) (total : Nat) :
    (number : Nat) → (context context' : Table Value) → List Action → World → Prop
  | _, _, _, [], _ => True
  | number, context, context', action :: rest, w =>
    fill request' context' action = fill request context action ∧
      match (report e request.instruction total number (fill request context action)).run w with
      | (.error _, _) => True
      | (.ok taken, w) => FilledAlike e request request' total (number + 1)
        (keep context taken.stored) (keep context' taken.stored) rest (pause e total number w)

/-- With the same variables all actions are filled in alike. -/
theorem filledAlike_self {total number : Nat} {context : Table Value} {actions : List Action}
    {w : World} (henv : request'.env = request.env) :
    FilledAlike e request request' total number context context actions w := by
  induction actions generalizing number context w with
  | nil => trivial
  | cons a rest ih =>
    unfold FilledAlike
    refine ⟨by rw [fill, fill, henv], ?_⟩
    split
    · trivial
    · exact ih

theorem pause_samePage (e : Executor) (total number : Nat) {w w' : World} (h : SamePage d d' w w') :
    SamePage d d' (pause e total number w) (pause e total number w') := by
  unfold pause
  split
  · refine ⟨h.page, ?_⟩
    have := h.clock
    dsimp only
    omega
  · exact h

/-- Filled in differently, an action has other arguments. -/
theorem arguments_ne {a : Action} {context context' : Table Value}
    (h : fill request' context' a ≠ fill request context a) :
    Value.record (fill request' context' a).step.arguments ≠
      Value.record (fill request context a).step.arguments := by
  intro hrecord
  have harguments : (fill request' context' a).step.arguments =
      (fill request context a).step.arguments := by
    refine (List.map_inj_right fun x y hxy => ?_).mp (Value.map.inj hrecord)
    simpa [Prod.ext_iff] using hxy
  refine h ?_
  unfold fill
  rw [Step.substitute_inj harguments]

/-- A run shows the same of every step as another on the same page exactly if it fills in every
action of that one alike, and then it reports on all of them. -/
theorem shown_runFrom_iff (hlenient : request.strict = false) (hlenient' : request'.strict = false)
    {total number : Nat} {context context' : Table Value} {actions : List Action} {w w' : World}
    (hw : SamePage d d' w w')
    (hended : (runFrom e request total number context actions w).1.ended = none) :
    ((runFrom e request' total number context' actions w').1.ended = none ∧
      shown (runFrom e request' total number context' actions w').1.steps =
        shown (runFrom e request total number context actions w).1.steps) ↔
      FilledAlike e request request' total number context context' actions w := by
  induction actions generalizing number context context' w w' with
  | nil => exact iff_of_true ⟨rfl, rfl⟩ trivial
  | cons a rest ih =>
    unfold FilledAlike
    rcases hrep : (report e request.instruction total number (fill request context a)).run w with
      ⟨f | t, u⟩
    · rw [runFrom_cons_error hrep] at hended
      cases hended
    rw [runFrom_cons_ok (Or.inl hlenient) hrep] at hended ⊢
    have harguments := report_arguments hrep
    by_cases halike : fill request' context' a = fill request context a
    · -- the step comes to the same, and the runs go on side by side
      obtain ⟨hresult, hstate⟩ := parallel_report e request.instruction
        request'.instruction total number (fill request context a) w w' hw
      rcases hrep' : (report e request'.instruction total number (fill request context a)).run w'
        with ⟨r', u'⟩
      rw [hrep, hrep'] at hresult hstate
      cases hresult with
      | @ok _ t' related =>
        rw [← halike] at hrep'
        rw [runFrom_cons_ok (Or.inl hlenient') hrep', related.stored]
        have hlater := @ih _ _ (keep context' t.stored) _ _ (pause_samePage e total number hstate)
          hended
        simp only [shown, List.map_cons, related.arguments, related.success, List.cons.injEq,
          true_and, halike] at hlater ⊢
        exact hlater
    · -- the arguments of this step differ already, whatever comes of it
      refine iff_of_false ?_ fun h => halike h.1
      rintro ⟨-, hshown⟩
      rcases hrep' : (report e request'.instruction total number (fill request' context' a)).run w'
        with ⟨f | t', u'⟩
      · rw [runFrom_cons_error hrep'] at hshown
        cases hshown
      · rw [runFrom_cons_ok (Or.inl hlenient') hrep'] at hshown
        have hfirst := (Prod.mk.inj (List.cons.inj hshown).1).1
        rw [report_arguments hrep', harguments] at hfirst
        exact arguments_ne halike hfirst

/-- So it is with the reports of whole runs. -/
theorem run_shown_iff (hlenient : request.strict = false) (hlenient' : request'.strict = false)
    {context context' : Table Value} {actions : List Action} {w w' : World} {r : Report}
    (hpage : w'.page = w.page) (hr : (run e request context actions w).1.1 = .ok r) :
    (∃ r', (run e request' context' actions w').1.1 = .ok r' ∧
        shown r'.steps = shown r.steps) ↔
      FilledAlike e request request' actions.length 1 context context' actions w := by
  have hw : SamePage w.clock w'.clock w w' := ⟨hpage.symm, Nat.add_comm _ _⟩
  obtain ⟨hended, rfl⟩ := (run_ok_iff context actions w r).1 hr
  rw [← shown_runFrom_iff hlenient hlenient' hw hended]
  constructor
  · rintro ⟨r', hr', hshown⟩
    obtain ⟨hended', rfl⟩ := (run_ok_iff context' actions w' r').1 hr'
    exact ⟨hended', hshown⟩
  · rintro ⟨hended', hshown⟩
    exact ⟨_, (run_ok_iff context' actions w' _).2 ⟨hended', rfl⟩, hshown⟩

end Execution

end BrowserFlow
