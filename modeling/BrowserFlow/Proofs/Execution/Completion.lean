import BrowserFlow.Proofs.Effect
import BrowserFlow.Proofs.Execution.Naming
import BrowserFlow.Proofs.Registry

/-!
# Runs that come to their end

A run that is not strict goes on behind a step that failed: the failure is put into the report and
the next step is taken. There is exactly one way in which such a run still ends early. A step
fails on the page while its target is neither a text nor nothing, so that its failure cannot be
worded (`Breaks`). `returns_iff_never_breaks` says that a run reports on every step unless that
happens, and that it does not report at all if it does.

The argument follows the run. `report_eq` says once what the report on one action is; from it come
the facts on one step (`report_ok`, `report_error`, `exists_report_iff`), and from these, by
induction on the actions, the facts on `runFrom`. The relation `Takes` names the actions and worlds
that a run comes to, so that a condition can be put on just these. A strict run ends behind the
first step that fails as well, so that a run of either kind reports unless something that it takes
`Ends` it.
-/

namespace BrowserFlow.Execution

variable {e : Executor} {request : RunRequest} {instruction : Option String}

/-! ## One step -/

/-- The action fails on the page, and its target can be no part of a failure. -/
def Breaks (e : Executor) (instruction : Option String) (b : Action) (w : World) : Prop :=
  b.step.isNameable = false ∧ ∃ f, ((act e instruction b).run w).1 = .error f

/-- A failure of an action with a target that can be named is the failure of a step. -/
theorem failureOf_nameable {b : Action} (hb : b.step.isNameable = true) (number : Nat)
    (timeout : Int) (f : Fault) : ∃ a, failureOf number b timeout f = .action a := by
  unfold Step.isNameable at hb
  unfold failureOf
  cases ht : b.step.target? with
  | none => simp [ht] at hb
  | some target =>
    rw [ht, Option.any_some] at hb
    dsimp only
    rw [if_pos hb]
    exact ⟨_, rfl⟩

/-- A failure of any other action is a fault, namely that the target is of the wrong kind. -/
theorem failureOf_unnameable {b : Action} (hb : b.step.isNameable = false) (number : Nat)
    (timeout : Int) (f : Fault) : ∃ m, failureOf number b timeout f = .fault (.kind m) := by
  unfold Step.isNameable at hb
  unfold failureOf
  cases ht : b.step.target? with
  | none => exact ⟨_, rfl⟩
  | some target =>
    rw [ht, Option.any_some] at hb
    dsimp only
    rw [if_neg (by rw [hb]; exact Bool.false_ne_true)]
    exact ⟨_, rfl⟩

/-- Taking an action that finds its handler is what it does on the page, with its faults worded. -/
theorem take_eq {b : Action} (hb : (e.registry.get? b.kind).isSome) (number : Nat) (w : World) :
    (take e instruction number b).run w =
      (((act e instruction b).run w).1.mapError
          (failureOf number b (b.step.timeout e.timeoutMs)),
        ((act e instruction b).run w).2) := by
  have hsome : (e.registry.get? b.kind).isNone = false := by
    rw [← Option.not_isSome, hb, Bool.not_true]
  unfold take
  rw [hsome]
  rfl

/-- The report on an action is made of what came of it, and it is printed. -/
theorem report_eq {b : Action} (total number : Nat) (w : World) :
    (report e instruction total number b).run w =
      let taken := (take e instruction number b).run w
      match Taken.ofOutcome number b ((taken.2.clock : Int) - w.clock) taken.1 with
      | .ok t => (.ok t,
          { taken.2 with printed := taken.2.printed ++ progressLine total t ++ "\n" })
      | .error f => (.error f, taken.2) := by
  unfold report
  rw [Effect.run_bind_ok (Effect.run_get w), Effect.run_bind_ok (Effect.run_attempt _ w),
    Effect.run_bind_ok (Effect.run_get _)]
  dsimp only
  cases h : Taken.ofOutcome number b
      (((Effect.run (take e instruction number b) w).2.clock : Int) - w.clock)
      (Effect.run (take e instruction number b) w).1 with
  | error f => rfl
  | ok t => rfl

/-- A report carries the number and the kind of its action. -/
theorem report_ok {b : Action} {total number : Nat} {w u : World} {t : Taken}
    (h : (report e instruction total number b).run w = (.ok t, u)) :
    t.report.number = number ∧ t.report.kind = b.kind := by
  rw [report_eq] at h
  dsimp only at h
  generalize Effect.run (take e instruction number b) w = taken at h
  obtain ⟨outcome, v⟩ := taken
  cases outcome with
  | ok o =>
    cases h
    exact ⟨rfl, rfl⟩
  | error f =>
    cases f with
    | action f =>
      cases h
      exact ⟨rfl, rfl⟩
    | _ => cases h

/-- There is a report on an action unless it breaks the run. -/
theorem exists_report_iff {b : Action} (hb : (e.registry.get? b.kind).isSome) (total number : Nat)
    (w : World) :
    (∃ t u, (report e instruction total number b).run w = (.ok t, u)) ↔
      ¬ Breaks e instruction b w := by
  rw [report_eq, take_eq hb]
  unfold Breaks
  generalize Effect.run (act e instruction b) w = acted
  obtain ⟨outcome, v⟩ := acted
  cases outcome with
  | ok o =>
    constructor
    · rintro - ⟨-, f, hf⟩
      cases hf
    · intro _
      exact ⟨_, _, rfl⟩
  | error f =>
    cases hn : b.step.isNameable with
    | true =>
      -- the failure is that of a step, and the report carries it
      obtain ⟨a, ha⟩ := failureOf_nameable hn number (b.step.timeout e.timeoutMs) f
      constructor
      · rintro - ⟨hfalse, -⟩
        cases hfalse
      · intro _
        rw [Effect.mapError_error, ha]
        exact ⟨_, _, rfl⟩
    | false =>
      -- the failure cannot be worded, and no report is made of the fault that this is
      obtain ⟨m, hm⟩ := failureOf_unnameable hn number (b.step.timeout e.timeoutMs) f
      constructor
      · rintro ⟨t, u, h⟩
        rw [Effect.mapError_error, hm] at h
        cases h
      · intro h
        exact absurd ⟨rfl, f, rfl⟩ h

/-- The report on an action has no failure exactly if the action did not fail. -/
theorem report_failure {b : Action} (hb : (e.registry.get? b.kind).isSome) {total number : Nat}
    {w u : World} {t : Taken} (h : (report e instruction total number b).run w = (.ok t, u)) :
    t.failure = none ↔ ∃ o, ((act e instruction b).run w).1 = .ok o := by
  rw [report_eq, take_eq hb] at h
  generalize Effect.run (act e instruction b) w = acted at h ⊢
  obtain ⟨outcome, v⟩ := acted
  cases outcome with
  | ok o =>
    cases h
    exact iff_of_true rfl ⟨o, rfl⟩
  | error g =>
    cases hn : b.step.isNameable with
    | true =>
      obtain ⟨a, ha⟩ := failureOf_nameable hn number (b.step.timeout e.timeoutMs) g
      rw [Effect.mapError_error, ha] at h
      cases h
      exact iff_of_false (fun hnone => nomatch hnone) fun ⟨_, ho⟩ => nomatch ho
    | false =>
      obtain ⟨m, hm⟩ := failureOf_unnameable hn number (b.step.timeout e.timeoutMs) g
      rw [Effect.mapError_error, hm] at h
      cases h

/-- What stands in the place of a report is the fault that the target is of the wrong kind. -/
theorem report_error {b : Action} (hb : (e.registry.get? b.kind).isSome) {total number : Nat}
    {w u : World} {f : Failure} (h : (report e instruction total number b).run w = (.error f, u)) :
    ∃ m, f = .fault (.kind m) := by
  rw [report_eq, take_eq hb] at h
  generalize Effect.run (act e instruction b) w = acted at h
  obtain ⟨outcome, v⟩ := acted
  cases outcome with
  | ok o => cases h
  | error g =>
    cases hn : b.step.isNameable with
    | true =>
      obtain ⟨a, ha⟩ := failureOf_nameable hn number (b.step.timeout e.timeoutMs) g
      rw [Effect.mapError_error, ha] at h
      cases h
    | false =>
      obtain ⟨m, hm⟩ := failureOf_unnameable hn number (b.step.timeout e.timeoutMs) g
      rw [Effect.mapError_error, hm] at h
      cases h
      exact ⟨m, rfl⟩

/-! ## All steps -/

/-- A run of some actions, the first of which has a number, comes to take an action, with its
placeholders filled in, in some world. -/
inductive Takes (e : Executor) (request : RunRequest) (total : Nat) :
    Nat → Table Value → List Action → World → Action → World → Prop
  | here (number : Nat) (context : Table Value) (a : Action) (rest : List Action) (w : World) :
      Takes e request total number context (a :: rest) w (fill request context a) w
  | later {number : Nat} {context : Table Value} {a b : Action} {rest : List Action}
      {w u x : World} {t : Taken}
      (reported : (report e request.instruction total number (fill request context a)).run w =
        (.ok t, u))
      (goesOn : request.strict = false ∨ t.failure = none)
      (takes : Takes e request total (number + 1) (keep context t.stored) rest
        (pause e total number u) b x) :
      Takes e request total number context (a :: rest) w b x

/-- What a run takes is an action of the document with its placeholders filled in. -/
theorem Takes.exists_fill {total number : Nat} {context : Table Value} {actions : List Action}
    {w x : World} {b : Action} (h : Takes e request total number context actions w b x) :
    ∃ a ∈ actions, ∃ context, b = fill request context a := by
  induction h with
  | here number context a rest w => exact ⟨a, List.mem_cons_self, context, rfl⟩
  | later _ _ _ ih =>
    obtain ⟨a, ha, context, hb⟩ := ih
    exact ⟨a, List.mem_cons_of_mem _ ha, context, hb⟩

/-- A run ends at an action on which there is no report. -/
theorem runFrom_cons_error {total number : Nat} {context : Table Value} {a : Action}
    {rest : List Action} {w u : World} {f : Failure}
    (h : (report e request.instruction total number (fill request context a)).run w =
      (.error f, u)) :
    runFrom e request total number context (a :: rest) w =
      ({ steps := [], context, ended := some f }, u) := by
  unfold runFrom
  rw [h]

/-- A run goes on behind an action on which there is a report, unless it is strict and the action
has failed. -/
theorem runFrom_cons_ok {total number : Nat} {context : Table Value} {a : Action}
    {rest : List Action} {w u : World} {t : Taken}
    (hgoesOn : request.strict = false ∨ t.failure = none)
    (h : (report e request.instruction total number (fill request context a)).run w =
      (.ok t, u)) :
    runFrom e request total number context (a :: rest) w =
      let later := runFrom e request total (number + 1) (keep context t.stored) rest
        (pause e total number u)
      ({ later.1 with steps := t.report :: later.1.steps }, later.2) := by
  rw [runFrom, h]
  dsimp only
  rcases hgoesOn with hstrict | hfailure
  · rw [hstrict]
  · rw [hfailure]
    cases request.strict <;> rfl

/-- A strict run ends at an action that has failed. -/
theorem runFrom_cons_failed {total number : Nat} {context : Table Value} {a : Action}
    {rest : List Action} {w u : World} {t : Taken} {f : ActionFailure}
    (hstrict : request.strict = true) (hfailure : t.failure = some f)
    (h : (report e request.instruction total number (fill request context a)).run w =
      (.ok t, u)) :
    runFrom e request total number context (a :: rest) w =
      ({ steps := [t.report], context, ended := some (.action f) }, u) := by
  rw [runFrom, h]
  dsimp only
  rw [hstrict, hfailure]

/-- The steps of a run that did not end early have the numbers and kinds of the actions. -/
theorem runFrom_steps (hr : request.strict = false) {total : Nat} {actions : List Action}
    {number : Nat} {context : Table Value} {w : World}
    (h : (runFrom e request total number context actions w).1.ended = none) :
    (runFrom e request total number context actions w).1.steps.map (·.number) =
        (List.range' number actions.length).map (fun n : Nat => (n : Int)) ∧
      (runFrom e request total number context actions w).1.steps.map (·.kind) =
        actions.map (·.kind) := by
  induction actions generalizing number context w with
  | nil => exact ⟨rfl, rfl⟩
  | cons a rest ih =>
    cases hrep : (report e request.instruction total number (fill request context a)).run w with
    | mk r u =>
      cases r with
      | error f =>
        rw [runFrom_cons_error hrep] at h
        cases h
      | ok t =>
        rw [runFrom_cons_ok (Or.inl hr) hrep] at h ⊢
        obtain ⟨hnumber, hkind⟩ := report_ok hrep
        obtain ⟨hnumbers, hkinds⟩ := ih h
        constructor
        · show t.report.number :: List.map StepReport.number _ = _
          rw [hnumbers, hnumber, List.length_cons, List.range'_succ, List.map_cons]
        · show t.report.kind :: List.map StepReport.kind _ = _
          rw [hkinds, hkind, List.map_cons]
          rfl

/-- What ends a run early that is not strict is the fault that a target is of the wrong kind. -/
theorem runFrom_ended (hr : request.strict = false) {total : Nat} {actions : List Action}
    (ha : ∀ a ∈ actions, (e.registry.get? a.kind).isSome) {number : Nat} {context : Table Value}
    {w : World} {f : Failure}
    (h : (runFrom e request total number context actions w).1.ended = some f) :
    ∃ m, f = .fault (.kind m) := by
  induction actions generalizing number context w with
  | nil => cases h
  | cons a rest ih =>
    have hhandled : (e.registry.get? (fill request context a).kind).isSome :=
      ha a List.mem_cons_self
    cases hrep : (report e request.instruction total number (fill request context a)).run w with
    | mk r u =>
      cases r with
      | error g =>
        rw [runFrom_cons_error hrep] at h
        cases h
        exact report_error hhandled hrep
      | ok t =>
        rw [runFrom_cons_ok (Or.inl hr) hrep] at h
        exact ih (fun b hb => ha b (List.mem_cons_of_mem _ hb)) h

/-- A run goes on behind an action, or it is strict and the action has failed. -/
theorem goesOn_or_failed (request : RunRequest) (t : Taken) :
    (request.strict = false ∨ t.failure = none) ∨
      request.strict = true ∧ ∃ f, t.failure = some f := by
  cases hstrict : request.strict with
  | false => exact Or.inl (Or.inl rfl)
  | true =>
    cases hfailure : t.failure with
    | none => exact Or.inl (Or.inr rfl)
    | some f => exact Or.inr ⟨rfl, f, rfl⟩

/-- An action ends a run: it fails, and the run is strict or the failure cannot be worded. -/
def Ends (e : Executor) (request : RunRequest) (b : Action) (w : World) : Prop :=
  (request.strict = true ∨ b.step.isNameable = false) ∧
    ∃ f, ((act e request.instruction b).run w).1 = .error f

theorem ends_iff_breaks (hr : request.strict = false) {b : Action} {w : World} :
    Ends e request b w ↔ Breaks e request.instruction b w := by
  unfold Ends Breaks
  rw [hr]
  simp

section

variable {a : Action} {context : Table Value} {total number : Nat} {w u : World} {t : Taken}
  (hhandled : (e.registry.get? (fill request context a).kind).isSome)

include hhandled

/-- On an action that does not end the run there is a report. -/
theorem exists_report_of_not_ends (h : ¬ Ends e request (fill request context a) w) :
    ∃ t u, (report e request.instruction total number (fill request context a)).run w =
      (.ok t, u) := by
  refine (exists_report_iff hhandled total number w).2 fun hbreaks => h ?_
  exact ⟨Or.inr hbreaks.1, hbreaks.2⟩

/-- Behind an action on which there is a report the run goes on exactly if the action does not end
it. -/
theorem goesOn_iff_not_ends
    (hrep : (report e request.instruction total number (fill request context a)).run w =
      (.ok t, u)) :
    (request.strict = false ∨ t.failure = none) ↔
      ¬ Ends e request (fill request context a) w := by
  have hfailure := report_failure hhandled hrep
  constructor
  · rintro hgoesOn ⟨hcause, f, hf⟩
    rcases hgoesOn with hlenient | hnone
    · rw [hlenient] at hcause
      refine (exists_report_iff hhandled total number w).1 ⟨t, u, hrep⟩ ?_
      exact ⟨hcause.resolve_left Bool.false_ne_true, f, hf⟩
    · obtain ⟨o, ho⟩ := hfailure.1 hnone
      cases ho.symm.trans hf
  · intro hends
    rcases goesOn_or_failed request t with hgoesOn | ⟨hstrict, f, hf⟩
    · exact hgoesOn
    · refine absurd ⟨Or.inl hstrict, ?_⟩ hends
      cases hacted : ((act e request.instruction (fill request context a)).run w).1 with
      | ok o =>
        rw [hfailure.2 ⟨o, hacted⟩] at hf
        cases hf
      | error g => exact ⟨g, rfl⟩

end

/-- A run does not end early exactly if nothing that it takes ends it. -/
theorem runFrom_ended_eq_none_iff {total : Nat} {actions : List Action}
    (ha : ∀ a ∈ actions, (e.registry.get? a.kind).isSome) {number : Nat} {context : Table Value}
    {w : World} :
    (runFrom e request total number context actions w).1.ended = none ↔
      ∀ b x, Takes e request total number context actions w b x → ¬ Ends e request b x := by
  induction actions generalizing number context w with
  | nil =>
    constructor
    · rintro - b x ⟨⟩
    · intro _
      rfl
  | cons a rest ih =>
    have hhandled : (e.registry.get? (fill request context a).kind).isSome :=
      ha a List.mem_cons_self
    cases hrep : (report e request.instruction total number (fill request context a)).run w with
    | mk r u =>
      cases r with
      | error g =>
        rw [runFrom_cons_error hrep]
        constructor
        · intro h
          cases h
        · intro h
          obtain ⟨t, v, ht⟩ := exists_report_of_not_ends hhandled
            (h _ _ (.here number context a rest w))
          rw [hrep] at ht
          cases ht
      | ok t =>
        have hends := goesOn_iff_not_ends hhandled hrep
        rcases goesOn_or_failed request t with hgoesOn | ⟨hstrict, f, hf⟩
        · rw [runFrom_cons_ok hgoesOn hrep]
          have hrest := @ih (fun b hb => ha b (List.mem_cons_of_mem _ hb)) (number + 1)
            (keep context t.stored) (pause e total number u)
          constructor
          · intro h b x hb
            cases hb with
            | here => exact hends.1 hgoesOn
            | later hrep' _ htakes =>
              rw [hrep] at hrep'
              cases hrep'
              exact hrest.1 h b x htakes
          · intro h
            exact hrest.2 fun b x hb => h b x (.later hrep hgoesOn hb)
        · -- the run ends behind this action, which has failed
          rw [runFrom_cons_failed hstrict hf hrep]
          constructor
          · intro h
            cases h
          · intro h
            rcases hends.2 (h _ _ (.here number context a rest w)) with hlenient | hnone
            · rw [hstrict] at hlenient
              cases hlenient
            · rw [hf] at hnone
              cases hnone

/-! ## The run of a document -/

/-- A run gives a report exactly if it did not end early, and then on all steps. -/
theorem run_ok_iff (context : Table Value) (actions : List Action) (w : World) (r : Report) :
    (run e request context actions w).1.1 = .ok r ↔
      let after := runFrom e request actions.length 1 context actions w
      after.1.ended = none ∧
        r = Report.ofSteps after.1.steps ((after.2.clock : Int) - w.clock) actions.length
          false := by
  unfold run
  dsimp only
  cases (runFrom e request actions.length 1 context actions w).1.ended with
  | none =>
    constructor
    · intro h
      cases h
      exact ⟨rfl, rfl⟩
    · rintro ⟨-, rfl⟩
      rfl
  | some f =>
    constructor
    · intro h
      cases f <;> cases h
    · rintro ⟨h, -⟩
      cases h

/-- So a run gives a report exactly if nothing that it takes ends it. -/
theorem exists_run_ok_iff {context : Table Value} {actions : List Action} {w : World}
    (ha : ∀ a ∈ actions, (e.registry.get? a.kind).isSome) :
    (∃ r, (run e request context actions w).1.1 = .ok r) ↔
      ∀ b x, Takes e request actions.length 1 context actions w b x → ¬ Ends e request b x := by
  rw [← runFrom_ended_eq_none_iff ha]
  constructor
  · rintro ⟨r, h⟩
    exact ((run_ok_iff context actions w r).1 h).1
  · intro h
    exact ⟨_, (run_ok_iff context actions w _).2 ⟨h, rfl⟩⟩

/-- What a run gives in the place of a report is the failure by which it ended early, which if it
is that of a step carries the report so far. -/
theorem run_error {context : Table Value} {actions : List Action} {w : World} {f : Failure}
    (h : (run e request context actions w).1.1 = .error f) :
    ∃ g, (runFrom e request actions.length 1 context actions w).1.ended = some g ∧
      ((∃ a, g = .action a) ∨ f = g) := by
  unfold run at h
  dsimp only at h
  cases hp : (runFrom e request actions.length 1 context actions w).1.ended with
  | none =>
    rw [hp] at h
    cases h
  | some g =>
    rw [hp] at h
    refine ⟨g, rfl, ?_⟩
    cases g with
    | action a => exact Or.inl ⟨a, rfl⟩
    | _ =>
      cases h
      exact Or.inr rfl

/-- A run of a document that is not strict reports on every step, in the order of the document,
unless it comes to a step that fails while its target can be no part of a failure. Nothing else
keeps it from its report, so that it always reports on a document all targets of which are texts or
nothing. -/
theorem returns_iff_never_breaks (e : Executor) (request : RunRequest) (context : Table Value)
    (w : World) {source : Option String} {document : Value} {actions : List Action}
    (hlenient : request.strict = false) (hregistry : e.registry.Consistent)
    (hread : (Document.read e.registry source document).2 = .ok actions) :
    ((∃ r, (run e request context actions w).1.1 = .ok r) ↔
      ∀ b x, Takes e request actions.length 1 context actions w b x →
        ¬ Breaks e request.instruction b x) ∧
    ((∀ a ∈ actions, a.step.isNameable = true) →
      ∃ r, (run e request context actions w).1.1 = .ok r) ∧
    (∀ r, (run e request context actions w).1.1 = .ok r →
      r.steps.map (·.number) = (List.range' 1 actions.length).map (fun n : Nat => (n : Int)) ∧
      r.steps.map (·.kind) = actions.map (·.kind)) ∧
    (∀ f, (run e request context actions w).1.1 = .error f → ∃ m, f = .fault (.kind m)) := by
  have hhandled := Document.read_handled hregistry hread
  have hreturns : (∃ r, (run e request context actions w).1.1 = .ok r) ↔
      ∀ b x, Takes e request actions.length 1 context actions w b x →
        ¬ Breaks e request.instruction b x := by
    rw [exists_run_ok_iff hhandled]
    simp only [ends_iff_breaks hlenient]
  refine ⟨hreturns, ?_, ?_, ?_⟩
  -- what can be named in the document can be named once its placeholders are filled in
  · intro hnameable
    refine hreturns.2 fun b x hb hbreaks => ?_
    obtain ⟨a, ha, c, rfl⟩ := hb.exists_fill
    have hfill : (fill request c a).step.isNameable = true :=
      (Step.isNameable_substitute _ a.step).trans (hnameable a ha)
    rw [hbreaks.1] at hfill
    cases hfill
  · intro r h
    obtain ⟨hnone, rfl⟩ := (run_ok_iff context actions w r).1 h
    exact runFrom_steps hlenient hnone
  · intro f h
    obtain ⟨g, hg, hf⟩ := run_error h
    obtain ⟨m, rfl⟩ := runFrom_ended hlenient hhandled hg
    rcases hf with ⟨a, ha⟩ | rfl
    · cases ha
    · exact ⟨m, rfl⟩

/-- Two clicks on things that are missing and a script: two failures and a success are reported. -/
theorem returns_iff_never_breaks_clicks :
    ∃ r, (run {} {} [] [⟨"click", .click (.text ".next") (.text "left") 1 none, 1⟩,
        ⟨"evaluate", .evaluate "1" none none, 2⟩] {}).1.1 = .ok r ∧ r.steps.length = 2 := by
  have hread : (Document.read .standard none (.list [.map [(.text "click", .text ".next")],
      .map [(.text "eval", .text "1")]])).2 = .ok
        [⟨"click", .click (.text ".next") (.text "left") 1 none, 1⟩,
          ⟨"evaluate", .evaluate "1" none none, 2⟩] := rfl
  obtain ⟨-, hreturns, hsteps, -⟩ :=
    returns_iff_never_breaks {} {} [] {} rfl (Registry.ofCommands_consistent _) hread
  obtain ⟨r, hr⟩ := hreturns (by decide)
  refine ⟨r, hr, ?_⟩
  have := congrArg List.length (hsteps r hr).1
  rw [List.length_map] at this
  exact this

/-- A click on a number is read, and there is no report on it if the page has nothing there. -/
theorem not_returns_click_number :
    ¬ ∀ (e : Executor) (request : RunRequest) (context : Table Value) (w : World)
      (source : Option String) (document : Value) (actions : List Action),
      request.strict = false → e.registry = .standard →
      (Document.read e.registry source document).2 = .ok actions →
      ∃ r, (run e request context actions w).1.1 = .ok r := by
  intro h
  obtain ⟨r, hr⟩ := h {} {} [] {} none
    (.list [.map [(.text "click", .map [(.text "selector", .int 123)])],
      .map [(.text "evaluate", .text "1")]])
    [⟨"click", .click (.int 123) (.text "left") 1 none, 1⟩,
      ⟨"evaluate", .evaluate "1" none none, 2⟩]
    rfl rfl rfl
  have hfails : (run {} {} [] [⟨"click", .click (.int 123) (.text "left") 1 none, 1⟩,
      ⟨"evaluate", .evaluate "1" none none, 2⟩] {}).1.1.isOk = false := by
    decide +kernel
  rw [hr] at hfails
  cases hfails

end BrowserFlow.Execution
