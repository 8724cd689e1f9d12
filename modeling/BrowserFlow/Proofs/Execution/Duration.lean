import BrowserFlow.Proofs.Execution.Scripts
import BrowserFlow.Proofs.World.Deadline

/-!
# How long a run takes

An action takes no longer than the time limit of its step and the grace on top of it
(`duration_of_report`), and what is reported of it is by how much the clock has gone on. Between two
actions there is a pause, and none behind the last. So the clock goes on by the durations and the
pauses (`Advances.clock_eq`), and both can be read off a report that a run gives, be it of all
actions or of those until the first failure (`report_keepsTime`).
-/

namespace BrowserFlow.Execution

variable {e : Executor} {request : RunRequest} {instruction : Option String} {total number : Nat}
  {context context' : Table Value} {actions : List Action} {w w' : World}

/-! ## One action -/

/-- An action takes no longer than its time limit with the grace on top. -/
theorem clock_act (e : Executor) (instruction : Option String) (a : Action) (w : World) :
    w.clock ≤ ((act e instruction a).run w).2.clock ∧
      ((act e instruction a).run w).2.clock ≤ w.clock + (boundMs e a.step).toNat := by
  have hwithin : w.clock ≤ _ ∧ _ := World.clock_within
    (x := fun limit => a.step.perform ⟨e.data, instruction⟩ limit (a.step.timeout e.timeoutMs))
    (fun _ => Step.inTime_perform _ a.step _) (boundMs e a.step) w
  unfold boundMs at hwithin ⊢
  unfold act
  dsimp only
  split
  · rw [Effect.run_bind_error (Effect.run_throw _ w)]
    exact ⟨le_rfl, Nat.le_add_right _ _⟩
  · exact hwithin

/-- So it is with taking it. -/
theorem clock_take (e : Executor) (instruction : Option String) (number : Nat) (a : Action)
    (w : World) :
    w.clock ≤ ((take e instruction number a).run w).2.clock ∧
      ((take e instruction number a).run w).2.clock ≤ w.clock + (boundMs e a.step).toNat := by
  by_cases hhandled : (e.registry.get? a.kind).isSome
  · rw [take_eq hhandled]
    dsimp only
    exact clock_act e instruction a w
  · rw [take_unhandled hhandled]
    exact ⟨le_rfl, Nat.le_add_right _ _⟩

/-- The duration in a report is by how much the clock has gone on, which is no more than the action
may take. -/
theorem duration_of_report {a : Action} {u : World} {t : Taken}
    (h : (report e instruction total number a).run w = (.ok t, u)) :
    t.report.durationMs = (u.clock : Int) - w.clock ∧
      0 ≤ t.report.durationMs ∧ t.report.durationMs ≤ max 0 (boundMs e a.step) := by
  have hclock := clock_take e instruction number a w
  have hduration : t.report.durationMs = (u.clock : Int) - w.clock ∧
      u.clock = ((take e instruction number a).run w).2.clock := by
    rw [report_eq] at h
    dsimp only at h
    generalize (take e instruction number a).run w = taken at h
    obtain ⟨outcome, v⟩ := taken
    cases outcome with
    | ok o =>
      cases h
      exact ⟨rfl, rfl⟩
    | error f =>
      cases f with
      | action f =>
        cases h
        exact ⟨rfl, rfl⟩
      | _ => cases h
  obtain ⟨hduration, hlast⟩ := hduration
  rw [← hlast] at hclock
  refine ⟨hduration, ?_, ?_⟩
  · omega
  · omega

/-! ## One action after the other -/

/-- The durations of some steps in all. -/
def durations (steps : List StepReport) : Int :=
  (steps.map (·.durationMs)).sum

/-- The milliseconds of the pause between two steps. -/
def pauseMs (e : Executor) : Int :=
  max 0 e.delayMs

theorem clock_pause (e : Executor) (total number : Nat) (w : World) :
    ((pause e total number w).clock : Int) =
      w.clock + (if number < total then pauseMs e else 0) := by
  unfold pause pauseMs
  split
  · show ((w.clock + e.delayMs.toNat : Nat) : Int) = _
    omega
  · omega

/-- While actions are taken the clock goes on by what they take, and by a pause behind each of them
that is not the last of all. -/
theorem Advances.clock_eq {ts : List Taken}
    (h : Advances e request total number context w actions ts context' w') :
    (w'.clock : Int) = w.clock + durations (ts.map (·.report)) +
      (min actions.length (total - number) : Nat) * pauseMs e := by
  induction h with
  | nil number context w => simp [durations]
  | @cons number context context' w u w' a t rest ts reported _ ih =>
    obtain ⟨hduration, -, -⟩ := duration_of_report reported
    have hpauses : (min (a :: rest).length (total - number) : Nat) * pauseMs e =
        (if number < total then pauseMs e else 0) +
          (min rest.length (total - (number + 1)) : Nat) * pauseMs e := by
      rw [List.length_cons]
      split
      · have hone : min (rest.length + 1) (total - number) =
            min rest.length (total - (number + 1)) + 1 := by omega
        rw [hone, Nat.cast_add, Nat.cast_one, add_mul, one_mul, add_comm]
      · have hnone : total - number = 0 := by omega
        have hnone' : total - (number + 1) = 0 := by omega
        rw [hnone, hnone', Nat.min_zero, Nat.min_zero, Nat.cast_zero, zero_mul, zero_add]
    have hdurations : durations ((t :: ts).map (·.report)) =
        t.report.durationMs + durations (ts.map (·.report)) := by
      simp [durations]
    rw [ih, clock_pause, hpauses, hdurations, hduration]
    omega

/-! ## The report -/

/-- The times in a report on some actions are in order: each step took no longer than it may, and
all of them took what each took and the pauses between them. -/
structure KeepsTime (e : Executor) (actions : List Action) (r : Report) : Prop where
  step (i : Nat) (s : StepReport) (hs : r.steps[i]? = some s) : ∃ a, actions[i]? = some a ∧
    0 ≤ s.durationMs ∧ s.durationMs ≤ max 0 (a.step.timeout e.timeoutMs + graceMs)
  all : r.totalDurationMs =
    (r.steps.map (·.durationMs)).sum + (r.steps.length - 1 : Nat) * max 0 e.delayMs

/-- The clock goes on in a run of all actions of a document by the durations of the steps and a
pause between two of them, unless there is no report on an action. -/
theorem clock_runFrom {p : Progress × World}
    (hrun : runFrom e request actions.length 1 context actions w = p)
    (hended : ∀ f, p.1.ended = some f → ∃ g, f = .action g) :
    (p.2.clock : Int) - w.clock =
      durations p.1.steps + (p.1.steps.length - 1 : Nat) * pauseMs e := by
  have hending := exists_ending e request actions.length 1 context actions w
  rw [hrun] at hending
  cases hending with
  | finished advances _ =>
    have hclock := advances.clock_eq
    have hlength : min actions.length (actions.length - 1) = actions.length - 1 := by omega
    rw [hlength] at hclock
    dsimp only
    rw [List.length_map, advances.length_eq]
    omega
  | broken _ _ reported =>
    obtain ⟨g, hg⟩ := hended _ rfl
    exact absurd hg (report_ne_action reported g)
  | @aborted xs rest ts c u v a t f _ advances _ reported _ =>
    have hclock := advances.clock_eq
    obtain ⟨hduration, -, -⟩ := duration_of_report reported
    have hlength : min xs.length ((xs ++ a :: rest).length - 1) = xs.length := by
      rw [List.length_append, List.length_cons]
      omega
    rw [hlength] at hclock
    have hdurations : durations (ts.map (·.report) ++ [t.report]) =
        durations (ts.map (·.report)) + t.report.durationMs := by
      simp [durations]
    dsimp only
    rw [List.length_append, List.length_map, List.length_singleton, Nat.add_sub_cancel,
      advances.length_eq, hdurations]
    omega

/-- A run that gives a report gives what is made of its progress, and has not been ended but by the
failure of a step. -/
theorem ofSteps_of_gives {r : Report} (h : Gives (run e request context actions w).1.1 r) :
    let after := runFrom e request actions.length 1 context actions w
    (∀ f, after.1.ended = some f → ∃ g, f = .action g) ∧
      ∃ aborted, r = Report.ofSteps after.1.steps ((after.2.clock : Int) - w.clock) actions.length
        aborted := by
  unfold run at h
  dsimp only at h ⊢
  generalize runFrom e request actions.length 1 context actions w = p at h ⊢
  obtain ⟨⟨steps, after, ended⟩, u⟩ := p
  cases ended with
  | none =>
    rcases h with h | ⟨f, h, -⟩
    · cases h
      exact ⟨fun f hf => (nomatch hf), false, rfl⟩
    · cases h
  | some f =>
    cases f with
    | action f =>
      rcases h with h | ⟨g, h, hresult⟩
      · cases h
      · cases h
        cases hresult
        exact ⟨fun f hf => by cases hf; exact ⟨_, rfl⟩, true, rfl⟩
    | _ =>
      rcases h with h | ⟨g, h, -⟩
      · cases h
      · cases h

/-- The times in a report that a run gives are in order, whether the run is strict or not and
whatever the page does: no step takes longer than its time limit with the grace on top, and all
steps take what each of them took and the pauses between them. -/
theorem report_keepsTime (e : Executor) (request : RunRequest) (context : Table Value)
    (actions : List Action) (w : World) {r : Report}
    (h : Gives (run e request context actions w).1.1 r) : KeepsTime e actions r where
  step i s hs := by
    obtain ⟨a, t, v, ha, rfl, -, hreport⟩ := reported_of_gives h hs
    obtain ⟨-, hnonneg, hbound⟩ := duration_of_report hreport
    refine ⟨a, ha, hnonneg, ?_⟩
    rw [boundMs, fill, Step.timeout_substitute] at hbound
    exact hbound
  all := by
    obtain ⟨hended, aborted, rfl⟩ := ofSteps_of_gives h
    exact clock_runFrom rfl hended

/-- A page that never answers a click, and takes its time over scripts. -/
def deafToClicks : World :=
  { page := { troubles := [("click", .hang)], delays := [("evaluate", 40)] } }

/-- A click that may take half a second, with a script behind it. -/
def briefClickThenScript : List Action :=
  [⟨"click", .click (.text ".next") (.text "left") 1 (some 500), 1⟩,
    ⟨"evaluate", .evaluate "1" none none, 2⟩]

/-- The milliseconds that the report tells which a run gives. -/
def totalMs? : Except Failure Report → Option Int
  | .ok r => some r.totalDurationMs
  | .error (.action f) => f.result.map (·.totalDurationMs)
  | .error _ => none

theorem gives_of_totalMs? {q : Except Failure Report} {ms : Int} (h : totalMs? q = some ms) :
    ∃ r, Gives q r ∧ r.totalDurationMs = ms := by
  unfold totalMs? at h
  split at h
  · cases h
    exact ⟨_, Or.inl rfl, rfl⟩
  · obtain ⟨r, hr, rfl⟩ := Option.map_eq_some_iff.1 h
    exact ⟨r, Or.inr ⟨_, rfl, hr⟩, rfl⟩
  · cases h

/-- The click is cut off after its time and the grace. A strict run ends with that, and another
takes the pause and the script as well. -/
theorem report_keepsTime_click :
    (∃ r, Gives (run {} {} [] briefClickThenScript deafToClicks).1.1 r ∧
      KeepsTime {} briefClickThenScript r ∧ r.totalDurationMs = 1640) ∧
    ∃ r, Gives (run {} { strict := true } [] briefClickThenScript deafToClicks).1.1 r ∧
      KeepsTime {} briefClickThenScript r ∧ r.totalDurationMs = 1500 := by
  constructor
  · have hrun : totalMs? (run {} {} [] briefClickThenScript deafToClicks).1.1 = some 1640 := by
      decide +kernel
    obtain ⟨r, hr, htotal⟩ := gives_of_totalMs? hrun
    exact ⟨r, hr, report_keepsTime _ _ _ _ _ hr, htotal⟩
  · have hrun : totalMs? (run {} { strict := true } [] briefClickThenScript deafToClicks).1.1 =
        some 1500 := by
      decide +kernel
    obtain ⟨r, hr, htotal⟩ := gives_of_totalMs? hrun
    exact ⟨r, hr, report_keepsTime _ _ _ _ _ hr, htotal⟩

end BrowserFlow.Execution
