import BrowserFlow.Proofs.Session.Acceptance
import BrowserFlow.Proofs.Session.Phases

/-!
# The cap on rounds

There are at most as many rounds in a stint as the settings allow, but at least one, whatever is
decided: every round counts one down, whether its document is a new one or is run again, and
whether the history begins anew or not (`Runs.length_le`). A round runs one document and makes one
request for it and one for the judgement at most (`Lap.execution`, `Lap.asksTwice`). Where no round
may follow, a success is accepted, and only a failure is given up (`Trial.settles`).
-/

namespace BrowserFlow.Session

variable {s t : Session}

/-! ## One round -/

theorem count_execute_opening (task : Task) : task.opening.count .execute = 0 := by
  unfold Task.opening
  split
  · rfl
  · rfl

/-- A round runs one document at most. -/
theorem Lap.execution (x : Lap) : x.phases.count .execute ≤ 1 := by
  obtain ⟨ps, hpasses, hphases⟩ := x.passes
  rw [Lap.phases_eq hphases, List.count_append, count_execute_opening, Nat.zero_add]
  generalize x.result = r at hpasses
  cases hpasses with
  | failed before =>
    exact Nat.le_trans (before.sublist.count_le _) (by decide)
  | @ended e proper asks =>
    cases proper with
    | accepted state => rw [state]; decide
    | abandoned state => rw [state]; decide
  | improved anew => decide
  | repeated => decide

/-- What comes after a judgement makes no request, and leaves the settings as they are. -/
theorem After.requests_settings {task : Task} {isLast : Bool} {a : Attempt} {v : Verification}
    {r : Except Failure Sequel} (h : After task isLast a v s r t) :
    t.world.requests = s.world.requests ∧ t.settings = s.settings := by
  cases h with
  | failed cause ledger => exact ⟨ledger.requests, ledger.settings⟩
  | accepted success whole ledger uses => exact ⟨ledger.requests, ledger.settings⟩
  | abandoned failure reasoned ledger => exact ⟨ledger.requests, ledger.settings⟩
  | again more resumes kept ledger => exact ⟨ledger.requests, ledger.settings⟩

/-- There is at most one request for the document of a round and one for the judgement on it. -/
def Lap.AsksTwice (x : Lap) : Prop :=
  ∃ asked judged document report, Planner.AtMostOnce (x.task.prompt x.start) asked ∧
    Planner.AtMostOnce (x.question document report) judged ∧
    x.finish.world.requests = x.start.world.requests ++ (asked ++ judged)

theorem Lap.asksTwice (x : Lap) : x.AsksTwice := by
  rcases x.does with hstops | ⟨T, hafter⟩
  · obtain ⟨ps, asked, judged, document, report, -, hasked, hjudged, hledger⟩ := hstops.ledger
    exact ⟨asked, judged, document, report, hasked, hjudged, congrArg Ledger.requests hledger⟩
  · obtain ⟨asked, judged, hasked, hjudged, hledger⟩ := T.ledger
    refine ⟨asked, judged, T.document, T.report, hasked, hjudged, ?_⟩
    have hrecorded : T.recorded.world.requests = x.start.world.requests ++ (asked ++ judged) :=
      congrArg Ledger.requests hledger
    rw [← hrecorded]
    exact hafter.requests_settings.1

theorem Lap.settings (x : Lap) : x.finish.settings = x.start.settings := by
  rcases x.does with hstops | ⟨T, hafter⟩
  · obtain ⟨_, _, _, _, _, -, -, -, hledger⟩ := hstops.ledger
    exact congrArg Ledger.settings hledger
  · obtain ⟨_, _, -, -, hledger⟩ := T.ledger
    have hrecorded : T.recorded.settings = x.start.settings := congrArg Ledger.settings hledger
    exact hafter.requests_settings.2.trans hrecorded

/-- The document of a trial is accepted, or it is not because nothing was decided, or it was to be
saved and cannot be, or it cannot be joined to the one that it continues. -/
def Trial.Settles {x : Lap} (T : Trial x) : Prop :=
  (∃ e, x.result = .ok (.ended e) ∧ e.outcome.state = .accept ∧
    e.outcome.verification = some T.verification ∧
    ∃ document, x.task.whole T.document = .ok document ∧ e.outcome.document = some document) ∨
  ∃ f, x.result = .error f ∧ Unsettled x.task T.attempt T.verification T.recorded f

/-- Where no round may follow, a success is accepted whatever is decided. -/
theorem Trial.settles {x : Lap} (T : Trial x) (hlast : x.isLast = true)
    (hsuccess : T.verification.success = true) : T.Settles := by
  have hafter := T.does
  have hdocument := T.concludes_attempt.document
  unfold Trial.Settles
  rw [hlast] at hafter
  generalize x.result = r, x.finish = u at hafter ⊢
  cases hafter with
  | @failed f _ cause ledger => exact Or.inr ⟨f, rfl, cause⟩
  | @accepted document saved followUp _ success whole ledger uses =>
    rw [hdocument] at whole
    exact Or.inl ⟨_, rfl, rfl, rfl, document, whole, rfl⟩
  -- a success is not given up, and where no round may follow none does
  | abandoned failure =>
    rw [hsuccess] at failure
    cases failure
  | again more => cases more

/-- What is given up has failed. -/
theorem Lap.abandons {x : Lap} {e : Ending} (h : x.result = .ok (.ended e))
    (hstate : e.outcome.state = .abandon) : ∃ T : Trial x, T.verification.success = false := by
  rcases x.does with hstops | ⟨T, hafter⟩
  · obtain ⟨f, hf⟩ := hstops.failed
    rw [hf] at h
    cases h
  · rw [h] at hafter
    cases hafter with
    | accepted => cases hstate
    | abandoned failure => exact ⟨T, failure⟩

/-! ## All rounds -/

theorem count_execute_le (laps : List Lap) :
    (laps.flatMap Lap.phases).count .execute ≤ laps.length := by
  induction laps with
  | nil => exact Nat.le_refl 0
  | cons x rest ih =>
    rw [List.flatMap_cons, List.count_append, List.length_cons]
    have hx := x.execution
    omega

section

variable {left : Nat} {task : Task} {laps : List Lap} {q : Except Failure Ending}

/-- One round and at most `left` more. -/
theorem Runs.length_le (h : Runs left task s laps q t) : laps.length ≤ left + 1 := by
  induction h with
  | failed => exact Nat.succ_le_succ (Nat.zero_le _)
  | ended => exact Nat.succ_le_succ (Nat.zero_le _)
  | again last result later ih => exact Nat.succ_le_succ ih

/-- The last round by rule is the one behind `left` others. -/
theorem Runs.isLast_iff (h : Runs left task s laps q t) (i : Nat) (hi : i < laps.length) :
    laps[i].isLast = true ↔ i = left := by
  have hsingle : ∀ {left : Nat} {x : Lap} {i : Nat} (hi : i < [x].length),
      x.isLast = (left == 0) → ([x][i].isLast = true ↔ i = left) := by
    intro left x i hi hlast
    have hzero : i = 0 := Nat.lt_one_iff.mp hi
    subst hzero
    rw [List.getElem_cons_zero, hlast, beq_iff_eq]
    exact eq_comm
  induction h generalizing i with
  | failed last result => exact hsingle hi last
  | ended last result => exact hsingle hi last
  | again last result later ih =>
    cases i with
    | zero =>
      rw [List.getElem_cons_zero, last]
      exact iff_of_false Bool.false_ne_true (Nat.succ_ne_zero _).symm
    | succ i =>
      rw [List.getElem_cons_succ]
      have hi' := ih i (Nat.lt_of_succ_lt_succ hi)
      exact hi'.trans Nat.succ_inj.symm

end

theorem Runs.settings {left : Nat} {task : Task} {laps : List Lap} {q : Except Failure Ending}
    (h : Runs left task s laps q t) : t.settings = s.settings := by
  induction h with
  | failed => exact Lap.settings _
  | ended => exact Lap.settings _
  | again last result later ih => exact ih.trans (Lap.settings _)

/-- The settings are the same in all stints of a call. -/
theorem Works.settings {x : Stint} {stints : List Stint} {r : Except Failure Outcome}
    (h : Works x stints r t) :
    t.settings = x.start.settings ∧ ∀ y ∈ stints, y.start.settings = x.start.settings := by
  have hsingle : ∀ x : Stint, x.finish.settings = x.start.settings ∧
      ∀ y ∈ [x], y.start.settings = x.start.settings := by
    intro x
    refine ⟨x.runs.settings, fun y hy => ?_⟩
    rw [List.mem_singleton.mp hy]
  induction h with
  | @followed x z e followUp stints r t result asks opening task start later ih =>
    have hx := x.runs.settings
    rw [start, hx] at ih
    refine ⟨ih.1, fun y hy => ?_⟩
    rcases List.mem_cons.mp hy with rfl | hy
    · rfl
    · exact ih.2 y hy
  | failed result => exact hsingle _
  | ended result done => exact hsingle _
  | refused result asks missing => exact hsingle _

theorem Story.settings {stints : List Stint} {r : Except Failure Outcome}
    (h : Story s stints r t) :
    t.settings = s.settings ∧ ∀ x ∈ stints, x.start.settings = s.settings := by
  induction h with
  | run opening task start works =>
    have hworks := works.settings
    rw [start] at hworks
    exact hworks
  | refused before world decider missing ih => exact ih
  | extend before world decider opening task start works ih =>
    have hworks := works.settings
    rw [start] at hworks
    refine ⟨hworks.1.trans ih.1, fun x hx => ?_⟩
    rcases List.mem_append.mp hx with hx | hx
    · exact ih.2 x hx
    · exact (hworks.2 x hx).trans ih.1

/-- What the cap means for a stint. -/
structure Stint.Capped (m : Nat) (x : Stint) : Prop where
  phases : x.finish.phases = x.start.phases ++ x.phases
  executions : x.phases.count .execute ≤ m
  rounds : x.laps.length ≤ m
  /-- The last round by rule is the one with the number `m`. -/
  last : ∀ i (hi : i < x.laps.length), x.laps[i].isLast = true ↔ i + 1 = m
  asks : ∀ lap ∈ x.laps, lap.AsksTwice
  settles : ∀ lap ∈ x.laps, lap.isLast = true → ∀ T : Trial lap,
    T.verification.success = true → T.Settles
  abandons : ∀ lap ∈ x.laps, ∀ e, lap.result = .ok (.ended e) → e.outcome.state = .abandon →
    ∃ T : Trial lap, T.verification.success = false

theorem Stint.capped (x : Stint) : x.Capped (max 1 x.start.settings.maxAttempts).toNat := by
  -- the session counts the rounds behind the first, the cap counts all of them
  have hcap : x.start.roundsLeft + 1 = (max 1 x.start.settings.maxAttempts).toNat := by
    unfold roundsLeft
    omega
  rw [← hcap]
  obtain ⟨ps, hphases, hlaps, -⟩ := x.runs.leads
  refine ⟨?_, ?_, x.runs.length_le, fun i hi => ?_, fun lap _ => lap.asksTwice,
    fun lap _ hlast T hsuccess => T.settles hlast hsuccess,
    fun lap _ e he hstate => Lap.abandons he hstate⟩
  · unfold Stint.phases
    rw [hphases, hlaps]
  · exact Nat.le_trans (count_execute_le x.laps) x.runs.length_le
  · rw [x.runs.isLast_iff i hi]
    omega

/-- In a call of `run` and in calls of `extend` behind it every stint is capped, be it the rounds of
the call or those of a continuation. -/
theorem rounds_capped {r : Except Failure Outcome} (h : Calls s r t) :
    ∃ stints, Story s stints r t ∧
      ∀ x ∈ stints, x.Capped (max 1 s.settings.maxAttempts).toNat := by
  obtain ⟨stints, hstory⟩ := h.story
  refine ⟨stints, hstory, fun x hx => ?_⟩
  rw [← hstory.settings.2 x hx]
  exact x.capped

/-- By default there are at most five rounds in a stint. -/
theorem rounds_capped_brief :
    ∃ r t stints, (Session.run "look").run brief = (r, t) ∧ Story brief stints r t ∧
      ∀ x ∈ stints, x.laps.length ≤ 5 := by
  generalize hrun : (Session.run "look").run brief = p
  obtain ⟨r, t⟩ := p
  obtain ⟨stints, hstory, hcapped⟩ := rounds_capped (.run hrun)
  exact ⟨r, t, stints, rfl, hstory, fun x hx => (hcapped x hx).rounds⟩

end BrowserFlow.Session
