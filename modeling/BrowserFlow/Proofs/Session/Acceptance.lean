import BrowserFlow.Proofs.Session.Stint
import BrowserFlow.Proofs.Verification.Reading

/-!
# What is accepted has been verified

A document is accepted after a round only if the attempt of that round was judged a success. The
judgement is that of the model, or it is assumed where the model gave no answer, and an attempt
that should have returned data and did not is never one (`Trial.verdict`). The outcome of a call is
that of the last round of its last stint (`Runs.last`, `Works.last`), so that this holds of
whatever a call returns as accepted. That every attempt in the history has a judgement, and one
whose verdict fits it, is an invariant of rounds (`Lap.history`) and hence of calls.
-/

namespace BrowserFlow

/-! ## Verdicts -/

/-- The attempt was judged, and it has failed exactly if the verdict is that of a failure. -/
def Attempt.Judged (a : Attempt) : Prop :=
  ∃ v, a.verification = some v ∧
    (v.success = false ↔ v.verdict = .failed ∨ v.verdict = .emptyExtraction)

namespace Session

variable {s t : Session}

/-- What the verdict of a judgement on an answer can be. -/
theorem judgementOf_verdict {answer : Except Fault String} {v : Verification}
    (h : judgementOf answer = .ok v) :
    (v.success = false ↔ v.verdict = .failed) ∧ v.verdict ≠ .emptyExtraction ∧
      (v.verdict = .assumed ↔ ∃ f, answer = .error f) ∧
      (v.assumed = true ↔ ∃ f, answer = .error f) := by
  cases answer with
  | error f =>
    cases h
    have hanswer : ∃ g, (Except.error f : Except Fault String) = .error g := ⟨f, rfl⟩
    refine ⟨⟨fun h => ?_, fun h => ?_⟩, fun h => ?_, iff_of_true rfl hanswer,
      iff_of_true rfl hanswer⟩
    · cases h
    · cases h
    · cases h
  | ok answer =>
    have hproper := Verification.ofAnswer_proper h
    rw [hproper.verdict, hproper.assumed]
    have hanswer : ¬ ∃ g, (Except.ok answer : Except Fault String) = .error g := by
      rintro ⟨g, hg⟩
      cases hg
    refine ⟨?_, ?_, iff_of_false ?_ hanswer, iff_of_false Bool.false_ne_true hanswer⟩
    · cases v.success <;> decide
    · cases v.success <;> decide
    · cases v.success <;> decide

namespace Trial

variable {x : Lap}

/-- What the model answers if it is asked for the judgement. -/
def answer (T : Trial x) : Except Fault String :=
  T.executed.answerTo (T.executed.question x.task.instruction T.document T.report)

theorem judged (T : Trial x) : T.attempt.Judged := by
  have h := T.concludes_attempt
  refine ⟨T.verification, h.verification, ?_⟩
  cases hlacks : lacksData x.task.instruction T.report with
  | true =>
    -- the model was not asked
    obtain ⟨hsuccess, hverdict⟩ := h.lacking hlacks
    exact ⟨fun _ => Or.inr hverdict, fun _ => hsuccess⟩
  | false =>
    obtain ⟨hfailed, hempty, -, -⟩ := judgementOf_verdict (h.judged hlacks)
    constructor
    · intro h
      exact Or.inl (hfailed.1 h)
    · rintro (h | h)
      · exact hfailed.2 h
      · exact absurd h hempty

/-- The judgement behind a success: the attempt does not lack data, and the model has judged it, or
has not answered and a success is assumed. -/
theorem verdict (T : Trial x) (hsuccess : T.verification.success = true) :
    lacksData x.task.instruction T.report = false ∧
      (T.verification.verdict = .verified ∨ T.verification.verdict = .assumed) ∧
      (T.verification.verdict = .assumed ↔ ∃ f, T.answer = .error f) ∧
      (T.verification.assumed = true ↔ ∃ f, T.answer = .error f) := by
  have h := T.concludes_attempt
  cases hlacks : lacksData x.task.instruction T.report with
  | true =>
    have hfailed := (h.lacking hlacks).1
    rw [hsuccess] at hfailed
    cases hfailed
  | false =>
    obtain ⟨hfailed, hempty, hverdict, hassumed⟩ := judgementOf_verdict (h.judged hlacks)
    refine ⟨rfl, ?_, hverdict, hassumed⟩
    cases hv : T.verification.verdict with
    | verified => exact Or.inl rfl
    | assumed => exact Or.inr rfl
    | emptyExtraction => exact absurd hv hempty
    | failed =>
      rw [hfailed.2 hv] at hsuccess
      cases hsuccess

end Trial

/-! ## The last round -/

theorem Trial.history {x : Lap} (T : Trial x) :
    T.recorded.history = x.start.history ++ [T.attempt] := by
  obtain ⟨_, _, -, -, hledger⟩ := T.ledger
  exact congrArg Ledger.history hledger

/-- What comes after a judgement leaves the history as it is, or begins it anew. -/
theorem After.history {task : Task} {isLast : Bool} {a : Attempt} {v : Verification}
    {r : Except Failure Sequel} (h : After task isLast a v s r t) :
    t.history = s.history ∨ t.history = [] := by
  cases h with
  | failed cause ledger => exact Or.inl ledger.history
  | accepted success whole ledger uses => exact Or.inl ledger.history
  | abandoned failure reasoned ledger => exact Or.inl ledger.history
  | @again next history intent _ more resumes kept ledger =>
    have hhistory : t.history = history := ledger.history
    rw [hhistory]
    exact kept

/-- A history of judged attempts is one after a round as well. -/
theorem Lap.history (x : Lap) (h : ∀ a ∈ x.start.history, a.Judged) :
    ∀ a ∈ x.finish.history, a.Judged := by
  rcases x.does with hstops | ⟨T, hafter⟩
  · obtain ⟨_, _, _, _, _, -, -, -, hledger⟩ := hstops.ledger
    have hhistory : x.finish.history = x.start.history := congrArg Ledger.history hledger
    rw [hhistory]
    exact h
  · intro a ha
    rcases hafter.history with hkept | hanew
    · rw [hkept, T.history] at ha
      rcases List.mem_append.mp ha with ha | ha
      · exact h a ha
      · rw [List.mem_singleton.mp ha]
        exact T.judged
    · rw [hanew] at ha
      cases ha

/-- A round that ends is a trial whose attempt is the last one of the outcome. If a document was
accepted, that is the one of the trial with what it continues, and the judgement was a success. -/
theorem Lap.ended {x : Lap} {e : Ending} (h : x.result = .ok (.ended e)) :
    ∃ T : Trial x, e.outcome.attempts = x.finish.history ∧
      e.outcome.attempts.getLast? = some T.attempt ∧
      (e.outcome.state = .accept → T.verification.success = true ∧
        e.outcome.verification = some T.verification ∧
        ∃ document, x.task.whole T.document = .ok document ∧
          e.outcome.document = some document) := by
  rcases x.does with hstops | ⟨T, hafter⟩
  · obtain ⟨f, hf⟩ := hstops.failed
    rw [hf] at h
    cases h
  · refine ⟨T, ?_⟩
    have hlast : T.recorded.history.getLast? = some T.attempt := by
      rw [T.history]
      exact List.getLast?_concat
    rw [h] at hafter
    cases hafter with
    | @accepted document saved followUp _ success whole ledger uses =>
      refine ⟨ledger.history.symm, hlast, fun _ => ⟨success, rfl, document, ?_, rfl⟩⟩
      rw [T.concludes_attempt.document] at whole
      exact whole
    | abandoned failure reasoned ledger =>
      refine ⟨ledger.history.symm, hlast, fun hstate => ?_⟩
      cases hstate

/-- The document that a task continues. -/
def Task.existing? : Task → Option String
  | fresh .. => none
  | further existing .. => some existing

theorem Resumes.existing? {a : Attempt} {v : Verification} {task next : Task}
    (h : Resumes a v task next) : next.existing? = task.existing? := by
  cases h <;> rfl

theorem Lap.existing? {x : Lap} {next : Task} (h : x.result = .ok (.again next)) :
    next.existing? = x.task.existing? := by
  rcases x.does with hstops | ⟨T, hafter⟩
  · obtain ⟨f, hf⟩ := hstops.failed
    rw [hf] at h
    cases h
  · rw [h] at hafter
    cases hafter with
    | again more resumes => exact resumes.existing?

section

variable {left : Nat} {task : Task} {laps : List Lap} {q : Except Failure Ending}

theorem Runs.history (h : Runs left task s laps q t) (hs : ∀ a ∈ s.history, a.Judged) :
    ∀ a ∈ t.history, a.Judged := by
  induction h with
  | failed => exact Lap.history _ hs
  | ended => exact Lap.history _ hs
  | again last result later ih => exact ih (Lap.history _ hs)

/-- The ending of a stint is that of its last round, which continues what the stint continues. -/
theorem Runs.last (h : Runs left task s laps q t) {e : Ending} (he : q = .ok e) :
    ∃ x, laps.getLast? = some x ∧ x.result = .ok (.ended e) ∧ x.finish = t ∧
      x.task.existing? = task.existing? := by
  induction h with
  | failed => cases he
  | @ended left x e' last result =>
    cases he
    exact ⟨x, rfl, result, rfl, rfl⟩
  | @again left x next laps r t last result later ih =>
    obtain ⟨y, hy, hresult, hfinish, hexisting⟩ := ih he
    refine ⟨y, ?_, hresult, hfinish, hexisting.trans (Lap.existing? result)⟩
    rw [List.getLast?_cons, hy, Option.getD_some]

end

section

variable {x : Stint} {stints : List Stint} {r : Except Failure Outcome}

theorem Works.history (h : Works x stints r t) (hx : ∀ a ∈ x.start.history, a.Judged) :
    ∀ a ∈ t.history, a.Judged := by
  induction h with
  | @failed x f result => exact x.runs.history hx
  | @ended x e result done => exact x.runs.history hx
  | @refused x e followUp result asks missing => exact x.runs.history hx
  | @followed x y e followUp stints r t result asks opening task start later ih =>
    apply ih
    rw [start]
    exact x.runs.history hx

/-- The outcome of a call is that of its last stint. -/
theorem Works.last (h : Works x stints r t) {o : Outcome} (ho : r = .ok o) :
    ∃ y e, stints.getLast? = some y ∧ y.result = .ok e ∧ e.outcome = o ∧ y.finish = t := by
  induction h with
  | failed => cases ho
  | @ended x e result done =>
    cases ho
    exact ⟨x, e, rfl, result, rfl, rfl⟩
  | refused => cases ho
  | @followed x y e followUp stints r t result asks opening task start later ih =>
    obtain ⟨z, e', hz, hresult, houtcome, hfinish⟩ := ih ho
    refine ⟨z, e', ?_, hresult, houtcome, hfinish⟩
    rw [List.getLast?_cons, hz, Option.getD_some]

/-- All stints of a call but the first one are continuations that an ending has asked for. -/
theorem Works.openings (h : Works x stints r t) :
    ∀ y ∈ stints, y = x ∨ y.opening = .followUp := by
  induction h with
  | @followed x z e followUp stints r t result asks opening task start later ih =>
    intro y hy
    rcases List.mem_cons.mp hy with rfl | hy
    · exact Or.inl rfl
    · rcases ih y hy with rfl | hy
      · exact Or.inr opening
      · exact Or.inr hy
  | _ =>
    intro y hy
    exact Or.inl (List.mem_singleton.mp hy)

theorem Story.history (h : Story s stints r t) : ∀ a ∈ t.history, a.Judged := by
  induction h with
  | run opening task start works =>
    apply works.history
    rw [start]
    exact fun a ha => (List.not_mem_nil ha).elim
  | refused before world decider missing ih => exact ih
  | extend before world decider opening task start works ih =>
    apply works.history
    rw [start]
    exact ih

theorem Story.last (h : Story s stints r t) {o : Outcome} (ho : r = .ok o) :
    ∃ y e, stints.getLast? = some y ∧ y.result = .ok e ∧ e.outcome = o ∧ y.finish = t := by
  cases h with
  | run opening task start works => exact works.last ho
  | refused => cases ho
  | extend before world decider opening task start works =>
    obtain ⟨y, e, hy, hlast⟩ := works.last ho
    refine ⟨y, e, ?_, hlast⟩
    rw [List.getLast?_append, hy, Option.some_or]

/-- The stint of a call of `run` continues nothing. -/
theorem Story.existing? (h : Story s stints r t) :
    ∀ y ∈ stints, y.opening = .run → y.task.existing? = none := by
  induction h with
  | run opening task start works =>
    intro y hy hopening
    rcases works.openings y hy with rfl | hy
    · rw [task]
      rfl
    · rw [hy] at hopening
      cases hopening
  | refused before world decider missing ih => exact ih
  | extend before world decider opening task start works ih =>
    intro y hy hopening
    rcases List.mem_append.mp hy with hy | hy
    · exact ih y hy hopening
    · rcases works.openings y hy with rfl | hy
      · rw [opening] at hopening
        cases hopening
      · rw [hy] at hopening
        cases hopening

end

/-- What is known of a trial whose document may be accepted. -/
structure Trial.Verified {x : Lap} (T : Trial x) : Prop where
  document : T.attempt.document = T.document
  report : T.attempt.report = some T.report
  verification : T.attempt.verification = some T.verification
  success : T.verification.success = true
  verdict : T.verification.verdict = .verified ∨ T.verification.verdict = .assumed
  /-- A success is assumed exactly if the model, asked for the judgement, gave no answer. -/
  assumed : T.verification.verdict = .assumed ↔ ∃ f, T.answer = .error f
  marked : T.verification.assumed = true ↔ ∃ f, T.answer = .error f
  /-- What asked for data has returned some. -/
  data : Intent.isExtraction {} T.attempt.intent = true → Extraction.isEmpty T.report = false

theorem Trial.verified {x : Lap} (T : Trial x) (h : T.verification.success = true) :
    T.Verified := by
  have hattempt := T.concludes_attempt
  obtain ⟨hlacks, hverdict, hassumed, hmarked⟩ := T.verdict h
  refine ⟨hattempt.document, hattempt.report, hattempt.verification, h, hverdict, hassumed, hmarked,
    fun hextraction => ?_⟩
  rw [hattempt.intent] at hextraction
  unfold lacksData at hlacks
  rw [hextraction, Bool.true_and] at hlacks
  exact hlacks

/-- What a call returns as accepted has been verified: its last attempt is that of the last round of
the last stint, and the trial of that round is `Verified`. The document of the outcome is the one
that was run there, behind the one that it continues if it is a continuation. Every attempt was
judged, whether it is still in the history or not. -/
theorem accepted_verified {r : Except Failure Outcome} (h : Calls s r t) :
    (∀ a ∈ t.history, a.Judged) ∧
    ∃ stints, Story s stints r t ∧
      (∀ x ∈ stints, ∀ lap ∈ x.laps, ∀ T : Trial lap, T.attempt.Judged) ∧
      ∀ o, r = .ok o → o.attempts = t.history ∧
        (o.state = .accept →
          ∃ x lap, stints.getLast? = some x ∧ x.laps.getLast? = some lap ∧
            ∃ T : Trial lap, T.Verified ∧ o.attempts.getLast? = some T.attempt ∧
              o.verification = some T.verification ∧
              (∃ document, lap.task.whole T.document = .ok document ∧
                o.document = some document) ∧
              (x.opening = .run → o.document = some T.document)) := by
  obtain ⟨stints, hstory⟩ := h.story
  refine ⟨hstory.history, stints, hstory, fun _ _ _ _ T => T.judged, fun o ho => ?_⟩
  obtain ⟨x, e, hx, hresult, rfl, rfl⟩ := hstory.last ho
  obtain ⟨lap, hlap, hended, hfinish, hexisting⟩ := x.runs.last hresult
  obtain ⟨T, hattempts, hlast, haccept⟩ := Lap.ended hended
  refine ⟨hattempts.trans (congrArg Session.history hfinish), fun hstate => ?_⟩
  obtain ⟨hsuccess, hverification, document, hwhole, hdocument⟩ := haccept hstate
  refine ⟨x, lap, hx, hlap, T, T.verified hsuccess, hlast, hverification,
    ⟨document, hwhole, hdocument⟩, fun hopening => ?_⟩
  have hnone := hstory.existing? x (List.mem_of_getLast? hx) hopening
  rw [← hexisting] at hnone
  rw [hdocument]
  -- nothing stands before the document of a round on an instruction
  cases htask : lap.task with
  | fresh number intent repeated =>
    rw [htask] at hwhole
    cases hwhole
    rfl
  | further existing followUp history =>
    rw [htask] at hnone
    cases hnone

/-- The last attempt of an acceptance was a success. -/
theorem accepted_verified_brief :
    ∃ o t, (Session.run "look").run brief = (.ok o, t) ∧ o.state = .accept ∧
      ∃ a v, o.attempts.getLast? = some a ∧ a.verification = some v ∧ v.success = true := by
  have hreturns : (((Session.run "look").run brief).1.map (·.state)).toOption = some .accept := by
    decide +kernel
  generalize hrun : (Session.run "look").run brief = p at hreturns ⊢
  obtain ⟨r, t⟩ := p
  cases r with
  | error f => cases hreturns
  | ok o =>
    have hstate : o.state = .accept := Option.some.inj hreturns
    obtain ⟨-, stints, -, -, hreturned⟩ := accepted_verified (.run hrun)
    obtain ⟨x, lap, -, -, T, hverified, hlast, -⟩ := (hreturned o rfl).2 hstate
    exact ⟨o, t, rfl, hstate, T.attempt, T.verification, hlast, hverified.verification,
      hverified.success⟩

end Session

end BrowserFlow
