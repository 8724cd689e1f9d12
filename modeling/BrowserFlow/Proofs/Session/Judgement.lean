import BrowserFlow.Proofs.Session.Acceptance
import BrowserFlow.Proofs.Session.Call

/-!
# What becomes of the answer on a round

A round whose document was run, and which does not lack data, puts a question to the model
(`Questioned`). It is judged whatever comes back, or if nothing does, unless what comes back is an
answer that no judgement can be read from. After such an answer the round fails in the phase of
verification, and its call with it.
-/

namespace BrowserFlow.Session

open Effect

variable {s t : Session}

/-- A round that asks the model for a judgement: the document that was run and the report on it,
with the session behind each part. -/
structure Questioned (x : Lap) where
  document : String
  obtained : Session
  report : Report
  executed : Session
  obtains : x.task.obtain.run x.start = (.ok document, obtained)
  executes : (Session.executed x.task.instruction document).run obtained = (.ok report, executed)
  asks : lacksData x.task.instruction report = false

namespace Questioned

variable {x : Lap}

/-- What the model replies. -/
def reply (Q : Questioned x) : Except Fault String :=
  Q.executed.answerTo (Q.executed.question x.task.instruction Q.document Q.report)

/-- What the session makes of the reply. -/
def judgement (Q : Questioned x) : Except Failure Verification :=
  ((judge x.task.instruction Q.document Q.report).run Q.executed).1

theorem judgement_eq (Q : Questioned x) :
    Q.judgement = (judgementOf Q.reply).mapError Failure.fault :=
  judge_result Q.executed x.task.instruction Q.document Q.report

/-- A judgement is there unless the reply is an answer that cannot be read. -/
theorem judged_iff (Q : Questioned x) :
    (∃ v, Q.judgement = .ok v) ↔
      ∀ answer, Q.reply = .ok answer → ¬ Verification.Unreadable answer := by
  rw [judgement_eq]
  cases Q.reply with
  | error f =>
    refine iff_of_true ⟨_, rfl⟩ fun answer h => ?_
    cases h
  | ok answer =>
    have hread : (∀ other, (Except.ok answer : Except Fault String) = .ok other →
        ¬ Verification.Unreadable other) ↔ ∃ v, Verification.ofAnswer answer = .ok v := by
      rw [Verification.ofAnswer_ok_iff]
      constructor
      · exact fun h => h answer rfl
      · rintro h _ ⟨⟩
        exact h
    have hjudgement : judgementOf (.ok answer) = Verification.ofAnswer answer := rfl
    rw [hread, hjudgement]
    cases Verification.ofAnswer answer with
    | ok v => exact iff_of_true ⟨v, rfl⟩ ⟨v, rfl⟩
    | error f =>
      refine iff_of_false ?_ ?_
      · rintro ⟨v, h⟩
        cases h
      · rintro ⟨v, h⟩
        cases h

/-- A round without a judgement fails in the phase of verification. -/
theorem fails (Q : Questioned x) {answer : String} (hreply : Q.reply = .ok answer)
    (h : Verification.Unreadable answer) :
    (∃ f, x.result = .error (.fault f)) ∧ x.finish.phase? = some .verify := by
  have hnot : ¬ ∃ v, Q.judgement = .ok v := fun hjudged => Q.judged_iff.1 hjudged answer hreply h
  obtain ⟨f, hfault⟩ : ∃ f, Q.judgement = .error (.fault f) := by
    rw [judgement_eq] at hnot ⊢
    cases hjudgement : judgementOf Q.reply with
    | ok v =>
      rw [hjudgement] at hnot
      exact absurd ⟨v, rfl⟩ hnot
    | error f => exact ⟨f, rfl⟩
  -- the failure of the judgement passes through the parts of the round around it
  generalize hjudge : (judge x.task.instruction Q.document Q.report).run Q.executed = p
  obtain ⟨q, u⟩ := p
  have hq : q = .error (.fault f) := by
    rw [← hfault]
    exact (congrArg Prod.fst hjudge).symm
  subst hq
  have hconcluded : (concluded
      { intent := x.task.instruction, document := Q.document, report := some Q.report }
      Q.report).run Q.executed = (.error (.fault f), u) := by
    refine run_bind_error ?_
    unfold judged
    rw [Q.asks, if_neg Bool.false_ne_true]
    exact run_bind_error hjudge
  have hround : (x.task.round x.isLast).run x.start = (.error (.fault f), u) := by
    rw [round_eq, run_bind_ok Q.obtains, run_bind_ok Q.executes]
    exact run_bind_error hconcluded
  obtain ⟨hresult, rfl⟩ := Prod.mk.inj (x.run_eq.symm.trans hround)
  refine ⟨⟨f, hresult⟩, ?_⟩
  obtain ⟨asked, judged, -, -, hledger⟩ := concluded_asked Q.obtains Q.executes hconcluded
  have hphases : x.finish.phases = x.start.phases ++ (x.task.opening ++ [.execute, .verify]) :=
    congrArg Ledger.phases hledger
  unfold phase?
  rw [hphases, ← List.append_assoc, List.getLast?_append]
  rfl

end Questioned

/-- A trial that does not lack data has asked for its judgement. -/
def Trial.questioned {x : Lap} (T : Trial x)
    (asks : lacksData x.task.instruction T.report = false) : Questioned x :=
  ⟨T.document, T.obtained, T.report, T.executed, T.obtains, T.executes, asks⟩

/-- What becomes of the answers of the model. A judgement is read from any answer that is not
`Unreadable`, and it is `Proper`. In a call of a session every round that asks for a judgement has
one, unless the reply is such an answer; then the call fails in the phase of verification. -/
theorem judged_iff_readable (answer : String) {c : Call} {r : Except Failure Outcome}
    (h : c.act.run s = (r, t)) :
    ((∃ v, Verification.ofAnswer answer = .ok v) ↔ ¬ Verification.Unreadable answer) ∧
    (∀ v, Verification.ofAnswer answer = .ok v → v.Proper) ∧
    ∃ stints, Served s c stints r t ∧
      ∀ y ∈ stints, ∀ x ∈ y.laps, ∀ Q : Questioned x,
        ((∃ v, Q.judgement = .ok v) ↔
          ∀ reply, Q.reply = .ok reply → ¬ Verification.Unreadable reply) ∧
        ∀ reply, Q.reply = .ok reply → Verification.Unreadable reply →
          (∃ f, r = .error (.fault f)) ∧ t.phase? = some .verify := by
  refine ⟨Verification.ofAnswer_ok_iff answer, fun v => Verification.ofAnswer_proper, ?_⟩
  obtain ⟨stints, hserved⟩ := c.served h
  refine ⟨stints, hserved, fun y hy x hx Q => ⟨Q.judged_iff, fun reply hreply hunreadable => ?_⟩⟩
  obtain ⟨⟨f, hf⟩, hphase⟩ := Q.fails hreply hunreadable
  obtain ⟨hresult, hfinish⟩ := hserved.failed_of_mem hy hx hf
  rw [hfinish]
  exact ⟨⟨f, hresult⟩, hphase⟩

/-- A word that is taken for a success can be read, and the only round on it is judged. -/
theorem judged_iff_readable_brief :
    ¬ Verification.Unreadable "success" ∧
    ∃ r t, (Session.run "look").run brief = (r, t) ∧
      ∃ stints, Served brief (.run "look") stints r t ∧
        ∃ y ∈ stints, ∃ x ∈ y.laps, ∃ Q : Questioned x, (∃ v, Q.judgement = .ok v) ∧
          ∀ reply, Q.reply = .ok reply → ¬ Verification.Unreadable reply := by
  have hreturns : (((Session.run "look").run brief).1.map (·.state)).toOption = some .accept := by
    decide +kernel
  generalize hrun : (Session.run "look").run brief = p at hreturns
  obtain ⟨r, t⟩ := p
  obtain ⟨hword, -, stints, hserved, hrounds⟩ :=
    judged_iff_readable "success" (c := .run "look") hrun
  have hreads : ∃ v, Verification.ofAnswer "success" = .ok v := by
    have hok : (Verification.ofAnswer "success").isOk = true := by decide +kernel
    cases hanswer : Verification.ofAnswer "success" with
    | ok v => exact ⟨v, rfl⟩
    | error f =>
      rw [hanswer] at hok
      cases hok
  refine ⟨hword.1 hreads, r, t, rfl, stints, hserved, ?_⟩
  cases r with
  | error f => cases hreturns
  | ok o =>
    have hstate : o.state = .accept := Option.some.inj hreturns
    obtain ⟨y, e, hy, hended, rfl, -⟩ : ∃ y e, stints.getLast? = some y ∧ y.result = .ok e ∧
        e.outcome = o ∧ y.finish = t := by
      cases hserved with
      | run opening task start works => exact works.last rfl
    obtain ⟨x, hx, hresult, -, -⟩ := y.runs.last hended
    obtain ⟨T, -, -, haccept⟩ := Lap.ended hresult
    have hlacks := (T.verdict (haccept hstate).1).1
    have hjudged : ∃ v, (T.questioned hlacks).judgement = .ok v := by
      refine ⟨T.verification, ?_⟩
      rw [Questioned.judgement_eq]
      exact congrArg (Except.mapError Failure.fault) (T.concludes_attempt.judged hlacks)
    have hyStints := List.mem_of_getLast? hy
    have hxLaps := List.mem_of_getLast? hx
    exact ⟨y, hyStints, x, hxLaps, T.questioned hlacks, hjudged,
      (hrounds y hyStints x hxLaps (T.questioned hlacks)).1.1 hjudged⟩

/-- An answer whose suggestions are a number is not read. -/
theorem not_readable_number : ¬ ∀ answer, ∃ v, Verification.ofAnswer answer = .ok v := by
  intro h
  have hfails :
      (Verification.ofAnswer "\x7b\"success\": false, \"suggestions\": 5\x7d").isOk = false := by
    decide +kernel
  obtain ⟨v, hv⟩ := h "\x7b\"success\": false, \"suggestions\": 5\x7d"
  rw [hv] at hfails
  cases hfails

end BrowserFlow.Session
