import BrowserFlow.Proofs.Decider
import BrowserFlow.Proofs.World.Talk
import BrowserFlow.Session.Run

/-!
# The account of a session

A session keeps account of its phases, of the attempts, of what was accepted, and of its talk with
the model and with whoever decides. Most of what it does leaves this account as it is. What
changes it is said here once for each part of a round: `obtain_asked` and `obtainSteps_asked` for
the document, `executed_ledger` for the run, `concluded_cases` for the judgement, `consult_run` for
the decision, and `settle_cases` and `abandon_run` for the end.
-/

namespace BrowserFlow.Session

open Effect Planner

/-- What a session keeps account of. -/
structure Ledger where
  settings : Settings
  registry : Registry
  decider : Decider
  /-- The lines that are still to be typed. -/
  inputs : List String
  /-- The requests to the model so far. -/
  requests : List ModelRequest
  phases : List Phase
  history : List Attempt
  intent : Option String
  accepted : Option Outcome

def ledger (s : Session) : Ledger :=
  { settings := s.settings, registry := s.registry, decider := s.decider
    inputs := s.world.inputs, requests := s.world.requests, phases := s.phases
    history := s.history, intent := s.intent, accepted := s.accepted }

namespace Ledger

/-- The account after some more phases. -/
def going (l : Ledger) (ps : List Phase) : Ledger :=
  { l with phases := l.phases ++ ps }

/-- The account after some more requests. -/
def asking (l : Ledger) (asked : List ModelRequest) : Ledger :=
  { l with requests := l.requests ++ asked }

/-- The account after a decision. -/
def deciding (l : Ledger) (ruled : Ruling × Decider) : Ledger :=
  { l with decider := ruled.2, inputs := ruled.1.inputs }

/-- The account after a document was accepted. -/
def accepting (l : Ledger) (o : Outcome) : Ledger :=
  { l with accepted := some o }

/-- The account with one more attempt. -/
def recording (l : Ledger) (a : Attempt) : Ledger :=
  { l with history := l.history ++ [a] }

/-- The account with another history and another instruction. -/
def turning (l : Ledger) (history : List Attempt) (intent : Option String) : Ledger :=
  { l with history, intent }

theorem going_nil (l : Ledger) : l.going [] = l := by
  unfold going
  rw [List.append_nil]

theorem going_going (l : Ledger) (ps qs : List Phase) :
    (l.going ps).going qs = l.going (ps ++ qs) := by
  unfold going
  rw [List.append_assoc]

theorem asking_going (l : Ledger) (asked : List ModelRequest) (ps : List Phase) :
    (l.asking asked).going ps = (l.going ps).asking asked := rfl

theorem asking_asking (l : Ledger) (asked judged : List ModelRequest) :
    (l.asking asked).asking judged = l.asking (asked ++ judged) := by
  unfold asking
  rw [List.append_assoc]

end Ledger

variable {α : Type} {s t : Session}

/-! ## What leaves the account as it is -/

theorem ledger_world {w : World} (h : w.talk = s.world.talk) :
    ({ s with world := w } : Session).ledger = s.ledger := by
  obtain ⟨hinputs, hrequests⟩ := Prod.mk.inj h
  unfold ledger
  rw [hinputs, hrequests]

theorem keeps_inWorld {x : Effect Failure World α} (hx : Keeps World.talk x) :
    Keeps ledger (inWorld x) :=
  fun s => ledger_world (hx s.world)

theorem keeps_byWorld {x : Effect Fault World α} (hx : Keeps World.talk x) :
    Keeps ledger (byWorld x) :=
  keeps_inWorld (keeps_mapError hx)

theorem keeps_say (line : String) : Keeps ledger (say line) :=
  keeps_inWorld (World.keeps_talk (World.quiet_print line))

theorem keeps_look : Keeps ledger look := by
  refine keeps_get_bind fun s => ?_
  refine keeps_bind (keeps_inWorld (World.keeps_talk
    (leads_attempt (Perception.quiet_look _ _ _)))) fun seen => ?_
  cases seen with
  | ok found => exact keeps_bind (keeps_modify fun _ => rfl) fun _ => keeps_pure _
  | error f => exact keeps_pure _

theorem keeps_enriched (a : Attempt) (r : Report) : Keeps ledger (enriched a r) := by
  refine keeps_bind keeps_look fun seen => ?_
  cases seen with
  | error f =>
    exact keeps_bind (keeps_inWorld (World.keeps_talk (World.quiet_warn _))) fun _ => keeps_pure _
  | ok digest =>
    exact keeps_bind (keeps_byWorld (World.keeps_talk (Ranking.quiet_suggest _ _ _ _ _)))
      fun _ => keeps_pure _

theorem keeps_journaled (a : Attempt) (r : Report) : Keeps ledger (journaled a r) :=
  keeps_get_bind fun _ => keeps_bind (keeps_byWorld (World.keeps_talk
    (Journal.quiet_create (Disk.Bounds.covers_all _) _ _ _ _ _))) fun _ =>
    keeps_pure _

theorem keeps_saveAs (intent document : String) (name : Option String) :
    Keeps ledger (saveAs intent document name) :=
  keeps_get_bind fun _ => keeps_bind (keeps_byWorld (World.keeps_talk
    (Library.quiet_save (Disk.Bounds.covers_all _) _))) fun _ =>
    keeps_bind (keeps_say _) fun _ => keeps_pure _

theorem keeps_runDocument (intent document : String) :
    Keeps ledger (runDocument intent document) := by
  refine keeps_get_bind fun s => ?_
  refine keeps_bind (keeps_inWorld (World.keeps_talk (quiet_read _ _))) fun actions => ?_
  intro u
  rw [run_bind_ok (run_get u)]
  exact ledger_world (Execution.talk_run _ _ _ _ _)

/-! ## Requests to the model -/

/-- Nothing has changed in the account but that the model may have been asked, once. -/
def Asked (prompt : String) (s t : Session) : Prop :=
  ∃ asked, AtMostOnce prompt asked ∧ t.ledger = s.ledger.asking asked

theorem Asked.of_ledger (prompt : String) (h : t.ledger = s.ledger) : Asked prompt s t := by
  refine ⟨[], atMostOnce_nil prompt, ?_⟩
  unfold Ledger.asking
  rw [List.append_nil, h]

/-- What asks the model once in the world. -/
theorem asked_inWorld {prompt : String} {x : Effect Failure World α} (hx : AsksOnce prompt x)
    (s : Session) : Asked prompt s ((inWorld x).run s).2 := by
  obtain ⟨asked, honce, htalk⟩ := hx s.world
  obtain ⟨hinputs, hrequests⟩ := Prod.mk.inj htalk
  refine ⟨asked, honce, ?_⟩
  show ledger { s with world := (x.run s.world).2 } = _
  unfold ledger Ledger.asking
  dsimp only
  rw [hinputs, hrequests]

/-- What follows on that and leaves the account as it is. -/
theorem asked_inWorld_bind {β : Type} {prompt : String} {x : Effect Failure World α}
    (hx : AsksOnce prompt x) {f : α → Act β} (hf : ∀ a, Keeps ledger (f a)) {r : Except Failure β}
    (h : (inWorld x >>= f).run s = (r, t)) : Asked prompt s t := by
  obtain ⟨asked, honce, hledger⟩ := asked_inWorld hx s
  refine ⟨asked, honce, ?_⟩
  rw [← hledger]
  rcases bind_cases h with ⟨e, he, -⟩ | ⟨a, u, hu, ht⟩
  · rw [he]
  · rw [hu]
    exact (hf a).of_run ht

/-- The model is asked for a document, unless one is to be run again. -/
theorem obtain_asked {intent : String} {r : Except Failure String}
    (h : (obtain intent none).run s = (r, t)) :
    ∃ asked, AtMostOnce (Prompt.generation intent s.history (viewAfter s.history).page
        (viewAfter s.history).candidates) asked ∧
      t.ledger = (s.ledger.going [.generate]).asking asked := by
  unfold obtain at h
  rw [enter, run_bind_ok (run_modify _ s), run_bind_ok (run_get _)] at h
  exact asked_inWorld_bind (asksOnce_generate _ _)
    (fun _ => keeps_bind (keeps_say _) fun _ => keeps_pure _) h

/-- What the model is told of what it is to continue. -/
def continuationOf (s : Session) (existing followUp : String) : Prompt.Continuation :=
  { intent := s.intent.getD ""
    document := existing
    url := s.world.page.url
    title := s.world.page.title
    followUp }

/-- The model is asked for new steps. -/
theorem obtainSteps_asked {existing followUp : String} {history : List Attempt}
    {r : Except Failure String} (h : (obtainSteps existing followUp history).run s = (r, t)) :
    ∃ asked, AtMostOnce (Prompt.continuation (s.continuationOf existing followUp) history
        (viewAfter history).page (viewAfter history).candidates) asked ∧
      t.ledger = (s.ledger.going [.generate]).asking asked := by
  unfold obtainSteps at h
  rw [enter, run_bind_ok (run_modify _ s), run_bind_ok (run_get _)] at h
  exact asked_inWorld_bind (asksOnce_generate _ _)
    (fun _ => keeps_bind (keeps_say _) fun _ => keeps_pure _) h

/-! ## The run of a document -/

/-- The phases of the run of a document, as far as it comes. -/
def executionPhases {ε : Type} (r : Except ε α) : List Phase :=
  match r with
  | .ok _ => [.execute, .verify]
  | .error _ => [.execute]

theorem executed_ledger {intent document : String} {r : Except Failure Report}
    (h : (executed intent document).run s = (r, t)) :
    t.ledger = s.ledger.going (executionPhases r) := by
  unfold executed at h
  rw [enter, run_bind_ok (run_modify _ s)] at h
  rcases bind_cases h with ⟨e, he, rfl⟩ | ⟨report, u, hu, ht⟩
  · exact (keeps_runDocument intent document).of_run he
  · rw [enter, run_bind_ok (run_modify _ u)] at ht
    cases ht
    have hkeep := (keeps_runDocument intent document).of_run hu
    show u.ledger.going [.verify] = _
    rw [hkeep]
    exact Ledger.going_going s.ledger [.execute] [.verify]

/-! ## The judgement -/

/-- What the model answers to a prompt, if it is asked. -/
def answerTo (s : Session) (prompt : String) : Except Fault String :=
  ((s.planner.ask prompt).run s.world).1

/-- The judgement of an answer; where there is none a success is assumed. -/
def judgementOf : Except Fault String → Except Fault Verification
  | .ok answer => Verification.ofAnswer answer
  | .error f => .ok (assumedVerdict ("校验调用失败: " ++ f.message))

/-- The judgement on a document is that of the answer of the model. -/
theorem judge_result (s : Session) (intent document : String) (r : Report) :
    ((judge intent document r).run s).1 =
      (judgementOf (s.answerTo (s.question intent document r))).mapError Failure.fault := by
  have hanswered : ∀ {prompt answer : String}, s.answerTo prompt = .ok answer →
      ((s.planner.judge prompt).run s.world).1 =
        (Verification.ofAnswer answer).mapError Failure.fault := by
    intro prompt answer h
    unfold answerTo at h
    unfold Planner.judge
    rw [run_bind, run_mapError, h]
    rfl
  have hunanswered : ∀ {prompt : String} {f : Fault}, s.answerTo prompt = .error f →
      ((s.planner.judge prompt).run s.world).1 =
        .error (.verification ("校验调用失败: " ++ f.message) none) := by
    intro prompt f h
    unfold answerTo at h
    unfold Planner.judge
    rw [run_bind, run_mapError, h]
    rfl
  have hrun : (inWorld (Effect.attempt
      (s.planner.judge (s.question intent document r))) : Act _).run s =
        (.ok ((s.planner.judge (s.question intent document r)).run s.world).1,
          { s with
            world := ((s.planner.judge (s.question intent document r)).run s.world).2 }) := rfl
  unfold judge
  rw [run_bind_ok (run_get s), run_bind_ok hrun]
  cases hanswer : s.answerTo (s.question intent document r) with
  | error f =>
    rw [hunanswered hanswer]
    rfl
  | ok answer =>
    have hjudgement : judgementOf (.ok answer) = Verification.ofAnswer answer := rfl
    rw [hanswered hanswer, hjudgement]
    -- an answer that cannot be read is a fault, and no success is assumed then
    cases Verification.ofAnswer answer with
    | ok v => rfl
    | error f => rfl

theorem judge_asked {intent document : String} {report : Report} {r : Except Failure Verification}
    (h : (judge intent document report).run s = (r, t)) :
    Asked (s.question intent document report) s t := by
  unfold judge at h
  rw [run_bind_ok (run_get s)] at h
  refine asked_inWorld_bind (asksOnce_judge _ _).attempt (fun answer => ?_) h
  cases answer with
  | ok v => exact keeps_pure _
  | error f =>
    cases f with
    | verification reason raw =>
      exact keeps_bind (keeps_inWorld (World.keeps_talk (World.quiet_warn _))) fun _ => keeps_pure _
    | _ => exact keeps_throw _

/-- What is known of an attempt that was judged. -/
structure Concludes (s : Session) (a : Attempt) (r : Report) (b : Attempt) (v : Verification) :
    Prop where
  intent : b.intent = a.intent
  document : b.document = a.document
  report : b.report = a.report
  verification : b.verification = some v
  /-- An attempt that lacks data has failed. -/
  lacking : lacksData a.intent r = true → v.success = false ∧ v.verdict = .emptyExtraction
  /-- Any other is judged by the model. -/
  judged : lacksData a.intent r = false →
    judgementOf (s.answerTo (s.question a.intent a.document r)) = .ok v

theorem judged_asked {a : Attempt} {report : Report} {r : Except Failure Attempt}
    (h : (judged a report).run s = (r, t)) : Asked (s.question a.intent a.document report) s t := by
  unfold judged at h
  by_cases hlacks : lacksData a.intent report
  · rw [if_pos hlacks] at h
    refine Asked.of_ledger _ (Keeps.of_run ?_ h)
    exact keeps_bind (keeps_say _) fun _ => keeps_bind (keeps_enriched a report) fun _ =>
      keeps_pure _
  · rw [if_neg hlacks] at h
    rcases bind_cases h with ⟨e, he, -⟩ | ⟨v, u, hu, ht⟩
    · exact judge_asked he
    · cases ht
      exact judge_asked hu

/-- What can be learnt from the page changes neither the instruction nor the document. -/
theorem enriched_ok {a b : Attempt} {report : Report}
    (h : (enriched a report).run s = (.ok b, t)) :
    b.intent = a.intent ∧ b.document = a.document ∧ b.report = a.report := by
  unfold enriched at h
  obtain ⟨seen, u, -, hu⟩ := bind_ok h
  cases seen with
  | error f =>
    obtain ⟨_, _, -, hb⟩ := bind_ok hu
    cases hb
    exact ⟨rfl, rfl, rfl⟩
  | ok digest =>
    obtain ⟨_, _, -, hb⟩ := bind_ok hu
    cases hb
    exact ⟨rfl, rfl, rfl⟩

theorem judged_ok {a b : Attempt} {report : Report} (h : (judged a report).run s = (.ok b, t)) :
    ∃ v, Concludes s a report b v := by
  unfold judged at h
  by_cases hlacks : lacksData a.intent report
  · rw [if_pos hlacks] at h
    obtain ⟨_, _, -, h⟩ := bind_ok h
    obtain ⟨c, _, hc, h⟩ := bind_ok h
    cases h
    obtain ⟨hintent, hdocument, hreport⟩ := enriched_ok hc
    refine ⟨emptyVerdict c.analysis, hintent, hdocument, hreport, rfl, fun _ => ⟨rfl, rfl⟩, ?_⟩
    intro hfalse
    rw [hfalse] at hlacks
    cases hlacks
  · rw [if_neg hlacks] at h
    obtain ⟨v, u, hv, h⟩ := bind_ok h
    cases h
    refine ⟨v, rfl, rfl, rfl, rfl, fun htrue => absurd htrue hlacks, fun _ => ?_⟩
    have hresult := judge_result s a.intent a.document report
    rw [hv] at hresult
    cases hjudged : judgementOf (s.answerTo (s.question a.intent a.document report)) with
    | ok v' =>
      rw [hjudged] at hresult
      cases hresult
      rfl
    | error f =>
      rw [hjudged] at hresult
      cases hresult

/-- A judgement takes one request at most, and says of an attempt what `Concludes` says. -/
theorem concluded_cases {a : Attempt} {report : Report}
    {r : Except Failure (Attempt × Verification)} (h : (concluded a report).run s = (r, t)) :
    Asked (s.question a.intent a.document report) s t ∧
      ∀ b v, r = .ok (b, v) → Concludes s a report b v := by
  unfold concluded at h
  rcases bind_cases h with ⟨e, he, rfl⟩ | ⟨b, u, hb, h⟩
  · exact ⟨judged_asked he, fun b v hr => by cases hr⟩
  · obtain ⟨v, hv⟩ := judged_ok hb
    -- what is said of the judgement and written into the journal
    have hkeep : Keeps ledger (do
        let v := b.verification.getD (emptyVerdict none)
        say (verdictLine v)
        return (← journaled b report, v) : Act (Attempt × Verification)) :=
      keeps_bind (keeps_say _) fun _ => keeps_bind (keeps_journaled b report) fun _ => keeps_pure _
    constructor
    · obtain ⟨asked, honce, hledger⟩ := judged_asked hb
      exact ⟨asked, honce, (hkeep.of_run h).trans hledger⟩
    · rintro c w rfl
      rw [hv.verification, Option.getD_some] at h
      obtain ⟨_, _, -, h⟩ := bind_ok h
      obtain ⟨d, _, hd, h⟩ := bind_ok h
      cases h
      unfold journaled at hd
      obtain ⟨_, _, -, hd⟩ := bind_ok hd
      obtain ⟨_, _, -, hd⟩ := bind_ok hd
      cases hd
      exact ⟨hv.intent, hv.document, hv.report, hv.verification, hv.lacking, hv.judged⟩

/-! ## The decision and the end -/

theorem consult_run (ask : List String → Decider → Ruling × Decider) (s : Session) :
    ((consult ask).run s).1 =
        (ask s.world.inputs s.decider).1.decision.mapError Failure.fault ∧
      ((consult ask).run s).2.ledger = s.ledger.deciding (ask s.world.inputs s.decider) :=
  ⟨rfl, rfl⟩

/-- The outcome of giving up after some attempts. -/
def abandonedOutcome (history : List Attempt) (reason : String) : Outcome :=
  { state := .abandon
    document := none
    attempts := history
    verification := history.getLast?.bind (·.verification)
    reason }

theorem abandon_run (reason : String) (s : Session) :
    ((abandon reason).run s).1 = .ok { outcome := abandonedOutcome s.history reason } ∧
      ((abandon reason).run s).2.ledger = s.ledger.going [.abandon] :=
  ⟨rfl, rfl⟩

/-- The outcome of accepting a document after some attempts. -/
def acceptedOutcome (history : List Attempt) (document : String) (v : Verification)
    (saved : Option Workflow) : Outcome :=
  { state := .accept
    document := some document
    attempts := history
    verification := some v
    reason := v.reason
    saved }

/-- Takes a document for the accepted one, saved or not. -/
def accepting (document : String) (v : Verification) (d : Decision) (saved : Option Workflow) :
    Act Ending := do
  let outcome := acceptedOutcome (← get).history document v saved
  modify fun s => { s with accepted := some outcome }
  say "\n✓✓✓ 工作流已接受 ✓✓✓"
  return { outcome, followUp := if d.kind = .extend then given? d.text else none }

/-- Before a document is accepted it is saved, if that was decided. -/
theorem settle_eq (intent document : String) (v : Verification) (d : Decision) :
    settle intent document v d =
      if d.kind = .save then some <$> saveAs intent document d.text >>= accepting document v d
      else accepting document v d none :=
  rfl

/-- A document is accepted, unless it is to be saved and cannot be. -/
theorem settle_cases {intent document : String} {v : Verification} {d : Decision}
    {r : Except Failure Ending} (h : (settle intent document v d).run s = (r, t)) :
    (∃ f, r = .error f ∧ d.kind = .save ∧
      ((saveAs intent document d.text).run s).1 = .error f ∧ t.ledger = s.ledger) ∨
    ∃ saved, r = .ok
        { outcome := acceptedOutcome s.history document v saved
          followUp := if d.kind = .extend then given? d.text else none } ∧
      t.ledger = s.ledger.accepting (acceptedOutcome s.history document v saved) := by
  -- what is done behind the saving, if there is any
  have hrest : ∀ (saved : Option Workflow) (u : Session), u.ledger = s.ledger →
      (accepting document v d saved).run u = (r, t) →
      r = .ok
          { outcome := acceptedOutcome s.history document v saved
            followUp := if d.kind = .extend then given? d.text else none } ∧
        t.ledger = s.ledger.accepting (acceptedOutcome s.history document v saved) := by
    intro saved u hledger hu
    have hhistory : u.history = s.history := congrArg Ledger.history hledger
    cases hu
    rw [← hledger, ← hhistory]
    exact ⟨rfl, rfl⟩
  rw [settle_eq] at h
  by_cases hsave : d.kind = .save
  · rw [if_pos hsave] at h
    rcases bind_cases h with ⟨f, hf, rfl⟩ | ⟨saved, u, hu, ht⟩
    · refine Or.inl ⟨f, rfl, hsave, ?_, (keeps_map (keeps_saveAs _ _ _)).of_run hf⟩
      rw [run_map] at hf
      cases hsaved : ((saveAs intent document d.text).run s).1 with
      | ok w =>
        rw [hsaved] at hf
        cases hf
      | error g =>
        rw [hsaved] at hf
        cases hf
        rfl
    · exact Or.inr ⟨saved, hrest saved u ((keeps_map (keeps_saveAs _ _ _)).of_run hu) ht⟩
  · rw [if_neg hsave] at h
    exact Or.inr ⟨none, hrest none s rfl h⟩

end BrowserFlow.Session
