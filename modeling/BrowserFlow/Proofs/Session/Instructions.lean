import BrowserFlow.Proofs.Session.Growth
import BrowserFlow.Proofs.Text.InOrder

/-!
# What a saved document is said to be for

An accepted document may come from several instructions: the one of `run`, with what was added to
it, and one for every continuation. A session keeps only one of them, that of `run` without what was
added, and a continuation is saved under this one and its own. So two things can be missing from
what a document is saved under: what was added, once the document is continued, and every
continuation but the last. `saved_under_iff` says exactly when nothing is.

The session changes the instruction that it keeps in one place only, and `Turns` says which. From
this it follows by the laps of a stint, the stints of a call and the calls of a chain that all
continuations find the instruction of the first stint.
-/

namespace BrowserFlow

open Effect

/-- What is saved of a draft says what the draft says. -/
theorem Library.save_ok {folder : String} {draft : Draft} {v : Workflow} {w w' : World}
    (h : (Library.save folder draft).run w = (.ok v, w')) :
    v.intent = draft.intent ∧ v.document = draft.document := by
  unfold Library.save at h
  obtain ⟨_, _, -, h⟩ := bind_ok h
  obtain ⟨now, _, -, h⟩ := bind_ok h
  obtain ⟨n, _, -, h⟩ := bind_ok h
  obtain ⟨saved, _, hdraft, h⟩ := bind_ok h
  obtain ⟨_, _, -, h⟩ := bind_ok h
  cases h
  rw [run_lift] at hdraft
  exact (Library.ofDraft_ok (congrArg Prod.fst hdraft)).2

namespace Session

variable {s t : Session}

/-! ## Saving -/

theorem saveAs_ok {intent document : String} {name : Option String} {v : Workflow}
    (h : (saveAs intent document name).run s = (.ok v, t)) :
    v.intent = .text intent ∧ v.document = .text document := by
  unfold saveAs at h
  obtain ⟨_, _, -, h⟩ := bind_ok h
  obtain ⟨saved, u, hsaved, h⟩ := bind_ok h
  obtain ⟨_, _, -, h⟩ := bind_ok h
  cases h
  have hresult := inWorld_ok hsaved
  rw [run_mapError] at hresult
  cases hsave : (Library.save _ _).run _ with
  | mk r w =>
    rw [hsave] at hresult
    cases r with
    | error f => cases hresult
    | ok saved =>
      cases hresult
      exact Library.save_ok hsave

/-- What is saved with an outcome is its document, and it is saved under a text. -/
def Ending.Saves (text : String) (e : Ending) : Prop :=
  ∀ w, e.outcome.saved = some w →
    w.intent = .text text ∧ e.outcome.document.map Value.text = some w.document

theorem settle_saves {intent document : String} {v : Verification} {d : Decision} {e : Ending}
    (h : (settle intent document v d).run s = (.ok e, t)) : e.Saves intent := by
  rw [settle_eq] at h
  by_cases hsave : d.kind = .save
  · rw [if_pos hsave] at h
    obtain ⟨saved, u, hsaved, h⟩ := bind_ok h
    obtain ⟨w, _, hw, hsome⟩ := bind_ok hsaved
    obtain ⟨hintent, hdocument⟩ := saveAs_ok hw
    cases hsome
    cases h
    rintro _ ⟨⟩
    exact ⟨hintent, congrArg some hdocument.symm⟩
  · rw [if_neg hsave] at h
    cases h
    rintro w ⟨⟩

/-! ## What leaves the instruction as it is -/

theorem intent_consult (ask : List String → Decider → Ruling × Decider) :
    Keeps Session.intent (consult ask) :=
  fun _ => rfl

theorem intent_settle (intent document : String) (v : Verification) (d : Decision) :
    Keeps Session.intent (settle intent document v d) := by
  intro s
  cases h : (settle intent document v d).run s with
  | mk r t =>
    rcases settle_cases h with ⟨f, -, -, -, hledger⟩ | ⟨saved, -, hledger⟩
    · exact congrArg Ledger.intent hledger
    · exact congrArg Ledger.intent hledger

theorem Trial.intent {x : Lap} (T : Trial x) : T.recorded.intent = x.start.intent := by
  obtain ⟨_, _, -, -, hledger⟩ := T.ledger
  exact congrArg Ledger.intent hledger

/-! ## What a round does -/

/-- An instruction with what was added to it, attempt after attempt. -/
inductive Refined (base : String) : String → Prop
  | base : Refined base base
  | more {intent : String} (text : Option String) (a : Attempt) (before : Refined base intent) :
      Refined base (refine intent text a)

/-- What a round saves its document under, in a session with some instruction. -/
def Task.savedAs (base : Option String) : Task → String
  | fresh _ intent _ => intent
  | further _ followUp _ => base.getD "None" ++ ". " ++ followUp

/-- What a round does to the instruction of the session, and what comes of it. -/
inductive Turns : Task → Option String → Except Failure Sequel → Option String → Prop
  | failed {task : Task} {base : Option String} (f : Failure) : Turns task base (.error f) base
  | ended {task : Task} {base : Option String} {e : Ending} (saves : e.Saves (task.savedAs base)) :
      Turns task base (.ok (.ended e)) base
  /-- Something may be added to what is worked on, and the session does not learn of that. -/
  | refined {number : Nat} {intent : String} {document : Option String} {base : Option String}
      (text : Option String) (a : Attempt) (document' : Option String) :
      Turns (.fresh number intent document) base
        (.ok (.again (.fresh (number + 1) (refine intent text a) document'))) base
  /-- Another instruction is one of the session. -/
  | replaced {number : Nat} {intent : String} {document : Option String} {base : Option String}
      (other : String) :
      Turns (.fresh number intent document) base
        (.ok (.again (.fresh (number + 1) other none))) (some other)
  | further {existing followUp : String} {history : List Attempt} {base : Option String}
      (followUp' : String) (history' : List Attempt) :
      Turns (.further existing followUp history) base
        (.ok (.again (.further existing followUp' history'))) base

variable {isLast : Bool} {a : Attempt} {v : Verification}

/-- A document that is settled is saved under what it is to be settled for. -/
theorem turns_settle {task : Task} {base : Option String} {intent document : String}
    {d : Decision} {r : Except Failure Ending} (h : (settle intent document v d).run s = (r, t))
    (hbase : s.intent = base) (hsaved : task.savedAs base = intent) :
    Turns task base (r.map Sequel.ended) t.intent := by
  rw [(intent_settle intent document v d).of_run h, hbase]
  cases r with
  | error f => exact .failed f
  | ok e =>
    refine .ended ?_
    rw [hsaved]
    exact settle_saves h

/-- Nothing is saved when a task is given up. -/
theorem turns_abandon {task : Task} {base : Option String} {reason : String}
    {r : Except Failure Ending} (h : (abandon reason).run s = (r, t)) (hbase : s.intent = base) :
    Turns task base (r.map Sequel.ended) t.intent := by
  obtain ⟨hresult, hledger⟩ := abandon_run reason s
  rw [h] at hresult hledger
  have hintent : t.intent = s.intent := congrArg Ledger.intent hledger
  rw [hintent, hbase, show r = _ from hresult]
  refine .ended ?_
  rintro w ⟨⟩

theorem afterSuccess_turns {number : Nat} {intent : String} {document : Option String}
    {r : Except Failure Next} (h : (afterSuccess isLast intent a v).run s = (r, t)) :
    Turns (.fresh number intent document) s.intent (r.map (Next.toSequel number)) t.intent := by
  unfold afterSuccess at h
  rw [enter, run_bind_ok (run_modify _ s)] at h
  rcases bind_cases h with ⟨f, hf, rfl⟩ | ⟨d, u, hu, h⟩
  · rw [(intent_consult _).of_run hf]
    exact .failed f
  have hintent : u.intent = s.intent := ((intent_consult _).of_run hu :)
  dsimp only at h
  -- no other round may follow, another one does, or the document is settled
  split at h
  · rw [run_bind_ok (run_get u), run_bind_ok (run_say _ u)] at h
    obtain ⟨q, hq, rfl⟩ := bind_pure_cases h
    rw [Next.map_ended_toSequel]
    exact turns_settle hq hintent rfl
  · split at h
    · rw [enter, run_bind_ok (run_modify _ u)] at h
      rw [← hintent]
      split at h
      · cases h
        exact .refined none a _
      · cases h
        exact .refined d.text a _
    · obtain ⟨q, hq, rfl⟩ := bind_pure_cases h
      rw [Next.map_ended_toSequel]
      exact turns_settle hq hintent rfl

theorem afterFailure_turns {number : Nat} {intent : String} {document : Option String}
    {r : Except Failure Next} (h : (afterFailure isLast intent a v).run s = (r, t)) :
    Turns (.fresh number intent document) s.intent (r.map (Next.toSequel number)) t.intent := by
  unfold afterFailure at h
  split at h
  · rw [run_bind_ok (run_get s)] at h
    obtain ⟨q, hq, rfl⟩ := bind_pure_cases h
    rw [Next.map_ended_toSequel]
    exact turns_abandon hq rfl
  rcases bind_cases h with ⟨f, hf, rfl⟩ | ⟨d, u, hu, h⟩
  · rw [(intent_consult _).of_run hf]
    exact .failed f
  have hintent : u.intent = s.intent := ((intent_consult _).of_run hu :)
  rw [← hintent]
  split at h
  · obtain ⟨q, hq, rfl⟩ := bind_pure_cases h
    rw [Next.map_ended_toSequel]
    exact turns_abandon hq rfl
  · rw [enter, run_bind_ok (run_modify _ u)] at h
    dsimp only at h
    split at h
    -- only here the session takes another instruction for its own
    · cases h
      exact .replaced _
    · cases h
      exact .refined d.text a _
    · cases h
      exact .refined d.text a _
    · cases h
      exact .refined none a _

theorem acceptSteps_turns {existing followUp : String} {history : List Attempt}
    {r : Except Failure Ending} (h : (acceptSteps existing followUp a v).run s = (r, t)) :
    Turns (.further existing followUp history) s.intent (r.map Sequel.ended) t.intent := by
  unfold acceptSteps at h
  rw [enter, run_bind_ok (run_modify _ s)] at h
  rcases bind_cases h with ⟨f, hf, rfl⟩ | ⟨joined, u, hu, h⟩
  · rw [run_lift] at hf
    obtain ⟨-, rfl⟩ := Prod.mk.inj hf
    exact .failed f
  rw [run_lift] at hu
  obtain ⟨-, rfl⟩ := Prod.mk.inj hu
  rcases bind_cases h with ⟨f, hf, rfl⟩ | ⟨d, w, hw, h⟩
  · rw [(intent_consult _).of_run hf]
    exact .failed f
  have hintent : w.intent = s.intent := ((intent_consult _).of_run hw :)
  have hsaved : ∀ x : Session, x.intent = s.intent →
      (Task.further existing followUp history).savedAs s.intent =
        x.intent.getD "None" ++ ". " ++ followUp := by
    intro x hx
    rw [hx]
    rfl
  dsimp only at h
  split at h
  · rw [run_bind_ok (run_say _ w), run_bind_ok (run_get _)] at h
    exact turns_settle h hintent (hsaved _ hintent)
  · rw [run_bind_ok (run_get _)] at h
    exact turns_settle h hintent (hsaved w hintent)

theorem afterFailedSteps_turns {existing followUp : String} {history attempts : List Attempt}
    {r : Except Failure NextStep}
    (h : (afterFailedSteps isLast followUp attempts a v).run s = (r, t)) :
    Turns (.further existing followUp history) s.intent (r.map (NextStep.toSequel existing))
      t.intent := by
  unfold afterFailedSteps at h
  split at h
  · rw [run_bind_ok (run_get s)] at h
    obtain ⟨q, hq, rfl⟩ := bind_pure_cases h
    rw [NextStep.map_ended_toSequel]
    exact turns_abandon hq rfl
  rcases bind_cases h with ⟨f, hf, rfl⟩ | ⟨d, u, hu, h⟩
  · rw [(intent_consult _).of_run hf]
    exact .failed f
  have hintent : u.intent = s.intent := ((intent_consult _).of_run hu :)
  rw [← hintent]
  split at h
  · obtain ⟨q, hq, rfl⟩ := bind_pure_cases h
    rw [NextStep.map_ended_toSequel]
    exact turns_abandon hq rfl
  all_goals
    cases h
    exact .further _ _

theorem Task.after_turns {task : Task} {r : Except Failure Sequel}
    (h : (task.after isLast a v).run s = (r, t)) : Turns task s.intent r t.intent := by
  cases task with
  | fresh number intent document =>
    unfold Task.after at h
    rw [run_map] at h
    obtain ⟨rfl, rfl⟩ := Prod.mk.inj h
    split
    · exact afterSuccess_turns rfl
    · exact afterFailure_turns rfl
  | further existing followUp history =>
    unfold Task.after at h
    rw [run_map] at h
    obtain ⟨rfl, rfl⟩ := Prod.mk.inj h
    split
    · rw [run_map, NextStep.map_ended_toSequel]
      exact acceptSteps_turns rfl
    · exact afterFailedSteps_turns rfl

theorem Lap.turns (x : Lap) : Turns x.task x.start.intent x.result x.finish.intent := by
  rcases x.stops_or_trial with hstops | ⟨⟨T⟩⟩
  · obtain ⟨f, hf⟩ := hstops.failed
    obtain ⟨_, _, _, _, _, -, -, -, hledger⟩ := hstops.ledger
    have hintent : x.finish.intent = x.start.intent := congrArg Ledger.intent hledger
    rw [hf, hintent]
    exact .failed f
  · rw [← T.intent]
    exact Task.after_turns T.run_after

/-! ## Stints -/

/-- A round on an instruction works on that of the session, with what was added to it. -/
def Task.On (base : Option String) : Task → Prop
  | fresh _ intent _ => ∃ text, base = some text ∧ Refined text intent
  | further .. => True

/-- So does the round behind it, and a continuation finds the instruction that there was. -/
theorem Turns.on {task next : Task} {base base' : Option String}
    (h : Turns task base (.ok (.again next)) base') (hon : task.On base) :
    next.On base' ∧ next.existing? = task.existing? ∧
      (task.existing? ≠ none → base' = base) := by
  cases h with
  | refined text a document' =>
    obtain ⟨first, hbase, hrefined⟩ := hon
    exact ⟨⟨first, hbase, hrefined.more text a⟩, rfl, fun _ => rfl⟩
  | replaced other => exact ⟨⟨other, rfl, .base⟩, rfl, fun h => absurd rfl h⟩
  | further followUp' history' => exact ⟨trivial, rfl, fun _ => rfl⟩

theorem Turns.failed_intent {task : Task} {f : Failure} {base base' : Option String}
    (h : Turns task base (.error f) base') : base' = base := by
  cases h
  rfl

theorem Turns.ended_intent {task : Task} {e : Ending} {base base' : Option String}
    (h : Turns task base (.ok (.ended e)) base') :
    base' = base ∧ e.Saves (task.savedAs base) := by
  cases h with
  | ended saves => exact ⟨rfl, saves⟩

/-- The last attempt of an ending is one at the instruction of its round. -/
theorem Lap.ended_instruction {x : Lap} {e : Ending} (h : x.result = .ok (.ended e)) :
    e.outcome.attempts.getLast?.map (·.intent) = some x.task.instruction := by
  obtain ⟨T, -, hlast, -⟩ := Lap.ended h
  rw [hlast]
  exact congrArg some T.concludes_attempt.intent

/-- Rounds on a task end with one on a task of its kind, and what that saves is saved under the
instruction which the session has then. If they are on a continuation, it is the one which the
session had before. -/
theorem Runs.ends {left : Nat} {task : Task} {laps : List Lap} {q : Except Failure Ending}
    (h : Runs left task s laps q t) (hon : task.On s.intent) :
    (task.existing? ≠ none → t.intent = s.intent) ∧
    ∀ e, q = .ok e → ∃ last : Task, last.existing? = task.existing? ∧ last.On t.intent ∧
      e.outcome.attempts.getLast?.map (·.intent) = some last.instruction ∧
      e.Saves (last.savedAs t.intent) := by
  -- along the rounds, what is worked on comes from the instruction that the session has then
  induction h with
  | @failed left x f last result =>
    have hturns := x.turns
    rw [result] at hturns
    exact ⟨fun _ => hturns.failed_intent, fun e he => by cases he⟩
  | @ended left x e last result =>
    have hturns := x.turns
    rw [result] at hturns
    obtain ⟨hintent, hsaves⟩ := hturns.ended_intent
    refine ⟨fun _ => hintent, ?_⟩
    rintro _ ⟨⟩
    rw [hintent]
    exact ⟨x.task, rfl, hon, Lap.ended_instruction result, hsaves⟩
  | @again left x next laps r t last result later ih =>
    have hturns := x.turns
    rw [result] at hturns
    obtain ⟨hnext, hexisting, hkept⟩ := hturns.on hon
    obtain ⟨hlater, hends⟩ := ih hnext
    rw [hexisting] at hlater hends
    exact ⟨fun hfurther => (hlater hfurther).trans (hkept hfurther), hends⟩

/-- The instruction on which a stint settles its outcome: that of the attempt tried last. -/
def Stint.instruction? (x : Stint) : Option String :=
  x.settled?.bind fun o => o.attempts.getLast?.map (·.intent)

/-- A stint on a continuation, in a session with some instruction. -/
def Stint.Continues (x : Stint) (base : Option String) : Prop :=
  x.task.existing? ≠ none ∧ x.start.intent = base

theorem Task.on_of_existing {task : Task} (h : task.existing? ≠ none) (base : Option String) :
    task.On base := by
  cases task with
  | fresh => exact absurd rfl h
  | further => trivial

namespace Stint

variable {x : Stint} {base : Option String}

theorem Continues.intent (h : x.Continues base) : x.finish.intent = base :=
  ((x.runs.ends (Task.on_of_existing h.1 _)).1 h.1).trans h.2

/-- What a stint settles, it settles with an attempt at some instruction. -/
theorem settled_ends {o : Outcome} (hon : x.task.On x.start.intent) (ho : x.settled? = some o) :
    ∃ last : Task, last.existing? = x.task.existing? ∧ last.On x.finish.intent ∧
      x.instruction? = some last.instruction ∧
      ∀ w, o.saved = some w → w.intent = .text (last.savedAs x.finish.intent) ∧
        o.document.map Value.text = some w.document := by
  obtain ⟨e, hresult, rfl, -⟩ := x.ending_of_settled ho
  obtain ⟨last, hexisting, hlast, hinstruction, hsaves⟩ := (x.runs.ends hon).2 e hresult
  refine ⟨last, hexisting, hlast, ?_, hsaves⟩
  unfold instruction?
  rw [ho]
  exact hinstruction

/-- A continuation saves its document under the instruction of the session and its own. -/
theorem Continues.saved {text : String} {o : Outcome} (h : x.Continues (some text))
    (ho : x.settled? = some o) :
    ∃ followUp, x.instruction? = some followUp ∧ ∀ w, o.saved = some w →
      w.intent = .text (text ++ ". " ++ followUp) ∧
        o.document.map Value.text = some w.document := by
  obtain ⟨last, hexisting, -, hinstruction, hsaved⟩ :=
    settled_ends (Task.on_of_existing h.1 _) ho
  rw [h.intent] at hsaved
  cases last with
  | fresh number intent document => exact absurd hexisting.symm h.1
  | further existing followUp history => exact ⟨followUp, hinstruction, hsaved⟩

/-- A stint on an instruction saves its document under that, with what was added to it. -/
theorem run_saved {intent : String} {o : Outcome} (htask : x.task = .fresh 1 intent none)
    (hstart : x.start = s.begun intent) (ho : x.settled? = some o) :
    ∃ text refined, x.finish.intent = some text ∧ Refined text refined ∧
      x.instruction? = some refined ∧ ∀ w, o.saved = some w →
      w.intent = .text refined ∧ o.document.map Value.text = some w.document := by
  have hon : x.task.On x.start.intent := by
    rw [htask, hstart]
    exact ⟨intent, rfl, .base⟩
  obtain ⟨last, hexisting, hlast, hinstruction, hsaved⟩ := settled_ends hon ho
  rw [htask] at hexisting
  cases last with
  | fresh number refined document =>
    obtain ⟨text, hintent, hrefined⟩ := hlast
    exact ⟨text, refined, hintent, hrefined, hinstruction, hsaved⟩
  | further existing followUp history => cases hexisting

end Stint

/-! ## Calls -/

/-- A stint on the accepted document is a continuation in the session as it is. -/
theorem continues_of_continuation {x : Stint} {followUp : String} {u : Session}
    (htask : u.continuation? followUp = some x.task) (hstart : x.start = u) :
    x.Continues u.intent := by
  obtain ⟨existing, -, hx⟩ := Option.map_eq_some_iff.mp htask
  refine ⟨?_, congrArg Session.intent hstart⟩
  rw [← hx]
  exact Option.some_ne_none existing

/-- All stints of a call but the first continue in the session that the first one leaves. -/
theorem Works.continue {x : Stint} {stints : List Stint} {r : Except Failure Outcome}
    (h : Works x stints r t) :
    t.intent = x.finish.intent ∧
      ∃ rest, stints = x :: rest ∧ ∀ y ∈ rest, y.Continues x.finish.intent := by
  induction h with
  | @followed x y e followUp stints r t result asks opening task start later ih =>
    obtain ⟨hintent, rest, rfl, hrest⟩ := ih
    have hy := continues_of_continuation task start
    rw [hy.intent] at hintent hrest
    exact ⟨hintent, y :: rest, rfl, List.forall_mem_cons.mpr ⟨hy, hrest⟩⟩
  | _ => exact ⟨rfl, [], rfl, fun y hy => (List.not_mem_nil hy).elim⟩

/-- All stints of a chain of calls but the first continue in the session that the first one
leaves. -/
theorem Told.continue {stints : List Stint} {r : Except Failure Outcome} (h : Told s stints r t) :
    ∃ first rest intent, stints = first :: rest ∧ first.task = .fresh 1 intent none ∧
      first.start = s.begun intent ∧ t.intent = first.finish.intent ∧
      ∀ y ∈ rest, y.Continues first.finish.intent := by
  induction h with
  | @run intent stints r t served =>
    cases served with
    | @run _ first _ _ _ opening task start works =>
      obtain ⟨hintent, rest, rfl, hrest⟩ := works.continue
      exact ⟨first, rest, intent, rfl, task, start, hintent, hrest⟩
  | @extend q r t u stints later followUp before world decider served ih =>
    obtain ⟨first, rest, intent, rfl, htask, hstart, hintent, hrest⟩ := ih
    cases served with
    | refused missing =>
      refine ⟨first, rest, intent, ?_, htask, hstart, hintent, hrest⟩
      rw [List.append_nil]
    | @extend _ x _ _ _ opening task start works =>
      have hx := continues_of_continuation task start
      obtain ⟨hlater, more, rfl, hmore⟩ := works.continue
      have hbase : x.finish.intent = first.finish.intent := hx.intent.trans hintent
      rw [hbase] at hlater hmore
      refine ⟨first, rest ++ x :: more, intent, rfl, htask, hstart, hlater, ?_⟩
      refine List.forall_mem_append.mpr ⟨hrest, List.forall_mem_cons.mpr ⟨?_, hmore⟩⟩
      exact ⟨hx.1, hx.2.trans hintent⟩

/-! ## What the text holds -/

theorem refine_eq_or_longer (intent : String) (text : Option String) (a : Attempt) :
    refine intent text a = intent ∨
      ∃ more, refine intent text a = intent ++ ". " ++ more ∧ more ≠ "" := by
  unfold refine
  cases hgiven : given? text with
  | none => exact Or.inl rfl
  | some text =>
    obtain ⟨-, htext⟩ := Option.filter_eq_some_iff.mp hgiven
    have hne : text ≠ "" := by
      rintro rfl
      exact absurd htext (by decide)
    exact Or.inr ⟨text ++ _, String.append_assoc, append_ne_empty hne _⟩

/-- What was added to an instruction stands behind it, after a stop and a blank. -/
theorem Refined.eq_or_longer {base refined : String} (h : Refined base refined) :
    refined = base ∨ ∃ more, refined = base ++ ". " ++ more ∧ more ≠ "" := by
  induction h with
  | base => exact Or.inl rfl
  | @more intent text a before ih =>
    rcases refine_eq_or_longer intent text a with hsame | ⟨last, hlast, hne⟩
    · rw [hsame]
      exact ih
    rcases ih with rfl | ⟨first, rfl, hfirst⟩
    · exact Or.inr ⟨last, hlast, hne⟩
    · refine Or.inr ⟨first ++ ". " ++ last, ?_, append_ne_empty (append_ne_empty hfirst _) _⟩
      rw [hlast]
      simp only [String.append_assoc]

/-- What a document is saved under, if it was begun on an instruction to which something was added
and then continued. -/
def savedUnder (base refined : String) (followUps : List String) : String :=
  match followUps.getLast? with
  | none => refined
  | some followUp => base ++ ". " ++ followUp

/-- That text holds the first instruction with what was added and all continuations in order
exactly if there are none of these, or if nothing was added and all continuations before the last
stand in the stop and the blank. -/
theorem inOrder_savedUnder {base refined : String} {followUps : List String}
    (h : Refined base refined) :
    Text.InOrder (refined :: followUps) (savedUnder base refined followUps).toList ↔
      followUps = [] ∨ refined = base ∧ Text.InOrder followUps.dropLast ". ".toList := by
  rcases List.eq_nil_or_concat' followUps with rfl | ⟨earlier, last, rfl⟩
  · refine iff_of_true ?_ (Or.inl rfl)
    show Text.InOrder [refined] refined.toList
    rw [← List.append_nil refined.toList, Text.inOrder_cons_append]
    trivial
  have hsaved : savedUnder base refined (earlier ++ [last]) = base ++ ". " ++ last := by
    unfold savedUnder
    rw [List.getLast?_concat]
  rw [hsaved, List.dropLast_concat, or_iff_right (List.append_ne_nil_of_right_ne_nil _ (by simp))]
  rcases h.eq_or_longer with rfl | ⟨more, rfl, hmore⟩
  · rw [String.append_assoc, String.toList_append, Text.inOrder_cons_append, String.toList_append,
      Text.inOrder_concat_append, and_iff_right rfl]
  · -- with what was added the first instruction does not fit in before the last continuation
    have hlong : 0 < more.length := Nat.pos_of_ne_zero fun h => hmore (by simpa using h)
    have hblank : ". ".length = 2 := rfl
    refine iff_of_false (fun h => ?_) (fun h => ?_)
    · have hlength := h.length_le
      simp only [List.flatMap_cons, List.flatMap_append, List.flatMap_nil, List.length_append,
        String.length_append, String.length_toList] at hlength
      omega
    · have hlength := congrArg String.length h.1
      simp only [String.length_append] at hlength
      omega

/-! ## Three calls -/

/-- A session in which the model answers with three documents of one key, each of which it then
judges a success. The third is decided to be saved. -/
def keying : Session :=
  { settings := {}
    decider := .scripted [] [{ kind := .done }, { kind := .done }, { kind := .save, text := "W" }]
    world := { replies := [.content "- press: Home", .content "success", .content "- press: Tab",
      .content "success", .content "- press: End", .content "success"] } }

/-- A stint on an instruction whose ending asks for no continuation is a whole call. -/
theorem run_single {intent : String} {e : Ending}
    (h : (Session.rounds 1 (s.begun intent).roundsLeft intent none).run (s.begun intent) =
      (.ok e, t)) (hdone : e.followUp = none) :
    ∃ x : Stint, x.result = .ok e ∧ Served s (.run intent) [x] (.ok e.outcome) t := by
  have hrounds : ((Task.fresh 1 intent none).rounds (s.begun intent).roundsLeft).run
      (s.begun intent) = (.ok e, t) := h
  obtain ⟨laps, hlaps⟩ := rounds_iff.1 hrounds
  let x : Stint := ⟨.run, _, _, laps, _, _, hlaps⟩
  have hworks : Works x [x] (.ok e.outcome) t := .ended rfl hdone
  exact ⟨x, rfl, .run rfl rfl rfl hworks⟩

/-- So is one on a continuation. -/
theorem extend_single {followUp : String} {e : Ending}
    (h : (extendOnce followUp).run s = (.ok e, t)) (hdone : e.followUp = none) :
    ∃ x : Stint, x.result = .ok e ∧ Served s (.extend followUp) [x] (.ok e.outcome) t := by
  rcases extendOnce_cases h .extend with ⟨-, hr, -⟩ | ⟨x, hopening, htask, hstart, hresult, rfl⟩
  · cases hr
  · exact ⟨x, hresult, .extend hopening htask hstart (.ended hresult hdone)⟩

/-- What a stint that asks for no continuation has settled: the instruction of the last attempt, and
the instruction under which the document is saved. -/
def settlement (q : Except Failure Ending) : Option (Option String × Option String) :=
  q.toOption.bind fun e =>
    if e.followUp = none then
      some (e.settled?.bind fun o => o.attempts.getLast?.map (·.intent),
        e.settled?.bind fun o => o.saved.bind instructionOf)
    else none

theorem settlement_ok {q : Except Failure Ending} {given saved : Option String}
    (h : settlement q = some (given, saved)) :
    ∃ e, q = .ok e ∧ e.followUp = none ∧
      ∀ x : Stint, x.result = .ok e → x.instruction? = given ∧
        x.settled?.bind (fun o => o.saved.bind instructionOf) = saved := by
  cases q with
  | error f => cases h
  | ok e =>
    have hending : (if e.followUp = none then _ else none) = some (given, saved) := h
    split at hending
    · rename_i hdone
      cases hending
      refine ⟨e, rfl, hdone, fun x hx => ?_⟩
      unfold Stint.instruction? Stint.settled?
      rw [hx]
      exact ⟨rfl, rfl⟩
    · cases hending

/-- What the stint of a call of `run` and those of two calls of `extend` settle. -/
def settlements (s : Session) (intent followUp followUp' : String) :
    List (Option (Option String × Option String)) :=
  let begun := s.begun intent
  let p := (Session.rounds 1 begun.roundsLeft intent none).run begun
  let q := (extendOnce followUp).run p.2
  [settlement p.1, settlement q.1, settlement ((extendOnce followUp').run q.2).1]

/-- If none of them asks for a continuation, they are all the stints of the three calls. -/
theorem told_three {intent followUp followUp' : String}
    {given given' given'' saved saved' saved'' : Option String}
    (h : settlements s intent followUp followUp' =
      [some (given, saved), some (given', saved'), some (given'', saved'')]) :
    ∃ r t x y z, Told s [x, y, z] r t ∧
      x.instruction? = given ∧ y.instruction? = given' ∧ z.instruction? = given'' ∧
      z.settled?.bind (fun o => o.saved.bind instructionOf) = saved'' := by
  unfold settlements at h
  dsimp only at h
  generalize hp : (Session.rounds 1 (s.begun intent).roundsLeft intent none).run
    (s.begun intent) = p at h
  generalize hq : (extendOnce followUp).run p.2 = q at h
  generalize hr : (extendOnce followUp').run q.2 = r at h
  obtain ⟨hfirst, h⟩ := List.cons.inj h
  obtain ⟨hsecond, h⟩ := List.cons.inj h
  obtain ⟨hthird, -⟩ := List.cons.inj h
  obtain ⟨e, he, hdone, hx⟩ := settlement_ok hfirst
  obtain ⟨e', he', hdone', hy⟩ := settlement_ok hsecond
  obtain ⟨e'', he'', hdone'', hz⟩ := settlement_ok hthird
  obtain ⟨x, hxe, hserved⟩ := run_single (hp.trans (Prod.ext he rfl)) hdone
  obtain ⟨y, hye, hserved'⟩ := extend_single (hq.trans (Prod.ext he' rfl)) hdone'
  obtain ⟨z, hze, hserved''⟩ := extend_single (hr.trans (Prod.ext he'' rfl)) hdone''
  have htold : Told s ([x] ++ [y] ++ [z]) (.ok e''.outcome) r.2 :=
    .extend (.extend (.run hserved) p.2.world p.2.decider hserved') q.2.world q.2.decider hserved''
  exact ⟨_, _, x, y, z, htold, (hx x hxe).1, (hy y hye).1, hz z hze⟩

/-- The three calls of that session are three stints, and the last one has the document saved. -/
theorem told_keying :
    ∃ r t x y z o w, Told keying [x, y, z] r t ∧
      [x, y, z].filterMap Stint.instruction? =
        ["open news", "extract the titles as csv", "press End"] ∧
      z.settled? = some o ∧ o.saved = some w ∧ instructionOf w = some "open news. press End" := by
  have hsettled : settlements keying "open news" "extract the titles as csv" "press End" =
      [some (some "open news", none), some (some "extract the titles as csv", none),
        some (some "press End", some "open news. press End")] := by decide +kernel
  obtain ⟨r, t, x, y, z, htold, hx, hy, hz, hsaved⟩ := told_three hsettled
  obtain ⟨o, ho, hsaved⟩ := Option.bind_eq_some_iff.mp hsaved
  obtain ⟨w, hw, hunder⟩ := Option.bind_eq_some_iff.mp hsaved
  refine ⟨r, t, x, y, z, o, w, htold, ?_, ho, hw, hunder⟩
  simp only [List.filterMap_cons, List.filterMap_nil, hx, hy, hz]

/-! ## What is saved -/

/-- Every chain of calls is told by its stints. What is saved with an outcome that one of them has
settled is the document that was accepted. If this is the first stint, the document is saved under
its instruction with what was added to it (`refined`), and otherwise under that instruction without
what was added (`base`) and the one of the stint itself. So the text holds the instructions of all
stints that have settled something until then, in order, exactly if the document was not continued,
or if nothing was added to the first instruction and the continuations before the last one fit into
the stop and the blank. -/
theorem saved_under_iff (s : Session) :
    (∀ {t : Session} {r : Except Failure Outcome}, Chain s r t → ∃ stints, Told s stints r t) ∧
    ∀ {t : Session} {r : Except Failure Outcome} {before after : List Stint} {x : Stint}
      {o : Outcome} {w : Workflow}, Told s (before ++ x :: after) r t → x.settled? = some o →
      o.saved = some w →
      ∃ base refined followUps, t.intent = some base ∧ Refined base refined ∧
        (before ++ [x]).filterMap Stint.instruction? = refined :: followUps ∧
        o.document.map Value.text = some w.document ∧
        instructionOf w = some (savedUnder base refined followUps) ∧
        (Text.InOrder (refined :: followUps) (savedUnder base refined followUps).toList ↔
          followUps = [] ∨ refined = base ∧ Text.InOrder followUps.dropLast ". ".toList) := by
  refine ⟨Chain.told, ?_⟩
  intro t r before after x o w htold ho hw
  obtain ⟨first, rest, intent, hfirst, htask, hstart, hintent, hrest⟩ := htold.continue
  obtain ⟨_, _, hfirst', -, -, hnone⟩ := htold.continuations
  cases hfirst.symm.trans hfirst'
  cases before with
  | nil =>
    -- the document is that of the first stint
    obtain ⟨rfl, -⟩ := List.cons.inj hfirst
    obtain ⟨base, refined, hbase, hrefined, hinstruction, hsaved⟩ := x.run_saved htask hstart ho
    obtain ⟨hw, hdocument⟩ := hsaved w hw
    refine ⟨base, refined, [], hintent.trans hbase, hrefined, ?_, hdocument, ?_,
      inOrder_savedUnder hrefined⟩
    · simp only [List.nil_append, List.filterMap_cons, List.filterMap_nil, hinstruction]
    · unfold instructionOf
      rw [hw]
      rfl
  | cons y before =>
    -- the first stint has settled something as well, since there is a continuation
    obtain ⟨rfl, hbehind⟩ := List.cons.inj hfirst
    have hx : x.Continues y.finish.intent := by
      refine hrest x ?_
      rw [← hbehind]
      exact List.mem_append_right before List.mem_cons_self
    obtain ⟨o', ho'⟩ : ∃ o', y.settled? = some o' := by
      refine Option.ne_none_iff_exists'.mp fun h => ?_
      rw [hnone h] at hbehind
      exact List.append_ne_nil_of_right_ne_nil _ (List.cons_ne_nil _ _) hbehind
    obtain ⟨base, refined, hbase, hrefined, hinstruction, -⟩ := y.run_saved htask hstart ho'
    rw [hbase] at hx
    obtain ⟨followUp, hfollowUp, hsaved⟩ := hx.saved ho
    obtain ⟨hw, hdocument⟩ := hsaved w hw
    refine ⟨base, refined, before.filterMap Stint.instruction? ++ [followUp],
      hintent.trans hbase, hrefined, ?_, hdocument, ?_, inOrder_savedUnder hrefined⟩
    · simp only [List.cons_append, List.filterMap_cons, List.filterMap_append, List.filterMap_nil,
        hinstruction, hfollowUp]
    · unfold instructionOf savedUnder
      rw [hw, List.getLast?_concat]

/-- Of three instructions, the text under which the document is saved does not hold the second. -/
theorem saved_under_iff_keying :
    ∃ r t x y z o w, Told keying [x, y, z] r t ∧ z.settled? = some o ∧ o.saved = some w ∧
      [x, y, z].filterMap Stint.instruction? =
        ["open news", "extract the titles as csv", "press End"] ∧
      t.intent = some "open news" ∧ o.document.map Value.text = some w.document ∧
      instructionOf w = some (savedUnder "open news" "open news"
        ["extract the titles as csv", "press End"]) ∧
      ¬ Text.InOrder ["open news", "extract the titles as csv", "press End"]
        (savedUnder "open news" "open news" ["extract the titles as csv", "press End"]).toList := by
  obtain ⟨r, t, x, y, z, o, w, htold, hinstructions, ho, hw, hunder⟩ := told_keying
  obtain ⟨base, refined, followUps, hbase, -, hlist, hdocument, hsaved, hinOrder⟩ :=
    (saved_under_iff keying).2 (show Told keying ([x, y] ++ z :: []) r t from htold) ho hw
  cases hinstructions.symm.trans hlist
  have htext : "open news" ++ ". press End" = base ++ ". press End" :=
    Option.some.inj (hunder.symm.trans (hsaved.trans (congrArg some String.append_assoc)))
  rw [String.append_left_inj] at htext
  subst htext
  refine ⟨r, t, x, y, z, o, w, htold, ho, hw, hlist, hbase, hdocument, hsaved, fun h => ?_⟩
  rcases hinOrder.1 h with hnil | ⟨-, hearlier⟩
  · cases hnil
  · exact absurd hearlier.length_le (by decide)

/-- Not every document that is saved is saved under a text that holds all its instructions. -/
theorem not_saved_under_all :
    ¬ ∀ {s t : Session} {r : Except Failure Outcome} {before after : List Stint} {x : Stint}
      {o : Outcome} {w : Workflow}, Told s (before ++ x :: after) r t → x.settled? = some o →
      o.saved = some w →
      ∃ text, instructionOf w = some text ∧
        Text.InOrder ((before ++ [x]).filterMap Stint.instruction?) text.toList := by
  intro h
  obtain ⟨r, t, x, y, z, o, w, htold, hinstructions, ho, hw, hunder⟩ := told_keying
  obtain ⟨text, htext, hinOrder⟩ :=
    h (show Told keying ([x, y] ++ z :: []) r t from htold) ho hw
  cases hunder.symm.trans htext
  -- the three instructions are longer than the text
  have hlength := hinOrder.length_le
  rw [show [x, y] ++ [z] = [x, y, z] from rfl, hinstructions] at hlength
  exact absurd hlength (by decide)

end Session

end BrowserFlow
