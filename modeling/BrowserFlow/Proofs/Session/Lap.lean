import BrowserFlow.Proofs.Session.Ledger

/-!
# What a round can do

The rounds on an instruction and the rounds on a continuation have one shape: a document is
obtained, it is run and judged, the attempt is entered into the history, and something comes after
that. A `Task` is what a round works on, of either kind, and `round_eq` takes its round apart into
these parts.

`Lap.does` says once what a round can do. It stops before it has come to a judgement, or it is a
trial of a document, and then `After` lists what can follow. All that is known of sessions comes
from these two.
-/

namespace BrowserFlow.Session

open Effect Planner

/-- What a round works on. -/
inductive Task
  /-- An instruction, in the round of some number, perhaps with a document that is to be run
  again. -/
  | fresh (number : Nat) (intent : String) (document : Option String)
  /-- What is to follow an existing document, with the attempts at it so far. -/
  | further (existing followUp : String) (history : List Attempt)

/-- What comes after a round: an ending, or a round on another task. -/
inductive Sequel
  | ended (e : Ending)
  | again (task : Task)

/-- What comes after the round of some number on an instruction. -/
def Next.toSequel (number : Nat) : Next → Sequel
  | .ended e => .ended e
  | .again intent document => .again (.fresh (number + 1) intent document)

/-- What comes after a round on the continuation of an existing document. -/
def NextStep.toSequel (existing : String) : NextStep → Sequel
  | .ended e => .ended e
  | .again followUp history => .again (.further existing followUp history)

namespace Task

/-- The round on a task. -/
def round (isLast : Bool) : Task → Act Sequel
  | fresh number intent document =>
    Next.toSequel number <$> Session.round number isLast intent document
  | further existing followUp history =>
    NextStep.toSequel existing <$> stepRound existing isLast followUp history

/-- The instruction that is worked on. -/
def instruction : Task → String
  | fresh _ intent _ => intent
  | further _ followUp _ => followUp

/-- The document that is to be run again. -/
def document? : Task → Option String
  | fresh _ _ document => document
  | further .. => none

/-- Obtains the document of the round. -/
def obtain : Task → Act String
  | fresh number intent document => do
    announce number
    Session.obtain intent document
  | further existing followUp history => obtainSteps existing followUp history

/-- What comes after an attempt and the judgement on it. -/
def after (isLast : Bool) (a : Attempt) (v : Verification) : Task → Act Sequel
  | fresh number intent _ => Next.toSequel number <$>
    if v.success then afterSuccess isLast intent a v else afterFailure isLast intent a v
  | further existing followUp history => NextStep.toSequel existing <$>
    if v.success then NextStep.ended <$> acceptSteps existing followUp a v
    else afterFailedSteps isLast followUp (history ++ [a]) a v

/-- The document that is accepted if one is tried with success. -/
def whole (document : String) : Task → Except Failure String
  | fresh .. => .ok document
  | further existing .. => Document.join existing document

/-- The prompt by which a document is asked for. -/
def prompt (s : Session) : Task → String
  | fresh _ intent _ => Prompt.generation intent s.history (viewAfter s.history).page
      (viewAfter s.history).candidates
  | further existing followUp history => Prompt.continuation (s.continuationOf existing followUp)
      history (viewAfter history).page (viewAfter history).candidates

/-- The phases before a document is run. -/
def opening (task : Task) : List Phase :=
  if task.document?.isSome then [] else [.generate]

end Task

/-- Enters an attempt into the history. -/
def record (a : Attempt) : Act Unit :=
  modify fun s => { s with history := s.history ++ [a] }

/-- The parts of a round. -/
theorem round_eq (isLast : Bool) (task : Task) :
    task.round isLast = (do
      let document ← task.obtain
      let report ← executed task.instruction document
      let (a, v) ← concluded { intent := task.instruction, document, report := some report } report
      record a
      task.after isLast a v) := by
  cases task with
  | fresh number intent document =>
    unfold Task.round Session.round Session.attempt
    simp only [map_bind, bind_assoc]
    rfl
  | further existing followUp history =>
    unfold Task.round stepRound Session.attempt
    simp only [map_bind, bind_assoc]
    rfl

/-- The model is asked once for the document of a round, or not at all if one is run again. -/
theorem Task.obtain_asked {task : Task} {s t : Session} {r : Except Failure String}
    (h : task.obtain.run s = (r, t)) :
    ∃ asked, AtMostOnce (task.prompt s) asked ∧
      t.ledger = (s.ledger.going task.opening).asking asked := by
  cases task with
  | further existing followUp history => exact obtainSteps_asked h
  | fresh number intent document =>
    obtain ⟨u, hu, hledger⟩ : ∃ u, (announce number).run s = (.ok (), u) ∧ u.ledger = s.ledger :=
      ⟨_, rfl, rfl⟩
    unfold Task.obtain at h
    rw [run_bind_ok hu] at h
    have hhistory : u.history = s.history := congrArg Ledger.history hledger
    cases document with
    | none =>
      have hasked := Session.obtain_asked h
      rw [hledger, hhistory] at hasked
      exact hasked
    | some document =>
      -- a document that is run again is not asked for, and there is no phase for it
      cases h
      refine ⟨[], atMostOnce_nil _, ?_⟩
      rw [hledger]
      show s.ledger = (s.ledger.going []).asking []
      unfold Ledger.going Ledger.asking
      rw [List.append_nil, List.append_nil]

/-! ## What comes after a judgement -/

/-- What is there to decide with. -/
def Ledger.supply (l : Ledger) : Nat :=
  l.decider.supply l.inputs

/-- Nothing has changed but who decides, and there is no more to decide with than before. -/
structure Decides (l m : Ledger) : Prop where
  eq : m = { l with decider := m.decider, inputs := m.inputs }
  supply : m.supply ≤ l.supply

namespace Decides

variable {l m n : Ledger}

theorem refl (l : Ledger) : Decides l l :=
  ⟨rfl, Nat.le_refl _⟩

theorem phases (h : Decides l m) : m.phases = l.phases :=
  (congrArg Ledger.phases h.eq :)

theorem history (h : Decides l m) : m.history = l.history :=
  (congrArg Ledger.history h.eq :)

theorem requests (h : Decides l m) : m.requests = l.requests :=
  (congrArg Ledger.requests h.eq :)

theorem settings (h : Decides l m) : m.settings = l.settings :=
  (congrArg Ledger.settings h.eq :)

theorem registry (h : Decides l m) : m.registry = l.registry :=
  (congrArg Ledger.registry h.eq :)

theorem accepted (h : Decides l m) : m.accepted = l.accepted :=
  (congrArg Ledger.accepted h.eq :)

theorem going (h : Decides l m) (ps : List Phase) : Decides (l.going ps) (m.going ps) := by
  refine ⟨?_, h.supply⟩
  rw [h.eq]
  rfl

theorem accepting (h : Decides l m) (o : Outcome) : Decides (l.accepting o) (m.accepting o) := by
  refine ⟨?_, h.supply⟩
  rw [h.eq]
  rfl

theorem turning (h : Decides l m) (history : List Attempt) (intent : Option String) :
    Decides (l.turning history intent) (m.turning history intent) := by
  refine ⟨?_, h.supply⟩
  rw [h.eq]
  rfl

end Decides

/-- What is decided on a judgement, and who decides from then on. -/
def rulingOn (s : Session) (v : Verification) : Ruling × Decider :=
  if v.success then s.decider.onSuccess s.world.inputs
  else s.decider.onFailure (some v) s.world.inputs

theorem rulingOn_supply (s : Session) (v : Verification) :
    (s.rulingOn v).2.supply (s.rulingOn v).1.inputs ≤ s.ledger.supply := by
  unfold rulingOn
  split
  · exact Decider.onSuccess_supply s.world.inputs s.decider
  · exact Decider.onFailure_supply (some v) s.world.inputs s.decider

theorem decides_rulingOn (s : Session) (v : Verification) :
    Decides s.ledger (s.ledger.deciding (s.rulingOn v)) :=
  ⟨rfl, rulingOn_supply s v⟩

/-- The phase that a success leads to. -/
def successPhases (v : Verification) : List Phase :=
  if v.success then [.accept] else []

theorem rulingOn_success {s : Session} {v : Verification} (hv : v.success = true) :
    s.rulingOn v = s.decider.onSuccess s.world.inputs :=
  if_pos hv

theorem rulingOn_failure {s : Session} {v : Verification} (hv : v.success = false) :
    s.rulingOn v = s.decider.onFailure (some v) s.world.inputs :=
  if_neg (by rw [hv]; exact Bool.false_ne_true)

theorem successPhases_success {v : Verification} (hv : v.success = true) :
    successPhases v = [.accept] :=
  if_pos hv

theorem successPhases_failure {v : Verification} (hv : v.success = false) : successPhases v = [] :=
  if_neg (by rw [hv]; exact Bool.false_ne_true)

/-- Why there is no end and no other round: nothing was decided, or a success cannot be joined to
what it continues, or it was to be saved and cannot be. -/
inductive Unsettled (task : Task) (a : Attempt) (v : Verification) (s : Session) : Failure → Prop
  | undecided {f : Fault} (decision : (s.rulingOn v).1.decision = .error f) :
      Unsettled task a v s (.fault f)
  | unjoined {f : Failure} (success : v.success = true) (whole : task.whole a.document = .error f) :
      Unsettled task a v s f
  | unsaved {d : Decision} {f : Failure} {intent document : String} {u : Session}
      (success : v.success = true) (decision : (s.rulingOn v).1.decision = .ok d)
      (save : d.kind = .save) (saved : ((saveAs intent document d.text).run u).1 = .error f) :
      Unsettled task a v s f

/-- The task that an attempt leads to: a new one, or the same document again after a success. -/
inductive Resumes (a : Attempt) (v : Verification) : Task → Task → Prop
  | anew (number : Nat) (intent intent' : String) (document : Option String) :
      Resumes a v (.fresh number intent document) (.fresh (number + 1) intent' none)
  | rerun (number : Nat) (intent : String) (document : Option String)
      (success : v.success = true) :
      Resumes a v (.fresh number intent document) (.fresh (number + 1) intent (some a.document))
  | further (existing followUp followUp' : String) (history history' : List Attempt)
      (failure : v.success = false) :
      Resumes a v (.further existing followUp history) (.further existing followUp' history')

/-- What can come after an attempt and the judgement on it. -/
inductive After (task : Task) (isLast : Bool) (a : Attempt) (v : Verification) (s : Session) :
    Except Failure Sequel → Session → Prop
  | failed {f : Failure} {t : Session} (cause : Unsettled task a v s f)
      (ledger : Decides (s.ledger.going (successPhases v)) t.ledger) :
      After task isLast a v s (.error f) t
  | accepted {document : String} {saved : Option Workflow} {followUp : Option String} {t : Session}
      (success : v.success = true) (whole : task.whole a.document = .ok document)
      (ledger : Decides ((s.ledger.going [.accept]).accepting
        (acceptedOutcome s.history document v saved)) t.ledger)
      (uses : followUp.isSome → t.ledger.supply < s.ledger.supply) :
      After task isLast a v s
        (.ok (.ended { outcome := acceptedOutcome s.history document v saved, followUp })) t
  | abandoned {reason : String} {t : Session} (failure : v.success = false)
      (reasoned : reason ≠ "") (ledger : Decides (s.ledger.going [.abandon]) t.ledger) :
      After task isLast a v s
        (.ok (.ended { outcome := abandonedOutcome s.history reason })) t
  | again {next : Task} {history : List Attempt} {intent : Option String} {t : Session}
      (more : isLast = false) (resumes : Resumes a v task next)
      (kept : history = s.history ∨ history = [])
      (ledger : Decides ((s.ledger.going (successPhases v ++ [.retry])).turning history intent)
        t.ledger) :
      After task isLast a v s (.ok (.again next)) t

variable {s t : Session} {v : Verification} {a : Attempt} {isLast : Bool}

/-- On a judgement there is no decision, or something is done with it. -/
theorem ruling_cases {β : Type} {ask : List String → Decider → Ruling × Decider} {u : Session}
    {f : Decision → Act β} {r : Except Failure β} (task : Task) (isLast : Bool) (a : Attempt)
    (hask : s.rulingOn v = ask s.world.inputs s.decider)
    (hu : u.ledger = s.ledger.going (successPhases v))
    (h : (consult ask >>= f).run u = (r, t)) :
    (∃ g, r = .error g ∧ After task isLast a v s (.error g) t) ∨
    ∃ d w, (s.rulingOn v).1.decision = .ok d ∧
      w.ledger = (s.ledger.going (successPhases v)).deciding (s.rulingOn v) ∧
      (f d).run w = (r, t) := by
  have hinputs : u.world.inputs = s.world.inputs := congrArg Ledger.inputs hu
  have hdecider : u.decider = s.decider := congrArg Ledger.decider hu
  obtain ⟨hresult, hledger⟩ := consult_run ask u
  rw [hinputs, hdecider, ← hask] at hresult hledger
  rw [hu] at hledger
  rcases bind_cases h with ⟨e, he, rfl⟩ | ⟨d, w, hw, ht⟩
  · rw [he] at hresult hledger
    cases hd : (s.rulingOn v).1.decision with
    | ok d =>
      rw [hd] at hresult
      cases hresult
    | error g =>
      rw [hd] at hresult
      cases hresult
      refine Or.inl ⟨_, rfl, .failed (.undecided hd) ?_⟩
      rw [hledger]
      exact (decides_rulingOn s v).going _
  · rw [hw] at hresult hledger
    cases hd : (s.rulingOn v).1.decision with
    | error g =>
      rw [hd] at hresult
      cases hresult
    | ok d' =>
      rw [hd] at hresult
      cases hresult
      exact Or.inr ⟨d, w, rfl, hledger, ht⟩

theorem decides_of_ruling {u : Session}
    (h : u.ledger = (s.ledger.going (successPhases v)).deciding (s.rulingOn v)) :
    Decides (s.ledger.going (successPhases v)) u.ledger := by
  rw [h]
  exact (decides_rulingOn s v).going _

/-- After a decision to go on. -/
theorem Decides.retry {u : Session} (h : Decides (s.ledger.going (successPhases v)) u.ledger) :
    Decides (s.ledger.going (successPhases v ++ [.retry])) (u.ledger.going [.retry]) := by
  rw [← Ledger.going_going]
  exact h.going [.retry]

theorem run_say (line : String) (s : Session) :
    (say line).run s =
      (.ok (), { s with world := { s.world with printed := s.world.printed ++ line ++ "\n" } }) :=
  rfl

theorem append_ne_empty {x : String} (hx : x ≠ "") (y : String) : x ++ y ≠ "" :=
  fun h => hx (String.append_eq_empty_iff.mp h).1

/-- After a decision by which a document is accepted. -/
theorem after_settle {task : Task} {d : Decision} {intent document : String} {u : Session}
    {r : Except Failure Ending} (hv : v.success = true)
    (hwhole : task.whole a.document = .ok document)
    (hledger : Decides (s.ledger.going (successPhases v)) u.ledger)
    (hsave : d.kind = .save → (s.rulingOn v).1.decision = .ok d)
    (huses : d.kind = .extend → u.ledger.supply < s.ledger.supply)
    (h : (settle intent document v d).run u = (r, t)) :
    After task isLast a v s (r.map Sequel.ended) t := by
  rcases settle_cases h with ⟨f, rfl, hkind, hf, ht⟩ | ⟨saved, rfl, ht⟩
  · refine .failed (.unsaved hv (hsave hkind) hkind hf) ?_
    rw [ht]
    exact hledger
  · rw [successPhases_success hv] at hledger
    have hhistory : u.history = s.history := hledger.history
    rw [hhistory] at ht ⊢
    refine .accepted hv hwhole ?_ fun hfollowUp => ?_
    · rw [ht]
      exact hledger.accepting _
    -- only a decision to continue the document has an ending that asks for it
    · rw [ht]
      by_cases hkind : d.kind = .extend
      · exact huses hkind
      · rw [if_neg hkind] at hfollowUp
        cases hfollowUp

theorem after_abandon {task : Task} {reason : String} {u : Session} {r : Except Failure Ending}
    (hv : v.success = false) (hreason : reason ≠ "")
    (hledger : Decides (s.ledger.going (successPhases v)) u.ledger)
    (h : (abandon reason).run u = (r, t)) :
    After task isLast a v s (r.map Sequel.ended) t := by
  rw [successPhases_failure hv, Ledger.going_nil] at hledger
  obtain ⟨hresult, ht⟩ := abandon_run reason u
  rw [h] at hresult ht
  have hresult : r = _ := hresult
  have hhistory : u.history = s.history := hledger.history
  rw [hresult, hhistory]
  refine .abandoned hv hreason ?_
  rw [ht]
  exact hledger.going _

theorem Next.map_ended_toSequel (number : Nat) (r : Except Failure Ending) :
    (r.map Next.ended).map (Next.toSequel number) = r.map Sequel.ended := by
  cases r <;> rfl

theorem NextStep.map_ended_toSequel (existing : String) (r : Except Failure Ending) :
    (r.map NextStep.ended).map (NextStep.toSequel existing) = r.map Sequel.ended := by
  cases r <;> rfl

theorem afterSuccess_does {number : Nat} {intent : String} {document : Option String}
    {r : Except Failure Next} (hv : v.success = true)
    (h : (afterSuccess isLast intent a v).run s = (r, t)) :
    After (.fresh number intent document) isLast a v s (r.map (Next.toSequel number)) t := by
  have hruling := rulingOn_success (s := s) hv
  unfold afterSuccess at h
  rw [enter, run_bind_ok (run_modify _ s)] at h
  rcases ruling_cases (.fresh number intent document) isLast a hruling
    (by rw [successPhases_success hv]; rfl) h with ⟨g, rfl, hfailed⟩ | ⟨d, u, hd, hu, h⟩
  · exact hfailed
  have hledger := decides_of_ruling hu
  dsimp only at h
  by_cases hlast : (d.kind = .rerun ∨ d.kind = .feedback) ∧ isLast = true
  -- the cap: the document is accepted although another round was asked for
  · rw [if_pos hlast, run_bind_ok (run_get u), run_bind_ok (run_say _ u)] at h
    obtain ⟨q, hq, rfl⟩ := bind_pure_cases h
    rw [Next.map_ended_toSequel]
    refine after_settle hv rfl ?_ Decision.Kind.noConfusion Decision.Kind.noConfusion hq
    exact hledger
  rw [if_neg hlast] at h
  by_cases hrepeats : d.kind = .rerun ∨ d.kind = .feedback
  · have hmore : isLast = false := by
      cases isLast with
      | false => rfl
      | true => exact absurd ⟨hrepeats, rfl⟩ hlast
    rw [if_pos hrepeats, enter, run_bind_ok (run_modify _ u)] at h
    split at h
    · cases h
      exact .again hmore (.rerun number intent document hv) (Or.inl rfl) hledger.retry
    · cases h
      exact .again hmore (.anew number intent _ document) (Or.inl rfl) hledger.retry
  · rw [if_neg hrepeats] at h
    obtain ⟨q, hq, rfl⟩ := bind_pure_cases h
    rw [Next.map_ended_toSequel]
    refine after_settle hv rfl hledger (fun _ => hd) (fun hextend => ?_) hq
    rw [hruling] at hd
    rw [hu, hruling]
    refine Decider.onSuccess_supply_lt hd ?_ ?_
    · rw [hextend]
      exact Decision.Kind.noConfusion
    · rw [hextend]
      exact Decision.Kind.noConfusion

theorem afterFailure_does {number : Nat} {intent : String} {document : Option String}
    {r : Except Failure Next} (hv : v.success = false)
    (h : (afterFailure isLast intent a v).run s = (r, t)) :
    After (.fresh number intent document) isLast a v s (r.map (Next.toSequel number)) t := by
  have hnone : s.ledger = s.ledger.going (successPhases v) := by
    rw [successPhases_failure hv, Ledger.going_nil]
  unfold afterFailure at h
  cases isLast with
  | true =>
    rw [if_pos rfl, run_bind_ok (run_get s)] at h
    obtain ⟨q, hq, rfl⟩ := bind_pure_cases h
    rw [Next.map_ended_toSequel]
    refine after_abandon hv ?_ (hnone ▸ Decides.refl _) hq
    exact append_ne_empty (append_ne_empty (append_ne_empty (by decide) _) _) _
  | false =>
    rw [if_neg Bool.false_ne_true] at h
    rcases ruling_cases (.fresh number intent document) false a (rulingOn_failure hv) hnone h with
      ⟨g, rfl, hfailed⟩ | ⟨d, u, hd, hu, h⟩
    · exact hfailed
    have hledger := decides_of_ruling hu
    by_cases habandon : d.kind = .abandon
    · rw [if_pos habandon] at h
      obtain ⟨q, hq, rfl⟩ := bind_pure_cases h
      rw [Next.map_ended_toSequel]
      exact after_abandon hv (append_ne_empty (by decide) _) hledger hq
    · rw [if_neg habandon, enter, run_bind_ok (run_modify _ u)] at h
      dsimp only at h
      split at h
      -- a modified instruction: the history begins anew, the number of the round does not
      · cases h
        exact .again rfl (.anew number intent _ document) (Or.inr rfl)
          (hledger.retry.turning [] _)
      · cases h
        exact .again rfl (.anew number intent _ document) (Or.inl rfl) hledger.retry
      · cases h
        exact .again rfl (.anew number intent _ document) (Or.inl rfl) hledger.retry
      · cases h
        exact .again rfl (.anew number intent _ document) (Or.inl rfl) hledger.retry

/-- What is saved of a continuation is what was decided to be saved. -/
theorem continuationDecision_save {d : Decision} (h : (continuationDecision d).kind = .save) :
    continuationDecision d = d := by
  unfold continuationDecision at h ⊢
  split at h
  · cases h
  · cases h
  · rfl

/-- A continuation is continued after a decision to do so or to improve it. -/
theorem continuationDecision_extend {d : Decision}
    (h : (continuationDecision d).kind = .extend) : d.kind = .feedback ∨ d.kind = .extend := by
  unfold continuationDecision at h
  split at h
  · cases h
  · rename_i hkind
    exact Or.inl hkind
  · exact Or.inr h

theorem acceptSteps_does {existing followUp : String} {history : List Attempt}
    {r : Except Failure Ending} (hv : v.success = true)
    (h : (acceptSteps existing followUp a v).run s = (r, t)) :
    After (.further existing followUp history) isLast a v s (r.map Sequel.ended) t := by
  have hruling := rulingOn_success (s := s) hv
  unfold acceptSteps at h
  rw [enter, run_bind_ok (run_modify _ s)] at h
  rcases bind_cases h with ⟨f, hf, rfl⟩ | ⟨joined, u, hu, h⟩
  · rw [run_lift] at hf
    obtain ⟨hjoin, rfl⟩ := Prod.mk.inj hf
    refine .failed (.unjoined hv hjoin) ?_
    rw [successPhases_success hv]
    exact Decides.refl _
  rw [run_lift] at hu
  obtain ⟨hjoined, rfl⟩ := Prod.mk.inj hu
  rcases ruling_cases (.further existing followUp history) isLast a hruling
    (by rw [successPhases_success hv]; rfl) h with ⟨g, rfl, hfailed⟩ | ⟨d, w, hd, hw, h⟩
  · exact hfailed
  -- what is said before the document is settled changes nothing in the account
  have hsettle : ∀ (intent : String) (x : Session), x.ledger = w.ledger →
      (settle intent joined v (continuationDecision d)).run x = (r, t) →
      After (.further existing followUp history) isLast a v s (r.map Sequel.ended) t := by
    intro intent x hx hq
    have hledger := decides_of_ruling hw
    rw [← hx] at hledger
    refine after_settle hv hjoined hledger (fun hsave => ?_) (fun hextend => ?_) hq
    · rw [continuationDecision_save hsave]
      exact hd
    · rw [hruling] at hd
      rw [hx, hw, hruling]
      refine Decider.onSuccess_supply_lt hd (fun hdone => ?_) (fun hsave => ?_)
      · rcases continuationDecision_extend hextend with hkind | hkind
        · cases hdone.symm.trans hkind
        · cases hdone.symm.trans hkind
      · rcases continuationDecision_extend hextend with hkind | hkind
        · cases hsave.symm.trans hkind
        · cases hsave.symm.trans hkind
  dsimp only at h
  split at h
  · rw [run_bind_ok (run_say _ w), run_bind_ok (run_get _)] at h
    refine hsettle _ _ ?_ h
    rfl
  · rw [run_bind_ok (run_get _)] at h
    exact hsettle _ w rfl h

theorem afterFailedSteps_does {existing followUp : String} {history attempts : List Attempt}
    {r : Except Failure NextStep} (hv : v.success = false)
    (h : (afterFailedSteps isLast followUp attempts a v).run s = (r, t)) :
    After (.further existing followUp history) isLast a v s
      (r.map (NextStep.toSequel existing)) t := by
  have hnone : s.ledger = s.ledger.going (successPhases v) := by
    rw [successPhases_failure hv, Ledger.going_nil]
  unfold afterFailedSteps at h
  cases isLast with
  | true =>
    rw [if_pos rfl, run_bind_ok (run_get s)] at h
    obtain ⟨q, hq, rfl⟩ := bind_pure_cases h
    rw [NextStep.map_ended_toSequel]
    refine after_abandon hv ?_ (hnone ▸ Decides.refl _) hq
    exact append_ne_empty (append_ne_empty (append_ne_empty (by decide) _) _) _
  | false =>
    rw [if_neg Bool.false_ne_true] at h
    rcases ruling_cases (.further existing followUp history) false a (rulingOn_failure hv) hnone h
      with ⟨g, rfl, hfailed⟩ | ⟨d, u, hd, hu, h⟩
    · exact hfailed
    have hledger := decides_of_ruling hu
    have hresumes : ∀ followUp' history', Resumes a v (.further existing followUp history)
        (.further existing followUp' history') :=
      fun followUp' history' => .further existing followUp followUp' history history' hv
    split at h
    · obtain ⟨q, hq, rfl⟩ := bind_pure_cases h
      rw [NextStep.map_ended_toSequel]
      exact after_abandon hv (append_ne_empty (by decide) _) hledger hq
    · cases h
      exact .again rfl (hresumes _ _) (Or.inl rfl) hledger.retry
    · cases h
      exact .again rfl (hresumes _ _) (Or.inl rfl) hledger.retry
    · cases h
      exact .again rfl (hresumes _ _) (Or.inl rfl) hledger.retry
    · cases h
      exact .again rfl (hresumes _ _) (Or.inl rfl) hledger.retry

/-- All that can come after an attempt and the judgement on it. -/
theorem after_does {task : Task} {r : Except Failure Sequel}
    (h : (task.after isLast a v).run s = (r, t)) : After task isLast a v s r t := by
  cases task with
  | fresh number intent document =>
    unfold Task.after at h
    rw [run_map] at h
    obtain ⟨rfl, rfl⟩ := Prod.mk.inj h
    cases hv : v.success with
    | true => exact afterSuccess_does hv rfl
    | false => exact afterFailure_does hv rfl
  | further existing followUp history =>
    unfold Task.after at h
    rw [run_map] at h
    obtain ⟨rfl, rfl⟩ := Prod.mk.inj h
    cases hv : v.success with
    | true =>
      rw [if_pos rfl, run_map, NextStep.map_ended_toSequel]
      exact acceptSteps_does hv rfl
    | false => exact afterFailedSteps_does hv rfl

/-! ## The whole round -/

/-- A round: what it works on, whether it is the last one, and where it starts. -/
structure Lap where
  task : Task
  isLast : Bool
  start : Session

namespace Lap

def result (x : Lap) : Except Failure Sequel :=
  ((x.task.round x.isLast).run x.start).1

def finish (x : Lap) : Session :=
  ((x.task.round x.isLast).run x.start).2

/-- The question whether a document has done what the round is to do. -/
def question (x : Lap) (document : String) (r : Report) : String :=
  Prompt.verification x.task.instruction document r (pageAnalysis x.start.history)

end Lap

/-- A round that has come to a judgement: the document that was run, the report on it, the attempt
and the judgement, with the session behind each part. -/
structure Trial (x : Lap) where
  document : String
  obtained : Session
  report : Report
  executed : Session
  attempt : Attempt
  verification : Verification
  concluded : Session
  obtains : x.task.obtain.run x.start = (.ok document, obtained)
  executes : (Session.executed x.task.instruction document).run obtained = (.ok report, executed)
  concludes : (Session.concluded { intent := x.task.instruction, document, report := some report }
    report).run executed = (.ok (attempt, verification), concluded)

namespace Trial

variable {x : Lap}

/-- The session with the attempt in its history. -/
def recorded (T : Trial x) : Session :=
  { T.concluded with history := T.concluded.history ++ [T.attempt] }

end Trial

/-- A round stops before it has come to a judgement. -/
structure Stops (x : Lap) : Prop where
  failed : ∃ f, x.result = .error f
  ledger : ∃ ps asked judged document report, ps <+: [Phase.execute, .verify] ∧
    AtMostOnce (x.task.prompt x.start) asked ∧ AtMostOnce (x.question document report) judged ∧
    x.finish.ledger = (x.start.ledger.going (x.task.opening ++ ps)).asking (asked ++ judged)

/-- The account after the run of the document of a round, as far as it came. -/
theorem executed_asked {task : Task} {s t u : Session} {document : String}
    {r : Except Failure Report} (hobtain : task.obtain.run s = (.ok document, t))
    (hexecuted : (executed task.instruction document).run t = (r, u)) :
    ∃ asked, AtMostOnce (task.prompt s) asked ∧
      u.ledger = (s.ledger.going (task.opening ++ executionPhases r)).asking asked := by
  obtain ⟨asked, honce, hledger⟩ := Task.obtain_asked hobtain
  refine ⟨asked, honce, ?_⟩
  rw [executed_ledger hexecuted, hledger, Ledger.asking_going, Ledger.going_going]

/-- The account after the judgement of a round, as far as it came. -/
theorem concluded_asked {x : Lap} {document : String} {report : Report} {t u w : Session}
    {r : Except Failure (Attempt × Verification)}
    (hobtain : x.task.obtain.run x.start = (.ok document, t))
    (hexecuted : (executed x.task.instruction document).run t = (.ok report, u))
    (hconcluded : (concluded { intent := x.task.instruction, document, report := some report }
      report).run u = (r, w)) :
    ∃ asked judged, AtMostOnce (x.task.prompt x.start) asked ∧
      AtMostOnce (x.question document report) judged ∧
      w.ledger = (x.start.ledger.going (x.task.opening ++ [.execute, .verify])).asking
        (asked ++ judged) := by
  obtain ⟨asked, honce, hledger⟩ := executed_asked hobtain hexecuted
  obtain ⟨judged, hjudged, hw⟩ := (concluded_cases hconcluded).1
  have hhistory : u.history = x.start.history := congrArg Ledger.history hledger
  refine ⟨asked, judged, honce, ?_, ?_⟩
  · unfold question at hjudged
    rw [hhistory] at hjudged
    exact hjudged
  · rw [hw, hledger, Ledger.asking_asking]
    rfl

theorem Trial.ledger {x : Lap} (T : Trial x) :
    ∃ asked judged, AtMostOnce (x.task.prompt x.start) asked ∧
      AtMostOnce (x.question T.document T.report) judged ∧
      T.recorded.ledger = ((x.start.ledger.going (x.task.opening ++ [.execute, .verify])).asking
        (asked ++ judged)).recording T.attempt := by
  obtain ⟨asked, judged, hasked, hjudged, hledger⟩ :=
    concluded_asked T.obtains T.executes T.concludes
  refine ⟨asked, judged, hasked, hjudged, ?_⟩
  rw [← hledger]
  rfl

/-- What a trial concludes of its attempt. -/
theorem Trial.concludes_attempt {x : Lap} (T : Trial x) :
    Concludes T.executed
      { intent := x.task.instruction, document := T.document, report := some T.report }
      T.report T.attempt T.verification :=
  (concluded_cases T.concludes).2 T.attempt T.verification rfl

/-- What follows on a trial is what comes after its judgement. -/
theorem Trial.run_after {x : Lap} (T : Trial x) :
    (x.task.after x.isLast T.attempt T.verification).run T.recorded = (x.result, x.finish) := by
  have h : (x.task.round x.isLast).run x.start = (x.result, x.finish) := rfl
  rw [round_eq, run_bind_ok T.obtains, run_bind_ok T.executes, run_bind_ok T.concludes] at h
  dsimp only at h
  rw [record, run_bind_ok (run_modify _ _)] at h
  exact h

/-- That is one of the things that can come after a judgement. -/
theorem Trial.does {x : Lap} (T : Trial x) :
    After x.task x.isLast T.attempt T.verification T.recorded x.result x.finish :=
  after_does T.run_after

/-- A round stops before it has come to a judgement, or it is a trial. -/
theorem Lap.stops_or_trial (x : Lap) : Stops x ∨ Nonempty (Trial x) := by
  have h : (x.task.round x.isLast).run x.start = (x.result, x.finish) := rfl
  rw [round_eq] at h
  -- each of the three parts can fail, and what was entered into the account until then stays
  rcases bind_cases h with ⟨f, hobtain, hf⟩ | ⟨document, t, hobtain, h⟩
  · obtain ⟨asked, hasked, hledger⟩ := Task.obtain_asked hobtain
    refine Or.inl ⟨⟨f, hf⟩, [], asked, [], "", default, List.nil_prefix, hasked,
      atMostOnce_nil _, ?_⟩
    rw [hledger, List.append_nil, List.append_nil]
  rcases bind_cases h with ⟨f, hexecuted, hf⟩ | ⟨report, u, hexecuted, h⟩
  · obtain ⟨asked, hasked, hledger⟩ := executed_asked hobtain hexecuted
    refine Or.inl ⟨⟨f, hf⟩, [.execute], asked, [], "", default, ⟨[.verify], rfl⟩, hasked,
      atMostOnce_nil _, ?_⟩
    rw [hledger, List.append_nil]
    rfl
  rcases bind_cases h with ⟨f, hconcluded, hf⟩ | ⟨⟨a, v⟩, w, hconcluded, h⟩
  · obtain ⟨asked, judged, hasked, hjudged, hledger⟩ :=
      concluded_asked hobtain hexecuted hconcluded
    exact Or.inl ⟨⟨f, hf⟩, [.execute, .verify], asked, judged, document, report,
      List.prefix_refl _, hasked, hjudged, hledger⟩
  · exact Or.inr ⟨⟨document, t, report, u, a, v, w, hobtain, hexecuted, hconcluded⟩⟩

/-- A round stops before it has come to a judgement, or it is a trial that something follows on. -/
theorem Lap.does (x : Lap) :
    Stops x ∨ ∃ T : Trial x, After x.task x.isLast T.attempt T.verification T.recorded
      x.result x.finish := by
  rcases x.stops_or_trial with hstops | ⟨⟨T⟩⟩
  · exact Or.inl hstops
  · exact Or.inr ⟨T, T.does⟩

end BrowserFlow.Session
