import BrowserFlow.Proofs.Session.Stint
import BrowserFlow.Proofs.World.Beside

/-!
# Sessions that differ in their attempts

Twins are sessions that are the same but for the attempts made, what was said and asked in them, and
the phases. Everything that a session does comes to the same in twins as long as the model is asked
the same, and of the attempts the model is told by the request for a document, by that for a
continuation, and by the page block of a question for a judgement. `Aligned` says when attempts that
differ make no difference to the last of these, and `Task.Tells` when they make none to the
first. Then whole rounds come to the same (`twin_rounds`), and so does what follows them
(`twin_followUps`).
-/

namespace BrowserFlow.Session

open Effect Planner

/-- The same session but for the attempts, which are in a relation, the phases, and what was said
and asked. Behind the requests `p` and `p'` it has asked the model the same in both, but in other
words. -/
structure Twin (p p' : List ModelRequest) (f : ModelRequest → ModelRequest)
    (H : List Attempt → List Attempt → Prop) (s s' : Session) : Prop where
  settings : s.settings = s'.settings
  decider : s.decider = s'.decider
  registry : s.registry = s'.registry
  context : s.context = s'.context
  intent : s.intent = s'.intent
  memory : s.memory = s'.memory
  world : s.world.Beside p p' f s'.world
  history : H s.history s'.history
  accepted : s.accepted.bind (·.document) = s'.accepted.bind (·.document)

/-- A relation of attempts that holds as long as there are none, and goes on to hold when one is
added, by which a question for a judgement is the same after attempts so related. -/
structure Aligned (H : List Attempt → List Attempt → Prop) : Prop where
  nil : H [] []
  append {h h' : List Attempt} (a : Attempt) : H h h' → H (h ++ [a]) (h' ++ [a])
  page {h h' : List Attempt} : H h h' → pageAnalysis h = pageAnalysis h'

/-- The request for a document on a task is the same after attempts in a relation. The request for a
continuation tells of the attempts at it alone, which belong to the task. -/
def Task.Tells (H : List Attempt → List Attempt → Prop) : Task → Prop
  | .fresh .. => ∀ h h', H h h' → h = h'
  | .further .. => True

theorem tells_fresh {H : List Attempt → List Attempt → Prop} (hH : ∀ h h', H h h' → h = h')
    (number : Nat) (intent : String) (document : Option String) :
    (Task.fresh number intent document).Tells H :=
  hH

theorem tells_further {H : List Attempt → List Attempt → Prop} (existing followUp : String)
    (history : List Attempt) : (Task.further existing followUp history).Tells H :=
  trivial

/-- With the page block of a judgement in other words, the question is the one after other
attempts. -/
def Rephrases (f : ModelRequest → ModelRequest) (H : List Attempt → List Attempt → Prop)
    (intent document : String) (r : Report) : Prop :=
  ∀ (h h' : List Attempt) (model : String) (temperature : Value), H h h' →
    f ⟨model, temperature, Prompt.verification intent document r (pageAnalysis h)⟩ =
      ⟨model, temperature, Prompt.verification intent document r (pageAnalysis h')⟩

variable {p p' : List ModelRequest} {f : ModelRequest → ModelRequest}
  {H : List Attempt → List Attempt → Prop} {s s' : Session} {α : Type}

theorem aligned_eq : Aligned Eq where
  nil := rfl
  append a h := congrArg (· ++ [a]) h
  page h := congrArg pageAnalysis h

/-- What was learnt of the page in the last attempt does not depend on those before it. -/
theorem pageAnalysis_append (h h' : List Attempt) (a : Attempt) :
    pageAnalysis (h ++ [a]) = pageAnalysis (h' ++ [a]) := by
  unfold pageAnalysis
  rw [List.getLast?_concat, List.getLast?_concat]

theorem aligned_page : Aligned fun h h' => pageAnalysis h = pageAnalysis h' where
  nil := rfl
  append _ _ := pageAnalysis_append _ _ _
  page h := h

theorem Aligned.rephrases (hH : Aligned H) (intent document : String) (r : Report) :
    Rephrases id H intent document r := by
  intro h h' model temperature hh
  rw [hH.page hh]
  rfl

namespace Twin

variable (h : Twin p p' f H s s')

include h

theorem planner : s.planner = s'.planner := by
  unfold Session.planner
  rw [h.settings]

theorem executor : s.executor = s'.executor := by
  unfold Session.executor
  rw [h.settings, h.registry]

theorem roundsLeft : s.roundsLeft = s'.roundsLeft := by
  unfold Session.roundsLeft
  rw [h.settings]

theorem supply : s.supply = s'.supply := by
  unfold Session.supply
  rw [h.decider, h.world.inputs]

end Twin

/-! ## Single acts -/

theorem twin_inWorld {x y : Effect Failure World α} (hxy : Parallel (World.Beside p p' f) Eq x y) :
    Parallel (Twin p p' f H) Eq (inWorld x) (inWorld y) :=
  parallel_zoom hxy (fun _ _ h => h.world) fun _ _ _ _ h hworld => { h with world := hworld }

theorem twin_byWorld {x y : Effect Fault World α} (hxy : Parallel (World.Beside p p' f) Eq x y) :
    Parallel (Twin p p' f H) Eq (byWorld x) (byWorld y) :=
  twin_inWorld (parallel_mapError hxy _)

theorem twin_say (line line' : String) : Parallel (Twin p p' f H) Eq (say line) (say line') :=
  twin_inWorld (World.link_beside.parallel_print line line')

theorem twin_enter (phase : Phase) : Parallel (Twin p p' f H) Eq (enter phase) (enter phase) :=
  parallel_modify fun _ _ h => { h with }

theorem twin_consult (ask : List String → Decider → Ruling × Decider) :
    Parallel (Twin p p' f H) Eq (consult ask) (consult ask) := by
  refine parallel_get_bind fun s s' h => ?_
  rw [h.decider, h.world.inputs]
  intro u u' _
  refine ⟨.refl (fun _ => rfl) _, ?_⟩
  exact { h with decider := rfl, world := { h.world with inputs := rfl } }

/-! ## The parts of a round -/

theorem twin_obtain {task : Task} (htask : task.Tells H) :
    Parallel (Twin p p' id H) Eq task.obtain task.obtain := by
  have hdocument : ∀ (m : Planner) (prompt said : String), Parallel (Twin p p' id H) Eq (do
      let document ← inWorld (m.generate prompt)
      say (said ++ document)
      return document) (do
      let document ← inWorld (m.generate prompt)
      say (said ++ document)
      return document) := fun m prompt said =>
    parallel_bind_eq (twin_inWorld (beside_generate m prompt)) fun _ =>
      parallel_bind_eq (twin_say _ _) fun _ => parallel_pure rfl
  cases task with
  | fresh number intent document =>
    have hannounce : Parallel (Twin p p' id H) Eq (announce number) (announce number) :=
      parallel_bind_eq (twin_say _ _) fun _ => parallel_get_bind fun _ _ _ =>
        parallel_bind_eq (twin_say _ _) fun _ => twin_say _ _
    refine parallel_bind_eq hannounce fun _ => ?_
    cases document with
    | some document => exact parallel_pure rfl
    | none =>
      refine parallel_bind_eq (twin_enter _) fun _ => parallel_get_bind fun s s' h => ?_
      rw [h.planner, htask _ _ h.history]
      exact hdocument _ _ _
  | further existing followUp history =>
    refine parallel_bind_eq (twin_enter _) fun _ => parallel_get_bind fun s s' h => ?_
    rw [h.planner, h.intent, h.world.page]
    exact hdocument _ _ _

theorem twin_runDocument (intent document : String) :
    Parallel (Twin p p' f H) Eq (runDocument intent document) (runDocument intent document) := by
  refine parallel_get_bind fun s s' h => ?_
  rw [h.registry]
  refine parallel_bind_eq (twin_inWorld (beside_read _ _)) fun actions => ?_
  refine parallel_get_bind fun u u' hu => ?_
  rw [hu.executor, hu.context]
  obtain ⟨hresult, hafter⟩ := Execution.beside_run u'.executor { instruction := some intent }
    u'.context actions hu.world
  generalize Execution.run u'.executor { instruction := some intent } u'.context actions u.world = r
    at hresult hafter ⊢
  generalize Execution.run u'.executor { instruction := some intent } u'.context actions
    u'.world = r' at hresult hafter ⊢
  obtain ⟨⟨result, context⟩, w⟩ := r
  obtain ⟨_, w'⟩ := r'
  obtain rfl := hresult
  exact fun _ _ _ =>
    ⟨.refl (fun _ => rfl) _, { hu with context := rfl, world := hafter }⟩

theorem twin_executed (intent document : String) :
    Parallel (Twin p p' f H) Eq (executed intent document) (executed intent document) :=
  parallel_bind_eq (twin_enter _) fun _ => parallel_bind_eq (twin_runDocument _ _) fun _ =>
    parallel_bind_eq (twin_enter _) fun _ => parallel_pure rfl

theorem twin_enriched (a : Attempt) (r : Report) :
    Parallel (Twin p p' f H) Eq (enriched a r) (enriched a r) := by
  have hlook : Parallel (Twin p p' f H) Eq look look := by
    refine parallel_get_bind fun s s' h => ?_
    rw [h.memory]
    refine parallel_bind_eq
      (twin_inWorld (parallel_attempt_eq (Perception.beside_look _ _ _))) fun seen => ?_
    cases seen with
    | ok found =>
      exact parallel_bind_eq (parallel_modify fun _ _ hu => { hu with memory := rfl }) fun _ =>
        parallel_pure rfl
    | error g => exact parallel_pure rfl
  refine parallel_bind_eq hlook fun seen => ?_
  cases seen with
  | error g =>
    exact parallel_bind_eq (twin_inWorld (World.link_beside.parallel_warn _ _)) fun _ =>
      parallel_pure rfl
  | ok digest =>
    exact parallel_bind_eq (twin_byWorld (Ranking.beside_suggest _ _ _ _ _)) fun _ =>
      parallel_pure rfl

/-- The judgement is the same, for a question in other words. -/
theorem twin_judge {intent document : String} {r : Report}
    (hf : Rephrases f H intent document r) :
    Parallel (Twin p p' f H) Eq (judge intent document r) (judge intent document r) := by
  refine parallel_get_bind fun s s' h => ?_
  rw [h.planner]
  refine parallel_bind_eq (twin_inWorld (parallel_attempt_eq
    (beside_judge _ (hf _ _ _ _ h.history)))) fun answer => ?_
  cases answer with
  | ok v => exact parallel_pure rfl
  | error g =>
    cases g with
    | verification reason raw =>
      exact parallel_bind_eq (twin_inWorld (World.link_beside.parallel_warn _ _)) fun _ =>
        parallel_pure rfl
    | _ => exact parallel_throw _

theorem twin_concluded {a : Attempt} {r : Report} (hf : Rephrases f H a.intent a.document r) :
    Parallel (Twin p p' f H) Eq (concluded a r) (concluded a r) := by
  have hjudged : Parallel (Twin p p' f H) Eq (judged a r) (judged a r) := by
    unfold judged
    refine parallel_ite ?_ ?_
    · exact parallel_bind_eq (twin_say _ _) fun _ =>
        parallel_bind_eq (twin_enriched a r) fun _ => parallel_pure rfl
    · exact parallel_bind_eq (twin_judge hf) fun _ => parallel_pure rfl
  have hjournaled : ∀ b : Attempt, Parallel (Twin p p' f H) Eq (journaled b r) (journaled b r) := by
    intro b
    refine parallel_get_bind fun s s' h => ?_
    rw [h.settings, h.world.page]
    exact parallel_bind_eq (twin_byWorld (Journal.beside_create _ _ _ _ _ _)) fun _ =>
      parallel_pure rfl
  exact parallel_bind_eq hjudged fun b => parallel_bind_eq (twin_say _ _) fun _ =>
    parallel_bind_eq (hjournaled b) fun _ => parallel_pure rfl

/-! ## What comes behind a judgement -/

/-- Two endings ask for the same continuation. -/
def Ending.Alike (e e' : Ending) : Prop :=
  e.followUp = e'.followUp

/-- The same comes after two rounds, and what is asked of it does not depend on the attempts. -/
inductive Sequel.Alike (H : List Attempt → List Attempt → Prop) : Sequel → Sequel → Prop
  | ended {e e' : Ending} (asks : e.Alike e') : Alike H (.ended e) (.ended e')
  | again {task : Task} (tells : task.Tells H) : Alike H (.again task) (.again task)

theorem twin_abandon (reason reason' : String) :
    Parallel (Twin p p' f H) Ending.Alike (abandon reason) (abandon reason') :=
  parallel_bind_eq (twin_enter _) fun _ => parallel_bind_eq (twin_say _ _) fun _ =>
    parallel_get_bind fun _ _ _ => parallel_pure rfl

theorem twin_settle (intent document : String) (v : Verification) (d : Decision) :
    Parallel (Twin p p' f H) Ending.Alike (settle intent document v d)
      (settle intent document v d) := by
  have hsave : Parallel (Twin p p' f H) Eq (saveAs intent document d.text)
      (saveAs intent document d.text) := by
    refine parallel_get_bind fun s s' h => ?_
    rw [h.settings]
    exact parallel_bind_eq (twin_byWorld (Library.beside_save _ _)) fun _ =>
      parallel_bind_eq (twin_say _ _) fun _ => parallel_pure rfl
  have haccepting : ∀ saved, Parallel (Twin p p' f H) Ending.Alike
      (accepting document v d saved) (accepting document v d saved) :=
    fun saved => parallel_get_bind fun _ _ _ =>
      parallel_bind_eq (parallel_modify fun _ _ h => { h with accepted := rfl }) fun _ =>
        parallel_bind_eq (twin_say _ _) fun _ => parallel_pure rfl
  rw [settle_eq]
  refine parallel_ite ?_ (haccepting none)
  exact parallel_bind_eq (parallel_map hsave fun _ _ h => congrArg some h) haccepting

/-- The same comes after two rounds of some number on instructions. -/
def Next.Alike (H : List Attempt → List Attempt → Prop) (number : Nat) (n n' : Next) : Prop :=
  (n.toSequel number).Alike H (n'.toSequel number)

/-- The same comes after two rounds on the continuation of an existing document. -/
def NextStep.Alike (H : List Attempt → List Attempt → Prop) (existing : String)
    (n n' : NextStep) : Prop :=
  (n.toSequel existing).Alike H (n'.toSequel existing)

theorem twin_afterSuccess {number : Nat} (isLast : Bool) (intent : String) (a : Attempt)
    (v : Verification) (hH : ∀ h h', H h h' → h = h') :
    Parallel (Twin p p' f H) (Next.Alike H number) (afterSuccess isLast intent a v)
      (afterSuccess isLast intent a v) := by
  have hsettle : ∀ d, Parallel (Twin p p' f H) (Next.Alike H number)
      (settle intent a.document v d >>= fun e => pure (Next.ended e))
      (settle intent a.document v d >>= fun e => pure (Next.ended e)) := fun d =>
    parallel_bind (twin_settle intent a.document v d) fun _ _ he => parallel_pure (.ended he)
  refine parallel_bind_eq (twin_enter _) fun _ => parallel_bind_eq (twin_consult _) fun d => ?_
  dsimp only
  split
  · exact parallel_get_bind fun s s' _ => parallel_bind_eq (twin_say _ _) fun _ => hsettle _
  · split
    · refine parallel_bind_eq (twin_enter _) fun _ => ?_
      split
      · exact parallel_pure (.again hH)
      · exact parallel_pure (.again hH)
    · exact hsettle d

theorem twin_afterFailure {number : Nat} (isLast : Bool) (intent : String) (a : Attempt)
    (v : Verification) (hH : ∀ h h', H h h' → h = h') (hnil : H [] []) :
    Parallel (Twin p p' f H) (Next.Alike H number) (afterFailure isLast intent a v)
      (afterFailure isLast intent a v) := by
  have habandon : ∀ reason reason', Parallel (Twin p p' f H) (Next.Alike H number)
      (abandon reason >>= fun e => pure (Next.ended e))
      (abandon reason' >>= fun e => pure (Next.ended e)) := fun reason reason' =>
    parallel_bind (twin_abandon reason reason') fun _ _ he => parallel_pure (.ended he)
  have hagain : ∀ next : String, Parallel (Twin p p' f H) (Next.Alike H number)
      (say ("↻ 重试，指令: " ++ next) >>= fun _ => pure (Next.again next none))
      (say ("↻ 重试，指令: " ++ next) >>= fun _ => pure (Next.again next none)) := fun next =>
    parallel_bind_eq (twin_say _ _) fun _ => parallel_pure (.again hH)
  unfold afterFailure
  dsimp only
  split
  · exact parallel_get_bind fun s s' _ => habandon _ _
  · refine parallel_bind_eq (twin_consult _) fun d => ?_
    split
    · exact habandon _ _
    · refine parallel_bind_eq (twin_enter _) fun _ => ?_
      split
      · -- another instruction: both histories begin anew
        refine parallel_bind_eq (parallel_modify fun _ _ h => ?_) fun _ => hagain _
        exact { h with intent := rfl, history := hnil }
      · exact hagain _
      · exact hagain _
      · exact hagain _

theorem twin_acceptSteps (existing followUp : String) (a : Attempt) (v : Verification) :
    Parallel (Twin p p' f H) Ending.Alike (acceptSteps existing followUp a v)
      (acceptSteps existing followUp a v) := by
  have hsettle : ∀ (joined : String) (d : Decision), Parallel (Twin p p' f H) Ending.Alike (do
      let intent := (← get).intent.getD "None"
      settle (intent ++ ". " ++ followUp) joined v d) (do
      let intent := (← get).intent.getD "None"
      settle (intent ++ ". " ++ followUp) joined v d) := by
    intro joined d
    refine parallel_get_bind fun s s' h => ?_
    rw [h.intent]
    exact twin_settle _ _ _ _
  refine parallel_bind_eq (twin_enter _) fun _ => ?_
  refine parallel_bind_eq (parallel_lift_eq _) fun joined => ?_
  refine parallel_bind_eq (twin_consult _) fun d => ?_
  dsimp only
  split
  · exact parallel_bind_eq (twin_say _ _) fun _ => hsettle _ _
  · exact hsettle _ _

theorem twin_afterFailedSteps {existing : String} (isLast : Bool) (followUp : String)
    (history : List Attempt) (a : Attempt) (v : Verification) :
    Parallel (Twin p p' f H) (NextStep.Alike H existing)
      (afterFailedSteps isLast followUp history a v)
      (afterFailedSteps isLast followUp history a v) := by
  have habandon : ∀ reason reason', Parallel (Twin p p' f H) (NextStep.Alike H existing)
      (abandon reason >>= fun e => pure (NextStep.ended e))
      (abandon reason' >>= fun e => pure (NextStep.ended e)) := fun reason reason' =>
    parallel_bind (twin_abandon reason reason') fun _ _ he => parallel_pure (.ended he)
  have hagain : ∀ (followUp : String) (history : List Attempt),
      Parallel (Twin p p' f H) (NextStep.Alike H existing)
      (enter .retry >>= fun _ => pure (NextStep.again followUp history))
      (enter .retry >>= fun _ => pure (NextStep.again followUp history)) := fun _ _ =>
    parallel_bind_eq (twin_enter _) fun _ => parallel_pure (.again trivial)
  unfold afterFailedSteps
  split
  · exact parallel_get_bind fun s s' _ => habandon _ _
  · refine parallel_bind_eq (twin_consult _) fun d => ?_
    split
    · exact habandon _ _
    · exact hagain _ _
    · exact hagain _ _
    · exact hagain _ _
    · exact hagain _ _

theorem twin_after {task : Task} (htask : task.Tells H) (hnil : H [] []) (isLast : Bool)
    (a : Attempt) (v : Verification) :
    Parallel (Twin p p' f H) (Sequel.Alike H) (task.after isLast a v) (task.after isLast a v) := by
  cases task with
  | fresh number intent document =>
    refine parallel_map (parallel_ite (twin_afterSuccess _ _ _ _ htask)
      (twin_afterFailure _ _ _ _ htask hnil)) fun _ _ h => h
  | further existing followUp history =>
    refine parallel_map (parallel_ite ?_ (twin_afterFailedSteps _ _ _ _ _)) fun _ _ h => h
    exact parallel_map (twin_acceptSteps _ _ _ _) fun _ _ he => .ended he

/-! ## Rounds and calls -/

theorem twin_record {a : Attempt} (hH : Aligned H) :
    Parallel (Twin p p' f H) Eq (record a) (record a) :=
  parallel_modify fun _ _ h => { h with history := hH.append a h.history }

/-- A round in which the model is asked the same. -/
theorem twin_round {task : Task} (hH : Aligned H) (htask : task.Tells H) (isLast : Bool) :
    Parallel (Twin p p' id H) (Sequel.Alike H) (task.round isLast) (task.round isLast) := by
  rw [round_eq]
  refine parallel_bind_eq (twin_obtain htask) fun document => ?_
  refine parallel_bind_eq (twin_executed _ _) fun report => ?_
  refine parallel_bind_eq (twin_concluded (hH.rephrases _ _ _)) fun (a, v) => ?_
  exact parallel_bind_eq (twin_record hH) fun _ => twin_after htask hH.nil _ _ _

theorem twin_rounds {task : Task} (hH : Aligned H) (htask : task.Tells H) (left : Nat) :
    Parallel (Twin p p' id H) Ending.Alike (task.rounds left) (task.rounds left) := by
  -- the next round has a task of its own, which again tells the same of both histories
  induction left generalizing task with
  | zero =>
    rw [rounds_eq]
    refine parallel_bind (twin_round hH htask _) fun next next' hnext => ?_
    cases hnext with
    | ended asks => exact parallel_pure asks
    | again tells => exact twin_abandon _ _
  | succ left ih =>
    rw [rounds_eq]
    refine parallel_bind (twin_round hH htask _) fun next next' hnext => ?_
    cases hnext with
    | ended asks => exact parallel_pure asks
    | again tells => exact ih tells

theorem twin_extendOnce (hH : Aligned H) (followUp : String) :
    Parallel (Twin p p' id H) Ending.Alike (extendOnce followUp) (extendOnce followUp) := by
  refine parallel_get_bind fun s s' h => ?_
  rw [h.accepted, h.roundsLeft]
  split
  · exact parallel_throw _
  · rename_i existing _
    exact twin_rounds hH (tells_further existing followUp []) _

theorem twin_continueFrom (hH : Aligned H) (left : Nat) {e e' : Ending} (he : e.Alike e') :
    Parallel (Twin p p' id H) (fun _ _ => True) (continueFrom left e) (continueFrom left e') := by
  induction left generalizing e e' with
  | zero => exact parallel_pure trivial
  | succ left ih =>
    unfold continueFrom
    rw [← (show e.followUp = e'.followUp from he)]
    cases e.followUp with
    | none => exact parallel_pure trivial
    | some followUp => exact parallel_bind (twin_extendOnce hH followUp) fun _ _ hlater => ih hlater

/-- The continuations of a call. -/
theorem twin_followUps (hH : Aligned H) {e e' : Ending} (he : e.Alike e') :
    Parallel (Twin p p' id H) (fun _ _ => True) (followUps e) (followUps e') := by
  refine parallel_get_bind fun s s' h => ?_
  rw [h.supply]
  exact twin_continueFrom hH _ he

/-- Rounds on a task and the continuations that their ending asks for. -/
theorem twin_call {task : Task} (hH : Aligned H) (htask : task.Tells H) (left : Nat) :
    Parallel (Twin p p' id H) (fun _ _ => True) (task.rounds left >>= followUps)
      (task.rounds left >>= followUps) :=
  parallel_bind (twin_rounds hH htask left) fun _ _ he => twin_followUps hH he

end BrowserFlow.Session
