import BrowserFlow.Proofs.Session.Lap

/-!
# Stints and calls

The rounds on one task, one after the other up to the cap, are a stint, and `rounds_iff` says that
the rounds of the session are exactly the laps of a stint. A call of `run` is a stint on a new
instruction, with a stint for every continuation that an ending asks for, and a call of `extend`
is the same from a continuation on (`run_works`, `extend_works`). No continuation is left out,
although the session counts down while it follows endings up: an ending that asks for a
continuation has used up a decision (`Runs.supply`).

`Calls` are a call of `run` and calls of `extend` behind it, and a `Story` tells them by stints.
-/

namespace BrowserFlow.Session

open Effect

variable {s t : Session}

/-! ## Rounds one after the other -/

/-- Rounds on a task, of which `left` may follow the first. -/
def Task.rounds (left : Nat) : Task → Act Ending
  | fresh number intent document => Session.rounds number left intent document
  | further existing followUp history => stepRounds existing left followUp history

/-- The rounds that follow a round behind which `left` may follow. -/
def Task.later : Nat → Task → Act Ending
  | 0, _ => abandon ""
  | left + 1, task => task.rounds left

theorem rounds_eq (left : Nat) (task : Task) :
    task.rounds left = task.round (left == 0) >>= fun
      | .ended e => pure e
      | .again next => next.later left := by
  cases task with
  | fresh number intent document =>
    show Session.rounds number left intent document =
      (Next.toSequel number <$> Session.round number _ intent document) >>= _
    rw [bind_map_left]
    cases left with
    | zero =>
      rw [Session.rounds]
      congr 1
      funext next
      cases next <;> rfl
    | succ left =>
      rw [Session.rounds]
      congr 1
      funext next
      cases next <;> rfl
  | further existing followUp history =>
    show stepRounds existing left followUp history =
      (NextStep.toSequel existing <$> stepRound existing _ followUp history) >>= _
    rw [bind_map_left]
    cases left with
    | zero =>
      rw [stepRounds]
      congr 1
      funext next
      cases next <;> rfl
    | succ left =>
      rw [stepRounds]
      congr 1
      funext next
      cases next <;> rfl

theorem Lap.run_eq (x : Lap) : (x.task.round x.isLast).run x.start = (x.result, x.finish) := rfl

/-- The last round is followed by none. -/
theorem Lap.not_isLast {x : Lap} {next : Task} (h : x.result = .ok (.again next)) :
    x.isLast = false := by
  rcases x.does with hstops | ⟨T, hafter⟩
  · obtain ⟨f, hf⟩ := hstops.failed
    rw [hf] at h
    cases h
  · rw [h] at hafter
    cases hafter with
    | again more => exact more

/-- Rounds on a task, the last of which fails or gives an ending. There are `left` behind the
first at most, and only the one behind which none may follow is the last by rule. -/
inductive Runs : Nat → Task → Session → List Lap → Except Failure Ending → Session → Prop
  | failed {left : Nat} {x : Lap} {f : Failure} (last : x.isLast = (left == 0))
      (result : x.result = .error f) :
      Runs left x.task x.start [x] (.error f) x.finish
  | ended {left : Nat} {x : Lap} {e : Ending} (last : x.isLast = (left == 0))
      (result : x.result = .ok (.ended e)) :
      Runs left x.task x.start [x] (.ok e) x.finish
  | again {left : Nat} {x : Lap} {next : Task} {laps : List Lap} {r : Except Failure Ending}
      {t : Session} (last : x.isLast = false) (result : x.result = .ok (.again next))
      (later : Runs left next x.finish laps r t) :
      Runs (left + 1) x.task x.start (x :: laps) r t

/-- What comes of the first of some rounds, and what follows on it. -/
theorem rounds_cases {left : Nat} {task : Task} {r : Except Failure Ending}
    (h : (task.rounds left).run s = (r, t)) :
    let x : Lap := ⟨task, left == 0, s⟩
    (∃ f, x.result = .error f ∧ r = .error f ∧ t = x.finish) ∨
    (∃ e, x.result = .ok (.ended e) ∧ r = .ok e ∧ t = x.finish) ∨
    ∃ next n, x.result = .ok (.again next) ∧ left = n + 1 ∧
      (next.rounds n).run x.finish = (r, t) := by
  intro x
  rw [rounds_eq] at h
  rcases bind_cases h with ⟨f, hx, rfl⟩ | ⟨next, u, hx, h⟩
  · obtain ⟨hresult, rfl⟩ := Prod.mk.inj (x.run_eq.symm.trans hx)
    exact Or.inl ⟨f, hresult, rfl, rfl⟩
  · obtain ⟨hresult, rfl⟩ := Prod.mk.inj (x.run_eq.symm.trans hx)
    cases next with
    | ended e =>
      cases h
      exact Or.inr (Or.inl ⟨e, hresult, rfl, rfl⟩)
    | again next =>
      cases left with
      -- no round is left, and then a round gives no other one
      | zero => cases Lap.not_isLast hresult
      | succ n => exact Or.inr (Or.inr ⟨next, n, hresult, rfl, h⟩)

/-- The rounds of a session are exactly such rounds. -/
theorem rounds_iff {left : Nat} {task : Task} {r : Except Failure Ending} :
    (task.rounds left).run s = (r, t) ↔ ∃ laps, Runs left task s laps r t := by
  constructor
  -- from the rounds to the laps by induction on what is left, and back on the laps
  · intro h
    induction left generalizing task s with
    | zero =>
      rcases rounds_cases h with ⟨f, hx, rfl, rfl⟩ | ⟨e, hx, rfl, rfl⟩ | ⟨_, _, _, hleft, _⟩
      · exact ⟨_, .failed rfl hx⟩
      · exact ⟨_, .ended rfl hx⟩
      · cases hleft
    | succ left ih =>
      rcases rounds_cases h with ⟨f, hx, rfl, rfl⟩ | ⟨e, hx, rfl, rfl⟩ | ⟨next, _, hx, hleft, h⟩
      · exact ⟨_, .failed rfl hx⟩
      · exact ⟨_, .ended rfl hx⟩
      · cases hleft
        obtain ⟨laps, hlaps⟩ := ih h
        exact ⟨_, .again rfl hx hlaps⟩
  · rintro ⟨laps, h⟩
    induction h with
    | @failed left x f last result =>
      have hx := x.run_eq
      rw [last, result] at hx
      rw [rounds_eq, run_bind_error hx]
    | @ended left x e last result =>
      have hx := x.run_eq
      rw [last, result] at hx
      rw [rounds_eq, run_bind_ok hx]
      rfl
    | @again left x next laps r t last result later ih =>
      have hx : (x.task.round (left + 1 == 0)).run x.start = (.ok (.again next), x.finish) := by
        rw [← result, ← x.run_eq, last]
        rfl
      rw [rounds_eq, run_bind_ok hx]
      exact ih

/-! ## What is used up -/

theorem Trial.supply {x : Lap} (T : Trial x) :
    T.recorded.ledger.supply = x.start.ledger.supply := by
  obtain ⟨asked, judged, -, -, hledger⟩ := T.ledger
  rw [hledger]
  rfl

/-- There is no more to decide with after a round than before it, and less if its ending asks for
a continuation. -/
theorem Lap.supply (x : Lap) :
    x.finish.ledger.supply ≤ x.start.ledger.supply ∧
      ∀ e, x.result = .ok (.ended e) → e.followUp.isSome →
        x.finish.ledger.supply < x.start.ledger.supply := by
  rcases x.does with hstops | ⟨T, hafter⟩
  · obtain ⟨_, _, _, _, _, -, -, -, hledger⟩ := hstops.ledger
    obtain ⟨f, hf⟩ := hstops.failed
    rw [hledger, hf]
    refine ⟨Nat.le_refl _, fun e he => ?_⟩
    cases he
  · rw [← T.supply]
    generalize x.result = r, x.finish = t at hafter
    cases hafter with
    | failed cause ledger => exact ⟨ledger.supply, fun e he => by cases he⟩
    | accepted success whole ledger uses =>
      refine ⟨ledger.supply, fun e he => ?_⟩
      cases he
      exact uses
    | abandoned failure reasoned ledger =>
      refine ⟨ledger.supply, fun e he hsome => ?_⟩
      cases he
      cases hsome
    | again more resumes kept ledger => exact ⟨ledger.supply, fun e he => by cases he⟩

/-- So it is with rounds on a task. -/
theorem Runs.supply {left : Nat} {task : Task} {laps : List Lap} {r : Except Failure Ending}
    (h : Runs left task s laps r t) :
    t.ledger.supply ≤ s.ledger.supply ∧
      ∀ e, r = .ok e → e.followUp.isSome → t.ledger.supply < s.ledger.supply := by
  induction h with
  | @failed left x f last result => exact ⟨x.supply.1, fun e he => by cases he⟩
  | @ended left x e last result =>
    refine ⟨x.supply.1, fun e' he => ?_⟩
    cases he
    exact x.supply.2 e result
  | @again left x next laps r t last result later ih =>
    refine ⟨Nat.le_trans ih.1 x.supply.1, fun e he hsome => ?_⟩
    exact Nat.lt_of_lt_of_le (ih.2 e he hsome) x.supply.1

/-! ## Stints -/

/-- Who has a stint done: a call of `run`, a call of `extend`, or the ending of the stint before it
in the same call. -/
inductive Opening
  | run
  | extend
  | followUp
  deriving Repr, DecidableEq

/-- The rounds on one task, with what came of them. -/
structure Stint where
  opening : Opening
  task : Task
  start : Session
  laps : List Lap
  result : Except Failure Ending
  finish : Session
  runs : Runs start.roundsLeft task start laps result finish

/-- The task of continuing the accepted document, if there is one. -/
def continuation? (s : Session) (followUp : String) : Option Task :=
  (given? (s.accepted.bind (·.document))).map fun existing => .further existing followUp []

/-- Stints one after the other within a call, from the first of them on: as long as an ending asks
for a continuation, there is a stint on that. -/
inductive Works : Stint → List Stint → Except Failure Outcome → Session → Prop
  | failed {x : Stint} {f : Failure} (result : x.result = .error f) :
      Works x [x] (.error f) x.finish
  | ended {x : Stint} {e : Ending} (result : x.result = .ok e) (done : e.followUp = none) :
      Works x [x] (.ok e.outcome) x.finish
  | refused {x : Stint} {e : Ending} {followUp : String} (result : x.result = .ok e)
      (asks : e.followUp = some followUp) (missing : x.finish.continuation? followUp = none) :
      Works x [x] (.error .notAccepted) x.finish
  | followed {x y : Stint} {e : Ending} {followUp : String} {stints : List Stint}
      {r : Except Failure Outcome} {t : Session} (result : x.result = .ok e)
      (asks : e.followUp = some followUp) (opening : y.opening = .followUp)
      (task : x.finish.continuation? followUp = some y.task) (start : y.start = x.finish)
      (later : Works y stints r t) :
      Works x (x :: stints) r t

/-- A continuation is refused, or it is a stint. -/
theorem extendOnce_cases {followUp : String} {r : Except Failure Ending}
    (h : (extendOnce followUp).run s = (r, t)) (opening : Opening) :
    (s.continuation? followUp = none ∧ r = .error .notAccepted ∧ t = s) ∨
    ∃ x : Stint, x.opening = opening ∧ s.continuation? followUp = some x.task ∧ x.start = s ∧
      x.result = r ∧ x.finish = t := by
  unfold extendOnce at h
  rw [run_bind_ok (run_get s)] at h
  unfold continuation?
  cases hexisting : given? (s.accepted.bind (·.document)) with
  | none =>
    rw [hexisting] at h
    cases h
    exact Or.inl ⟨rfl, rfl, rfl⟩
  | some existing =>
    rw [hexisting] at h
    have hrounds : ((Task.further existing followUp []).rounds s.roundsLeft).run s = (r, t) := h
    obtain ⟨laps, hlaps⟩ := rounds_iff.1 hrounds
    exact Or.inr ⟨⟨opening, _, s, laps, r, t, hlaps⟩, rfl, rfl, rfl, rfl, rfl⟩

/-- The continuations that a session makes are all that are asked for, if it counts down from as
many as can be decided on. -/
theorem continueFrom_works {left : Nat} {x : Stint} {e : Ending} {r : Except Failure Outcome}
    (hx : x.result = .ok e) (hleft : e.followUp.isSome → x.finish.ledger.supply < left)
    (h : (continueFrom left e).run x.finish = (r, t)) : ∃ stints, Works x stints r t := by
  induction left generalizing x e with
  | zero =>
    -- there was nothing to decide with, so that nothing more is asked for
    have hnone : e.followUp = none := by
      cases hf : e.followUp with
      | none => rfl
      | some followUp =>
        rw [hf] at hleft
        exact absurd (hleft rfl) (Nat.not_lt_zero _)
    cases h
    exact ⟨[x], .ended hx hnone⟩
  | succ left ih =>
    unfold continueFrom at h
    cases hf : e.followUp with
    | none =>
      rw [hf] at h
      cases h
      exact ⟨[x], .ended hx hf⟩
    | some followUp =>
      rw [hf] at h hleft
      dsimp only at h
      rcases bind_cases h with ⟨f, hf', rfl⟩ | ⟨e', u, he, h⟩
      · rcases extendOnce_cases hf' .followUp with
          ⟨hnone, hr, rfl⟩ | ⟨y, hopening, htask, hstart, hresult, rfl⟩
        · cases hr
          exact ⟨[x], .refused hx hf hnone⟩
        · exact ⟨[x, y], .followed hx hf hopening htask hstart (.failed hresult)⟩
      · rcases extendOnce_cases he .followUp with
          ⟨-, hr, -⟩ | ⟨y, hopening, htask, hstart, hresult, rfl⟩
        · cases hr
        · -- the stint has used up what its ending was decided with
          have hless : e'.followUp.isSome → y.finish.ledger.supply < left := by
            intro hsome
            have hsupply := y.runs.supply.2 e' hresult hsome
            rw [hstart] at hsupply
            exact Nat.lt_of_lt_of_le hsupply (Nat.le_of_lt_succ (hleft rfl))
          obtain ⟨stints, hstints⟩ := ih hresult hless h
          exact ⟨x :: stints, .followed hx hf hopening htask hstart hstints⟩

/-- What a call goes on to after its first stint. -/
theorem followUps_works {x : Stint} {e : Ending} {r : Except Failure Outcome}
    (hx : x.result = .ok e) (h : (followUps e).run x.finish = (r, t)) :
    ∃ stints, Works x stints r t :=
  continueFrom_works hx (fun _ => Nat.lt_succ_self _) h

/-! ## Calls -/

/-- The session in which an instruction is begun. -/
def begun (s : Session) (intent : String) : Session :=
  { s with history := [], context := [], phases := [], intent := some intent, accepted := none }

/-- A call of `run` is a stint on the instruction and what its endings ask for. -/
theorem run_works {intent : String} {r : Except Failure Outcome}
    (h : (Session.run intent).run s = (r, t)) :
    ∃ x stints, x.opening = .run ∧ x.task = .fresh 1 intent none ∧ x.start = s.begun intent ∧
      Works x stints r t := by
  unfold Session.run at h
  rw [run_bind_ok (run_modify _ s), run_bind_ok (run_get _)] at h
  have hstint : ∀ {q u}, (Session.rounds 1 (s.begun intent).roundsLeft intent none).run
      (s.begun intent) = (q, u) → ∃ x : Stint, x.opening = .run ∧
        x.task = .fresh 1 intent none ∧ x.start = s.begun intent ∧ x.result = q ∧ x.finish = u := by
    intro q u hrounds
    have hrounds : ((Task.fresh 1 intent none).rounds (s.begun intent).roundsLeft).run
        (s.begun intent) = (q, u) := hrounds
    obtain ⟨laps, hlaps⟩ := rounds_iff.1 hrounds
    exact ⟨⟨.run, _, _, laps, q, u, hlaps⟩, rfl, rfl, rfl, rfl, rfl⟩
  rcases bind_cases h with ⟨f, hf, rfl⟩ | ⟨e, u, he, h⟩
  · obtain ⟨x, hopening, htask, hstart, hresult, rfl⟩ := hstint hf
    exact ⟨x, [x], hopening, htask, hstart, .failed hresult⟩
  · obtain ⟨x, hopening, htask, hstart, hresult, rfl⟩ := hstint he
    obtain ⟨stints, hstints⟩ := followUps_works hresult h
    exact ⟨x, stints, hopening, htask, hstart, hstints⟩

/-- A call of `extend` is refused, or it is a stint on a continuation and what its endings ask
for. -/
theorem extend_works {followUp : String} {r : Except Failure Outcome}
    (h : (Session.extend followUp).run s = (r, t)) :
    (s.continuation? followUp = none ∧ r = .error .notAccepted ∧ t = s) ∨
    ∃ x stints, x.opening = .extend ∧ s.continuation? followUp = some x.task ∧ x.start = s ∧
      Works x stints r t := by
  unfold Session.extend at h
  rcases bind_cases h with ⟨f, hf, rfl⟩ | ⟨e, u, he, h⟩
  · rcases extendOnce_cases hf .extend with
      ⟨hnone, hr, rfl⟩ | ⟨x, hopening, htask, hstart, hresult, rfl⟩
    · cases hr
      exact Or.inl ⟨hnone, rfl, rfl⟩
    · exact Or.inr ⟨x, [x], hopening, htask, hstart, .failed hresult⟩
  · rcases extendOnce_cases he .extend with
      ⟨-, hr, -⟩ | ⟨x, hopening, htask, hstart, hresult, rfl⟩
    · cases hr
    · obtain ⟨stints, hstints⟩ := followUps_works hresult h
      exact Or.inr ⟨x, stints, hopening, htask, hstart, hstints⟩

/-- A call of `run` and calls of `extend` behind it, none of which but the last has failed. Between
two calls the world may change, and somebody else may decide from then on. -/
inductive Calls (s : Session) : Except Failure Outcome → Session → Prop
  | run {intent : String} {r : Except Failure Outcome} {t : Session}
      (call : (Session.run intent).run s = (r, t)) : Calls s r t
  | extend {o : Outcome} {t u : Session} {followUp : String} {r : Except Failure Outcome}
      (before : Calls s (.ok o) t) (world : World) (decider : Decider)
      (call : (Session.extend followUp).run { t with world, decider } = (r, u)) : Calls s r u

/-- Such calls by their stints. -/
inductive Story (s : Session) : List Stint → Except Failure Outcome → Session → Prop
  | run {intent : String} {x : Stint} {stints : List Stint} {r : Except Failure Outcome}
      {t : Session} (opening : x.opening = .run) (task : x.task = .fresh 1 intent none)
      (start : x.start = s.begun intent) (works : Works x stints r t) : Story s stints r t
  | refused {o : Outcome} {t : Session} {stints : List Stint} {followUp : String}
      (before : Story s stints (.ok o) t) (world : World) (decider : Decider)
      (missing : ({ t with world, decider } : Session).continuation? followUp = none) :
      Story s stints (.error .notAccepted) { t with world, decider }
  | extend {o : Outcome} {t u : Session} {followUp : String} {x : Stint}
      {stints later : List Stint} {r : Except Failure Outcome}
      (before : Story s stints (.ok o) t) (world : World) (decider : Decider)
      (opening : x.opening = .extend)
      (task : ({ t with world, decider } : Session).continuation? followUp = some x.task)
      (start : x.start = { t with world, decider }) (works : Works x later r u) :
      Story s (stints ++ later) r u

theorem Calls.story {r : Except Failure Outcome} (h : Calls s r t) :
    ∃ stints, Story s stints r t := by
  induction h with
  | run call =>
    obtain ⟨x, stints, hopening, htask, hstart, hworks⟩ := run_works call
    exact ⟨stints, .run hopening htask hstart hworks⟩
  | extend before world decider call ih =>
    obtain ⟨stints, hstory⟩ := ih
    rcases extend_works call with ⟨hnone, rfl, rfl⟩ | ⟨x, later, hopening, htask, hstart, hworks⟩
    · exact ⟨stints, .refused hstory world decider hnone⟩
    · exact ⟨stints ++ later, .extend hstory world decider hopening htask hstart hworks⟩

/-- A session in which the model answers with a document without steps and then with a word. -/
def brief : Session :=
  { settings := {}
    decider := .scripted [] []
    world := { replies := [.content (some "[]"), .content (some "success")] } }

end BrowserFlow.Session
