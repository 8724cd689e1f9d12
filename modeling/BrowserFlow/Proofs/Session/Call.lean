import BrowserFlow.Proofs.Session.Stint

/-!
# Calls one by one

A call of a session is told by its stints, from whatever session it is made (`Call.served`). A
round that fails ends its stint, and a stint that fails ends its call, both with the failure of the
round (`Served.failed_of_mem`). After a call, whatever came of it, there may be others, and a chain
of them is told by the stints of all (`Chain.told`).
-/

namespace BrowserFlow.Session

variable {s t : Session}

/-- What can be asked of a session. -/
inductive Call
  | run (intent : String)
  | extend (followUp : String)

/-- What a session does when it is called. -/
def Call.act : Call → Act Outcome
  | run intent => Session.run intent
  | extend followUp => Session.extend followUp

/-- A call by its stints. A call to continue what is not there is refused and has none. -/
inductive Served (s : Session) : Call → List Stint → Except Failure Outcome → Session → Prop
  | run {intent : String} {x : Stint} {stints : List Stint} {r : Except Failure Outcome}
      {t : Session} (opening : x.opening = .run) (task : x.task = .fresh 1 intent none)
      (start : x.start = s.begun intent) (works : Works x stints r t) :
      Served s (.run intent) stints r t
  | refused {followUp : String} (missing : s.continuation? followUp = none) :
      Served s (.extend followUp) [] (.error .notAccepted) s
  | extend {followUp : String} {x : Stint} {stints : List Stint} {r : Except Failure Outcome}
      {t : Session} (opening : x.opening = .extend)
      (task : s.continuation? followUp = some x.task) (start : x.start = s)
      (works : Works x stints r t) : Served s (.extend followUp) stints r t

theorem Call.served {c : Call} {r : Except Failure Outcome} (h : c.act.run s = (r, t)) :
    ∃ stints, Served s c stints r t := by
  cases c with
  | run intent =>
    obtain ⟨x, stints, hopening, htask, hstart, hworks⟩ := run_works h
    exact ⟨stints, .run hopening htask hstart hworks⟩
  | extend followUp =>
    rcases extend_works h with ⟨hmissing, rfl, rfl⟩ | ⟨x, stints, hopening, htask, hstart, hworks⟩
    · exact ⟨[], .refused hmissing⟩
    · exact ⟨stints, .extend hopening htask hstart hworks⟩

/-- A session that has accepted no document has nothing to continue. -/
theorem continuation?_eq_none (h : s.accepted.bind (·.document) = none ∨
    s.accepted.bind (·.document) = some "") (followUp : String) :
    s.continuation? followUp = none := by
  unfold continuation?
  rcases h with h | h
  · rw [h]
    rfl
  · rw [h]
    rfl

/-- Then a call to continue is refused, and nothing is done. -/
theorem extend_refused {followUp : String} (h : s.accepted.bind (·.document) = none ∨
    s.accepted.bind (·.document) = some "") :
    (Session.extend followUp).run s = (.error .notAccepted, s) := by
  have hmissing := continuation?_eq_none h followUp
  cases hrun : (Session.extend followUp).run s with
  | mk r t =>
    rcases extend_works hrun with ⟨-, rfl, rfl⟩ | ⟨x, stints, -, htask, -⟩
    · rfl
    · rw [hmissing] at htask
      cases htask

/-! ## Chains of calls -/

/-- A call of `run` and calls of `extend` behind it, whatever came of each. Between two calls the
world may change, and somebody else may decide from then on. -/
inductive Chain (s : Session) : Except Failure Outcome → Session → Prop
  | run {intent : String} {r : Except Failure Outcome} {t : Session}
      (call : (Session.run intent).run s = (r, t)) : Chain s r t
  | extend {q r : Except Failure Outcome} {t u : Session} {followUp : String}
      (before : Chain s q t) (world : World) (decider : Decider)
      (call : (Session.extend followUp).run { t with world, decider } = (r, u)) : Chain s r u

/-- Such calls by their stints. -/
inductive Told (s : Session) : List Stint → Except Failure Outcome → Session → Prop
  | run {intent : String} {stints : List Stint} {r : Except Failure Outcome} {t : Session}
      (served : Served s (.run intent) stints r t) : Told s stints r t
  | extend {q r : Except Failure Outcome} {t u : Session} {stints later : List Stint}
      {followUp : String} (before : Told s stints q t) (world : World) (decider : Decider)
      (served : Served { t with world, decider } (.extend followUp) later r u) :
      Told s (stints ++ later) r u

theorem Chain.told {r : Except Failure Outcome} (h : Chain s r t) :
    ∃ stints, Told s stints r t := by
  induction h with
  | @run intent r t call =>
    obtain ⟨stints, hserved⟩ := Call.served (c := .run intent) call
    exact ⟨stints, .run hserved⟩
  | @extend q r t u followUp before world decider call ih =>
    obtain ⟨stints, htold⟩ := ih
    obtain ⟨later, hserved⟩ := Call.served (c := .extend followUp) call
    exact ⟨stints ++ later, .extend htold world decider hserved⟩

/-! ## Failures -/

/-- Rounds on a task end with the first that fails. -/
theorem Runs.failed_of_mem {left : Nat} {task : Task} {laps : List Lap} {q : Except Failure Ending}
    (h : Runs left task s laps q t) {x : Lap} (hx : x ∈ laps) {f : Failure}
    (hf : x.result = .error f) : q = .error f ∧ t = x.finish := by
  induction h with
  | @failed left y g last result =>
    cases List.mem_singleton.mp hx
    cases result.symm.trans hf
    exact ⟨rfl, rfl⟩
  | @ended left y e last result =>
    cases List.mem_singleton.mp hx
    cases result.symm.trans hf
  | @again left y next laps q t last result later ih =>
    rcases List.mem_cons.mp hx with rfl | hx
    · cases result.symm.trans hf
    · exact ih hx

/-- Stints of a call end with the first that fails. -/
theorem Works.failed_of_mem {x : Stint} {stints : List Stint} {r : Except Failure Outcome}
    (h : Works x stints r t) {y : Stint} (hy : y ∈ stints) {f : Failure}
    (hf : y.result = .error f) : r = .error f ∧ t = y.finish := by
  induction h with
  | @failed x g result =>
    cases List.mem_singleton.mp hy
    cases result.symm.trans hf
    exact ⟨rfl, rfl⟩
  | @ended x e result done =>
    cases List.mem_singleton.mp hy
    cases result.symm.trans hf
  | @refused x e followUp result asks missing =>
    cases List.mem_singleton.mp hy
    cases result.symm.trans hf
  | @followed x z e followUp stints r t result asks opening task start later ih =>
    rcases List.mem_cons.mp hy with rfl | hy
    · cases result.symm.trans hf
    · exact ih hy

/-- A call ends with the first of its rounds that fails. -/
theorem Served.failed_of_mem {c : Call} {stints : List Stint} {r : Except Failure Outcome}
    (h : Served s c stints r t) {y : Stint} (hy : y ∈ stints) {x : Lap} (hx : x ∈ y.laps)
    {f : Failure} (hf : x.result = .error f) : r = .error f ∧ t = x.finish := by
  obtain ⟨hresult, hfinish⟩ := y.runs.failed_of_mem hx hf
  rw [← hfinish]
  cases h with
  | run opening task start works => exact works.failed_of_mem hy hresult
  | refused => cases hy
  | extend opening task start works => exact works.failed_of_mem hy hresult

end BrowserFlow.Session
