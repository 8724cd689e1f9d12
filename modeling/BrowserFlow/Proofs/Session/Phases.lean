import BrowserFlow.Proofs.Session.Stint

/-!
# The path through the phases

The phases of calls are a path of one machine. `Visit.mayFollow` is its table: which phase can come
after another, and which stints can begin there. A stint marks the first of its phases with the
one who has it done, so that the table can tell the document of another round from that of a
continuation.

A round passes through few phases (`Lap.passes`), and it ends where the next one can begin. By
induction on the rounds a stint is a path (`Runs.leads`), by induction on the stints a call is one
(`Works.leads`), and by induction on the calls so are all of them (`Story.path`).
-/

namespace BrowserFlow

/-- An outcome is that of an acceptance, or of a giving up, which leaves no document but a
reason. -/
inductive Outcome.Proper (o : Outcome) : Prop
  | accepted (state : o.state = .accept)
  | abandoned (state : o.state = .abandon) (document : o.document = none) (reason : o.reason ≠ "")

namespace Session

/-! ## The machine -/

/-- A phase that a session goes into, with the one who has a stint done if that begins there. -/
structure Visit where
  phase : Phase
  opening : Option Opening := none
  deriving Repr, DecidableEq

namespace Visit

/-- Whether a session can go on to a visit from a phase, before which it was in another. -/
def mayFollow (before : Option Phase) (last : Phase) (next : Visit) : Bool :=
  match last, next with
  | .generate, ⟨.execute, none⟩ => true
  | .execute, ⟨.verify, none⟩ => true
  | .verify, ⟨.accept, none⟩ | .verify, ⟨.retry, none⟩ | .verify, ⟨.abandon, none⟩ => true
  | .retry, ⟨.generate, none⟩ => true
  | .retry, ⟨.execute, none⟩ => before = some .accept
  | .accept, ⟨.retry, none⟩ => true
  | .accept, ⟨.generate, some .followUp⟩ | .accept, ⟨.generate, some .extend⟩ => true
  | .abandon, ⟨.generate, some .extend⟩ => true
  | _, _ => false

/-- Whether visits can come one after the other behind a phase and the one before it. -/
def lead (before : Option Phase) (last : Phase) : List Visit → Bool
  | [] => true
  | next :: rest => mayFollow before last next && lead (some last) next.phase rest

/-- A visit with which no stint begins. -/
def inside (p : Phase) : Visit :=
  ⟨p, none⟩

/-- Whether visits are a path of the machine, which begins with the document for a call of `run`. -/
def arePath : List Visit → Bool
  | [] => false
  | first :: rest => first == ⟨.generate, some .run⟩ && lead none .generate rest

/-- The last two phases after some visits. -/
def ends (before : Option Phase) (last : Phase) : List Visit → Option Phase × Phase
  | [] => (before, last)
  | next :: rest => ends (some last) next.phase rest

theorem ends_append (before : Option Phase) (last : Phase) (xs ys : List Visit) :
    ends before last (xs ++ ys) = ends (ends before last xs).1 (ends before last xs).2 ys := by
  induction xs generalizing before last with
  | nil => rfl
  | cons x rest ih => exact ih _ _

theorem lead_append (before : Option Phase) (last : Phase) (xs ys : List Visit) :
    lead before last (xs ++ ys) =
      (lead before last xs && lead (ends before last xs).1 (ends before last xs).2 ys) := by
  induction xs generalizing before last with
  | nil => rfl
  | cons x rest ih =>
    show (mayFollow before last x && lead (some last) x.phase (rest ++ ys)) =
      (mayFollow before last x && lead (some last) x.phase rest && _)
    rw [ih, Bool.and_assoc]
    rfl

theorem getLast?_phases (before : Option Phase) (last : Phase) (xs : List Visit) :
    (last :: xs.map (·.phase)).getLast? = some (ends before last xs).2 := by
  induction xs generalizing before last with
  | nil => rfl
  | cons x rest ih =>
    rw [List.map_cons, List.getLast?_cons_cons]
    exact ih _ _

end Visit

/-! ## Rounds -/

variable {s t : Session}

/-- What a round passes through behind the document for it, by what comes of the round. -/
inductive Passes : Except Failure Sequel → List Phase → Prop
  | failed {f : Failure} {ps : List Phase} (before : ps <+: [.execute, .verify, .accept]) :
      Passes (.error f) ps
  | ended {e : Ending} (proper : e.outcome.Proper)
      (asks : e.followUp.isSome → e.outcome.state = .accept) :
      Passes (.ok (.ended e)) [.execute, .verify, e.outcome.state]
  | improved {next : Task} (anew : next.document? = none) :
      Passes (.ok (.again next)) [.execute, .verify, .retry]
  | repeated {next : Task} : Passes (.ok (.again next)) [.execute, .verify, .accept, .retry]

/-- The phases that a round goes into. -/
def Lap.phases (x : Lap) : List Phase :=
  x.finish.phases.drop x.start.phases.length

/-- Without a success nothing leads to the same document again. -/
theorem Resumes.document?_eq_none {a : Attempt} {v : Verification} {task next : Task}
    (h : Resumes a v task next) (hv : v.success = false) : next.document? = none := by
  cases h with
  | anew => rfl
  | rerun number intent document success =>
    rw [hv] at success
    cases success
  | further => rfl

theorem Lap.passes (x : Lap) :
    ∃ ps, Passes x.result ps ∧ x.finish.phases = x.start.phases ++ (x.task.opening ++ ps) := by
  rcases x.does with hstops | ⟨T, hafter⟩
  · obtain ⟨ps, _, _, _, _, hps, -, -, hledger⟩ := hstops.ledger
    obtain ⟨f, hf⟩ := hstops.failed
    rw [hf]
    refine ⟨ps, .failed (hps.trans ⟨[.accept], rfl⟩), ?_⟩
    exact congrArg Ledger.phases hledger
  · obtain ⟨asked, judged, -, -, hledger⟩ := T.ledger
    have hphases : T.recorded.phases =
        x.start.phases ++ (x.task.opening ++ [.execute, .verify]) :=
      congrArg Ledger.phases hledger
    have hgoing : ∀ {qs : List Phase}, x.finish.phases = T.recorded.phases ++ qs →
        x.finish.phases = x.start.phases ++ (x.task.opening ++ ([.execute, .verify] ++ qs)) := by
      intro qs h
      rw [h, hphases, List.append_assoc, List.append_assoc]
    generalize x.result = r at hafter ⊢
    generalize hfinish : x.finish = u at hafter hgoing ⊢
    cases hafter with
    | failed cause ledger =>
      refine ⟨_, .failed ?_, hgoing ledger.phases⟩
      unfold successPhases
      split
      · exact List.prefix_refl _
      · exact ⟨[.accept], rfl⟩
    | accepted success whole ledger uses =>
      exact ⟨_, .ended (.accepted rfl) fun _ => rfl, hgoing ledger.phases⟩
    | abandoned failure reasoned ledger =>
      refine ⟨_, .ended (.abandoned rfl rfl reasoned) fun hsome => ?_,
        hgoing ledger.phases⟩
      cases hsome
    | again more resumes kept ledger =>
      have hgoing := hgoing ledger.phases
      cases hv : T.verification.success with
      | true =>
        rw [successPhases_success hv] at hgoing
        exact ⟨_, .repeated, hgoing⟩
      | false =>
        rw [successPhases_failure hv] at hgoing
        exact ⟨_, .improved (resumes.document?_eq_none hv), hgoing⟩

theorem Lap.phases_eq {x : Lap} {ps : List Phase} (h : x.finish.phases = x.start.phases ++ ps) :
    x.phases = ps := by
  unfold Lap.phases
  rw [h]
  exact List.drop_left

section

variable {before : Option Phase} {last : Phase}

/-- A path behind the run of a document is one from wherever that can be run. -/
theorem Visit.lead_execute {qs : List Phase}
    (hrun : mayFollow before last (.inside .execute) = true)
    (hqs : lead (some last) .execute (qs.map .inside) = true) :
    lead before last ((Phase.execute :: qs).map .inside) = true :=
  Bool.and_eq_true_iff.mpr ⟨hrun, hqs⟩

/-- What a round passes through is a path from wherever a document can be run. -/
theorem Passes.lead {r : Except Failure Sequel} {ps : List Phase} (h : Passes r ps)
    (hrun : Visit.mayFollow before last (.inside .execute) = true) :
    Visit.lead before last (ps.map .inside) = true := by
  cases h with
  | failed hprefix =>
    -- a beginning of the phases is a path as well
    rcases List.prefix_cons_iff.mp hprefix with rfl | ⟨qs, rfl, hqs⟩
    · rfl
    apply Visit.lead_execute hrun
    rcases List.prefix_cons_iff.mp hqs with rfl | ⟨rs, rfl, hrs⟩
    · rfl
    rcases List.prefix_cons_iff.mp hrs with rfl | ⟨ts, rfl, hts⟩
    · rfl
    rw [List.prefix_nil.mp hts]
    rfl
  | @ended e proper asks =>
    apply Visit.lead_execute hrun
    cases proper with
    | accepted state => rw [state]; rfl
    | abandoned state => rw [state]; rfl
  | improved anew => exact Visit.lead_execute hrun rfl
  | repeated => exact Visit.lead_execute hrun rfl

/-- Behind a round there is a path to where the document of the next one can be run. -/
theorem Passes.lead_again {next : Task} {ps : List Phase} (h : Passes (.ok (.again next)) ps)
    (hrun : Visit.mayFollow before last (.inside .execute) = true) :
    Visit.lead before last ((ps ++ next.opening).map .inside) = true ∧
      Visit.mayFollow
        (Visit.ends before last ((ps ++ next.opening).map .inside)).1
        (Visit.ends before last ((ps ++ next.opening).map .inside)).2
        (.inside .execute) = true := by
  unfold Task.opening
  cases h with
  | improved anew =>
    rw [anew]
    exact ⟨Visit.lead_execute hrun rfl, rfl⟩
  | repeated =>
    cases next.document? with
    | none => exact ⟨Visit.lead_execute hrun rfl, rfl⟩
    | some document => exact ⟨Visit.lead_execute hrun rfl, rfl⟩

end

/-! ## Stints and calls -/

/-- The phases of a stint are those of its rounds, and they are a path from wherever a document can
be run. If it ends, then in the phase of its outcome. -/
theorem Runs.leads {left : Nat} {task : Task} {laps : List Lap} {r : Except Failure Ending}
    (h : Runs left task s laps r t) :
    ∃ ps, t.phases = s.phases ++ (task.opening ++ ps) ∧
      laps.flatMap Lap.phases = task.opening ++ ps ∧
      ∀ before last, Visit.mayFollow before last (.inside .execute) = true →
        Visit.lead before last (ps.map .inside) = true ∧
        ∀ e, r = .ok e → e.outcome.Proper ∧ (e.followUp.isSome → e.outcome.state = .accept) ∧
          (Visit.ends before last (ps.map .inside)).2 = e.outcome.state := by
  induction h with
  | @failed left x f isLast result =>
    obtain ⟨ps, hpasses, hphases⟩ := x.passes
    refine ⟨ps, hphases, ?_, fun before last hrun => ⟨hpasses.lead hrun, fun e he => ?_⟩⟩
    · rw [List.flatMap_cons, List.flatMap_nil, List.append_nil, Lap.phases_eq hphases]
    · cases he
  | @ended left x e isLast result =>
    obtain ⟨ps, hpasses, hphases⟩ := x.passes
    refine ⟨ps, hphases, ?_, fun before last hrun => ⟨hpasses.lead hrun, fun e' he => ?_⟩⟩
    · rw [List.flatMap_cons, List.flatMap_nil, List.append_nil, Lap.phases_eq hphases]
    · cases he
      rw [result] at hpasses
      cases hpasses with
      | ended proper asks => exact ⟨proper, asks, rfl⟩
  | @again left x next laps r t isLast result later ih =>
    obtain ⟨ps, hpasses, hphases⟩ := x.passes
    obtain ⟨qs, hlater, hlaps, hpath⟩ := ih
    rw [result] at hpasses
    refine ⟨ps ++ next.opening ++ qs, ?_, ?_, fun before last hrun => ?_⟩
    · rw [hlater, hphases]
      simp only [List.append_assoc]
    · rw [List.flatMap_cons, hlaps, Lap.phases_eq hphases]
      simp only [List.append_assoc]
    · obtain ⟨hlead, hnext⟩ := hpasses.lead_again hrun
      obtain ⟨hrest, hend⟩ := hpath _ _ hnext
      rw [List.map_append, Visit.lead_append, Visit.ends_append, Bool.and_eq_true_iff]
      exact ⟨⟨hlead, hrest⟩, hend⟩

namespace Stint

def phases (x : Stint) : List Phase :=
  x.laps.flatMap Lap.phases

/-- The phases of a stint as visits, the first of which tells who has the stint done. -/
def visits (x : Stint) : List Visit :=
  match x.phases with
  | [] => []
  | p :: ps => ⟨p, some x.opening⟩ :: ps.map .inside

theorem map_phase_inside (ps : List Phase) : (ps.map Visit.inside).map (·.phase) = ps := by
  rw [List.map_map]
  exact List.map_id ps

theorem map_phase_visits (x : Stint) : x.visits.map (·.phase) = x.phases := by
  unfold visits
  cases x.phases with
  | nil => rfl
  | cons p ps => exact congrArg (p :: ·) (map_phase_inside ps)

theorem map_phase_flatMap_visits (stints : List Stint) :
    (stints.flatMap visits).map (·.phase) = stints.flatMap phases := by
  induction stints with
  | nil => rfl
  | cons x rest ih =>
    rw [List.flatMap_cons, List.flatMap_cons, List.map_append, map_phase_visits, ih]

/-- A stint that begins with a document to be made is a path from there. -/
theorem leads (x : Stint) (h : x.task.document? = none) :
    x.finish.phases = x.start.phases ++ x.phases ∧
    ∃ rest, x.visits = ⟨.generate, some x.opening⟩ :: rest ∧
      ∀ before, Visit.lead before .generate rest = true ∧
        ∀ e, x.result = .ok e → e.outcome.Proper ∧
          (e.followUp.isSome → e.outcome.state = .accept) ∧
          (Visit.ends before .generate rest).2 = e.outcome.state := by
  obtain ⟨ps, hphases, hlaps, hpath⟩ := x.runs.leads
  have hopening : x.task.opening = [.generate] := by
    unfold Task.opening
    rw [h]
    rfl
  rw [hopening] at hphases hlaps
  have hx : x.phases = .generate :: ps := hlaps
  refine ⟨?_, ps.map .inside, ?_, fun before => hpath before .generate rfl⟩
  · rw [hphases, hx]
    rfl
  · unfold visits
    rw [hx]

end Stint

theorem continuation?_document? {followUp : String} {task : Task}
    (h : s.continuation? followUp = some task) : task.document? = none := by
  unfold continuation? at h
  obtain ⟨existing, -, rfl⟩ := Option.map_eq_some_iff.mp h
  rfl

/-- The stints of a call are a path, which ends in the phase of its outcome. -/
theorem Works.leads {x : Stint} {stints : List Stint} {r : Except Failure Outcome}
    (h : Works x stints r t) (hx : x.task.document? = none) :
    t.phases = x.start.phases ++ stints.flatMap Stint.phases ∧
    ∃ rest, stints.flatMap Stint.visits = ⟨.generate, some x.opening⟩ :: rest ∧
      ∀ before, Visit.lead before .generate rest = true ∧
        ∀ o, r = .ok o → o.Proper ∧ (Visit.ends before .generate rest).2 = o.state := by
  induction h with
  | @failed x f result =>
    obtain ⟨hphases, rest, hvisits, hpath⟩ := x.leads hx
    rw [List.flatMap_singleton, List.flatMap_singleton]
    exact ⟨hphases, rest, hvisits, fun before => ⟨(hpath before).1, fun o ho => by cases ho⟩⟩
  | @ended x e result done =>
    obtain ⟨hphases, rest, hvisits, hpath⟩ := x.leads hx
    rw [List.flatMap_singleton, List.flatMap_singleton]
    refine ⟨hphases, rest, hvisits, fun before => ⟨(hpath before).1, fun o ho => ?_⟩⟩
    cases ho
    obtain ⟨hproper, -, hend⟩ := (hpath before).2 e result
    exact ⟨hproper, hend⟩
  | @refused x e followUp result asks missing =>
    obtain ⟨hphases, rest, hvisits, hpath⟩ := x.leads hx
    rw [List.flatMap_singleton, List.flatMap_singleton]
    exact ⟨hphases, rest, hvisits, fun before => ⟨(hpath before).1, fun o ho => by cases ho⟩⟩
  | @followed x y e followUp stints r t result asks opening task start later ih =>
    obtain ⟨hphases, rest, hvisits, hpath⟩ := x.leads hx
    obtain ⟨hlater, rest', hvisits', hpath'⟩ := ih (continuation?_document? task)
    refine ⟨?_, rest ++ ⟨.generate, some .followUp⟩ :: rest', ?_, fun before => ?_⟩
    · rw [hlater, start, hphases, List.flatMap_cons, List.append_assoc]
    · rw [List.flatMap_cons, hvisits, hvisits', opening]
      rfl
    · obtain ⟨hlead, hend⟩ := hpath before
      obtain ⟨-, haccept, hstate⟩ := hend e result
      -- what asks for a continuation was accepted, and behind that one can begin
      rw [haccept (by rw [asks]; rfl)] at hstate
      rw [Visit.lead_append, Visit.ends_append, hstate, hlead]
      exact hpath' (some .accept)

/-- So are the stints of all calls. -/
theorem Story.leads {stints : List Stint} {r : Except Failure Outcome} (h : Story s stints r t) :
    t.phases = stints.flatMap Stint.phases ∧
    ∃ rest, stints.flatMap Stint.visits = ⟨.generate, some .run⟩ :: rest ∧
      Visit.lead none .generate rest = true ∧
      ∀ o, r = .ok o → o.Proper ∧ (Visit.ends none .generate rest).2 = o.state := by
  induction h with
  | @run intent x stints r t opening task start works =>
    obtain ⟨hphases, rest, hvisits, hpath⟩ := works.leads (by rw [task]; rfl)
    rw [start] at hphases
    rw [opening] at hvisits
    exact ⟨hphases, rest, hvisits, hpath none⟩
  | @refused o t stints followUp before world decider missing ih =>
    obtain ⟨hphases, rest, hvisits, hlead, -⟩ := ih
    exact ⟨hphases, rest, hvisits, hlead, fun o ho => by cases ho⟩
  | @extend o t u followUp x stints later r before world decider opening task start works ih =>
    obtain ⟨hphases, rest, hvisits, hlead, hend⟩ := ih
    obtain ⟨hlater, rest', hvisits', hpath'⟩ := works.leads (continuation?_document? task)
    obtain ⟨hproper, hstate⟩ := hend o rfl
    refine ⟨?_, rest ++ ⟨.generate, some .extend⟩ :: rest', ?_, ?_⟩
    · rw [hlater, start, List.flatMap_append, ← hphases]
    · rw [List.flatMap_append, hvisits, hvisits', opening]
      rfl
    · rw [Visit.lead_append, Visit.ends_append, hstate, hlead]
      -- a call can begin behind either outcome of the call before it
      cases hproper with
      | accepted state =>
        rw [state]
        exact hpath' (some .accept)
      | abandoned state =>
        rw [state]
        exact hpath' (some .abandon)

/-- The phases of a call of `run` and of calls of `extend` behind it are a path of the machine, and
a call that returns leaves the session in the phase of its outcome. That is an acceptance, or a
giving up with a reason and without a document. -/
theorem phases_path {r : Except Failure Outcome} (h : Calls s r t) :
    (∃ stints, Story s stints r t ∧
      (stints.flatMap Stint.visits).map (·.phase) = t.phases ∧
      Visit.arePath (stints.flatMap Stint.visits) = true) ∧
    ∀ o, r = .ok o → t.phase? = some o.state ∧ (o.state = .accept ∨ o.state = .abandon) ∧
      (o.state = .abandon → o.document = none ∧ o.reason ≠ "") := by
  obtain ⟨stints, hstory⟩ := h.story
  obtain ⟨hphases, rest, hvisits, hlead, hend⟩ := hstory.leads
  have hmap := Stint.map_phase_flatMap_visits stints
  refine ⟨⟨stints, hstory, ?_, ?_⟩, fun o ho => ?_⟩
  · rw [hmap, hphases]
  · rw [hvisits]
    exact hlead
  · obtain ⟨hproper, hstate⟩ := hend o ho
    refine ⟨?_, ?_⟩
    · unfold phase?
      rw [hphases, ← hmap, hvisits, ← hstate]
      exact Visit.getLast?_phases none .generate rest
    · cases hproper with
      | accepted state =>
        refine ⟨Or.inl state, fun h => ?_⟩
        rw [state] at h
        cases h
      | abandoned state document reason => exact ⟨Or.inr state, fun _ => ⟨document, reason⟩⟩

/-- The call is a path to an acceptance. -/
theorem phases_path_brief :
    ∃ o t, (Session.run "look").run brief = (.ok o, t) ∧
      t.phases = [.generate, .execute, .verify, .accept] ∧ t.phase? = some o.state := by
  have hreturns : ((Session.run "look").run brief).1.isOk = true := by decide +kernel
  have hphases : ((Session.run "look").run brief).2.phases =
      [.generate, .execute, .verify, .accept] := by decide +kernel
  generalize hrun : (Session.run "look").run brief = p at hreturns hphases ⊢
  obtain ⟨r, t⟩ := p
  cases r with
  | error f => cases hreturns
  | ok o => exact ⟨o, t, rfl, hphases, ((phases_path (.run hrun)).2 o rfl).1⟩

end Session

end BrowserFlow
