import BrowserFlow.Proofs.Document.Joining
import BrowserFlow.Proofs.Session.Acceptance
import BrowserFlow.Proofs.Session.Call

/-!
# How the accepted document grows

A session holds the outcome that was settled last, whatever has happened since: only a round that
ends with an acceptance changes it (`Lap.accepted`). Its document is that of the first stint that
settled one, with the documents of all later ones joined to it, so that its actions are theirs one
after the other (`Grown`). The step is a stint, which starts a document or continues the accepted
one (`Stint.grown`), and from it this follows of calls and of chains of calls, some of which may
have failed.
-/

namespace BrowserFlow.Session

open Effect Document

variable {s t : Session}

/-! ## What is settled -/

/-- The outcome that an ending settles, if it is an acceptance. -/
def Ending.settled? (e : Ending) : Option Outcome :=
  if e.outcome.accepted then some e.outcome else none

/-- The outcome that a round settles. -/
def Lap.settled? (x : Lap) : Option Outcome :=
  match x.result with
  | .ok (.ended e) => e.settled?
  | _ => none

/-- The outcome that some rounds settle. -/
def settledBy (q : Except Failure Ending) : Option Outcome :=
  q.toOption.bind (·.settled?)

/-- The outcome that a stint settles. -/
def Stint.settled? (x : Stint) : Option Outcome :=
  settledBy x.result

/-- The document that a stint has had accepted, without what it continues: that of the attempt which
was tried last. -/
def Stint.added? (x : Stint) : Option String :=
  x.settled?.bind fun o => o.attempts.getLast?.map (·.document)

/-- Until a document has been judged, neither the commands nor what is accepted changes. -/
theorem Trial.keeps {x : Lap} (T : Trial x) :
    T.recorded.registry = x.start.registry ∧ T.recorded.accepted = x.start.accepted := by
  obtain ⟨_, _, -, -, hledger⟩ := T.ledger
  exact ⟨congrArg Ledger.registry hledger, congrArg Ledger.accepted hledger⟩

/-- Nothing that a round does changes the commands that a document can name. A round that settles
an outcome leaves that one as the accepted one, and any other round leaves what there was. -/
theorem Lap.keeps (x : Lap) : x.finish.registry = x.start.registry ∧
    x.finish.accepted = x.settled?.or x.start.accepted := by
  unfold Lap.settled?
  rcases x.does with hstops | ⟨T, hafter⟩
  · obtain ⟨f, hf⟩ := hstops.failed
    obtain ⟨_, _, _, _, _, -, -, -, hledger⟩ := hstops.ledger
    rw [hf]
    exact ⟨congrArg Ledger.registry hledger, congrArg Ledger.accepted hledger⟩
  · rw [← T.keeps.1, ← T.keeps.2]
    generalize x.result = r, x.finish = t at hafter
    cases hafter with
    | failed cause ledger => exact ⟨ledger.registry, ledger.accepted⟩
    | accepted success whole ledger uses => exact ⟨ledger.registry, ledger.accepted⟩
    | abandoned failure reasoned ledger => exact ⟨ledger.registry, ledger.accepted⟩
    | again more resumes kept ledger => exact ⟨ledger.registry, ledger.accepted⟩

theorem Lap.accepted (x : Lap) : x.finish.accepted = x.settled?.or x.start.accepted :=
  x.keeps.2

theorem Runs.accepted {left : Nat} {task : Task} {laps : List Lap} {q : Except Failure Ending}
    (h : Runs left task s laps q t) : t.accepted = (settledBy q).or s.accepted := by
  induction h with
  | @failed left x f last result =>
    have haccepted := x.accepted
    unfold Lap.settled? at haccepted
    rw [result] at haccepted
    exact haccepted
  | @ended left x e last result =>
    have haccepted := x.accepted
    unfold Lap.settled? at haccepted
    rw [result] at haccepted
    exact haccepted
  | @again left x next laps r t last result later ih =>
    have haccepted := x.accepted
    unfold Lap.settled? at haccepted
    rw [result] at haccepted
    rw [ih, haccepted]
    rfl

theorem Stint.accepted (x : Stint) : x.finish.accepted = x.settled?.or x.start.accepted :=
  x.runs.accepted

/-- The outcome that was settled last by some stints, or the one that there was before. -/
theorem getLast?_settled (x : Stint) (stints : List Stint) (o : Option Outcome) :
    (((x :: stints).filterMap Stint.settled?).getLast?).or o =
      ((stints.filterMap Stint.settled?).getLast?).or (x.settled?.or o) := by
  rw [List.filterMap_cons]
  cases x.settled? with
  | none => rfl
  | some settled =>
    dsimp only
    rw [List.getLast?_cons]
    cases (stints.filterMap Stint.settled?).getLast? with
    | none => rfl
    | some later => rfl

theorem Works.accepted {x : Stint} {stints : List Stint} {r : Except Failure Outcome}
    (h : Works x stints r t) :
    t.accepted = ((stints.filterMap Stint.settled?).getLast?).or x.start.accepted := by
  induction h with
  | @followed x y e followUp stints r t result asks opening task start later ih =>
    rw [ih, start, x.accepted, getLast?_settled]
  | _ =>
    rw [getLast?_settled]
    exact Stint.accepted _

/-! ## The registry -/

theorem Runs.registry {left : Nat} {task : Task} {laps : List Lap} {q : Except Failure Ending}
    (h : Runs left task s laps q t) :
    t.registry = s.registry ∧ ∀ x ∈ laps, x.start.registry = s.registry := by
  induction h with
  | @failed left x f last result =>
    refine ⟨x.keeps.1, fun y hy => ?_⟩
    rw [List.mem_singleton.mp hy]
  | @ended left x e last result =>
    refine ⟨x.keeps.1, fun y hy => ?_⟩
    rw [List.mem_singleton.mp hy]
  | @again left x next laps r t last result later ih =>
    refine ⟨ih.1.trans x.keeps.1, fun y hy => ?_⟩
    rcases List.mem_cons.mp hy with rfl | hy
    · rfl
    · exact (ih.2 y hy).trans x.keeps.1

/-! ## What can be read -/

theorem inWorld_ok {α : Type} {x : Effect Failure World α} {a : α}
    (h : (inWorld x).run s = (.ok a, t)) : (x.run s.world).1 = .ok a :=
  congrArg Prod.fst h

/-- A text that is obtained in the world and told of. -/
theorem told_ok {x : Effect Failure World String} {line : String → String} {text : String}
    (h : (inWorld x >>= fun text => say (line text) >>= fun _ => pure text : Act String).run s =
      (.ok text, t)) : (x.run s.world).1 = .ok text := by
  obtain ⟨a, u, ha, h⟩ := bind_ok h
  obtain ⟨_, v, -, h⟩ := bind_ok h
  have hsame : a = text := Except.ok.inj (congrArg Prod.fst h)
  rw [hsame] at ha
  exact inWorld_ok ha

/-- A document that was generated can be read. -/
theorem generate_reads {p : Planner} {prompt document : String} {w : World}
    (h : ((p.generate prompt).run w).1 = .ok document) :
    ∃ actions, (load .standard document).2 = .ok actions := by
  cases hraw : ((p.ask prompt).run w).1 with
  | error f =>
    unfold Planner.generate at h
    rw [run_bind, run_mapError, hraw] at h
    cases h
  | ok raw =>
    rw [Planner.generate_result hraw] at h
    cases hload : (load .standard (Reply.document raw)).2 with
    | error f =>
      rw [hload] at h
      cases h
    | ok actions =>
      rw [hload] at h
      have hdocument : Reply.document raw = document := Except.ok.inj h
      rw [← hdocument]
      exact ⟨actions, hload⟩

/-- A document that a task has run again can be read. -/
def Task.Readable (task : Task) : Prop :=
  ∀ document, task.document? = some document →
    ∃ actions, (load .standard document).2 = .ok actions

theorem Task.obtain_reads {task : Task} {document : String} (htask : task.Readable)
    (h : task.obtain.run s = (.ok document, t)) :
    ∃ actions, (load .standard document).2 = .ok actions := by
  cases task with
  | further existing followUp history =>
    change (obtainSteps existing followUp history).run s = _ at h
    unfold obtainSteps at h
    obtain ⟨_, _, -, h⟩ := bind_ok h
    obtain ⟨_, _, -, h⟩ := bind_ok h
    exact generate_reads (told_ok h)
  | fresh number intent repeated =>
    unfold Task.obtain at h
    obtain ⟨_, _, -, h⟩ := bind_ok h
    cases repeated with
    | some repeated =>
      cases h
      exact htask document rfl
    | none =>
      unfold Session.obtain at h
      obtain ⟨_, _, -, h⟩ := bind_ok h
      obtain ⟨_, _, -, h⟩ := bind_ok h
      exact generate_reads (told_ok h)

/-- A document that was run can be read. -/
theorem executed_reads {intent document : String} {report : Report}
    (h : (executed intent document).run s = (.ok report, t)) :
    ∃ actions, (load s.registry document).2 = .ok actions := by
  unfold executed at h
  rw [enter, run_bind_ok (run_modify _ s)] at h
  obtain ⟨report, u, hrun, -⟩ := bind_ok h
  unfold runDocument at hrun
  rw [run_bind_ok (run_get _)] at hrun
  obtain ⟨actions, v, hread, -⟩ := bind_ok hrun
  refine ⟨actions, ?_⟩
  have hresult := inWorld_ok hread
  rw [Planner.run_read] at hresult
  exact hresult

/-- The document of a trial can be read, with the standard commands and with those of the
session. -/
theorem Trial.reads {x : Lap} (T : Trial x) (htask : x.task.Readable) {registry : Registry}
    (hregistry : registry = .standard ∨ registry = x.start.registry) :
    ∃ actions, (load registry T.document).2 = .ok actions := by
  rcases hregistry with rfl | rfl
  · exact Task.obtain_reads htask T.obtains
  · obtain ⟨_, -, hledger⟩ := Task.obtain_asked T.obtains
    have hregistry : T.obtained.registry = x.start.registry := congrArg Ledger.registry hledger
    rw [← hregistry]
    exact executed_reads T.executes

theorem Lap.readable {x : Lap} {next : Task} (htask : x.task.Readable)
    (h : x.result = .ok (.again next)) : next.Readable := by
  rcases x.does with hstops | ⟨T, hafter⟩
  · obtain ⟨f, hf⟩ := hstops.failed
    rw [hf] at h
    cases h
  · rw [h] at hafter
    cases hafter with
    | again more resumes kept ledger =>
      intro document hdocument
      generalize x.task = task at resumes
      cases resumes with
      | anew => cases hdocument
      | further => cases hdocument
      | rerun number intent repeated success =>
        cases hdocument
        rw [T.concludes_attempt.document]
        exact T.reads htask (Or.inl rfl)

theorem Runs.readable {left : Nat} {task : Task} {laps : List Lap} {q : Except Failure Ending}
    (h : Runs left task s laps q t) (htask : task.Readable) : ∀ x ∈ laps, x.task.Readable := by
  induction h with
  | @failed left x f last result =>
    intro y hy
    rw [List.mem_singleton.mp hy]
    exact htask
  | @ended left x e last result =>
    intro y hy
    rw [List.mem_singleton.mp hy]
    exact htask
  | @again left x next laps r t last result later ih =>
    intro y hy
    rcases List.mem_cons.mp hy with rfl | hy
    · exact htask
    · exact ih (Lap.readable htask result) y hy

/-! ## A stint -/

/-- A stint that settles an outcome ends with it. -/
theorem Stint.ending_of_settled {x : Stint} {o : Outcome} (h : x.settled? = some o) :
    ∃ e, x.result = .ok e ∧ e.outcome = o ∧ o.state = .accept := by
  unfold Stint.settled? settledBy at h
  cases hresult : x.result with
  | error f =>
    rw [hresult] at h
    cases h
  | ok e =>
    rw [hresult] at h
    have hending : e.settled? = some o := h
    unfold Ending.settled? at hending
    split at hending
    · rename_i haccepted
      cases hending
      exact ⟨e, rfl, rfl, of_decide_eq_true haccepted⟩
    · cases hending

/-- A stint that settles an outcome does so with the trial of its last round. -/
theorem Stint.settles {x : Stint} {o : Outcome} (h : x.settled? = some o) :
    ∃ lap ∈ x.laps, ∃ T : Trial lap, x.added? = some T.document ∧
      lap.task.existing? = x.task.existing? ∧
      ∃ document, lap.task.whole T.document = .ok document ∧ o.document = some document := by
  obtain ⟨e, hresult, rfl, hstate⟩ := x.ending_of_settled h
  obtain ⟨lap, hlap, hended, -, hexisting⟩ := x.runs.last hresult
  obtain ⟨T, -, hlast, haccept⟩ := Lap.ended hended
  obtain ⟨-, -, document, hwhole, hdocument⟩ := haccept hstate
  refine ⟨lap, List.mem_of_getLast? hlap, T, ?_, hexisting, document, hwhole, hdocument⟩
  unfold Stint.added?
  rw [h]
  show Option.map _ e.outcome.attempts.getLast? = _
  rw [hlast]
  exact congrArg some T.concludes_attempt.document

/-- A stint begins with nothing to be run again, and it continues what is accepted, if there is
anything. -/
structure Stint.Begins (x : Stint) : Prop where
  new : x.task.document? = none
  existing : x.task.existing? = x.start.accepted.bind (·.document)

theorem Stint.Begins.readable {x : Stint} (h : x.Begins) : x.task.Readable := by
  intro document hrepeated
  rw [h.new] at hrepeated
  cases hrepeated

/-- What a stint has had written for a document that it continues is read back. -/
def Stint.Kept (x : Stint) : Prop :=
  ∀ existing added, x.task.existing? = some existing → x.added? = some added →
    Document.Kept existing added

/-- Some documents are read as some actions, each as its own. -/
def ReadAs (registry : Registry) (texts : List String) (actions : List (List Action)) : Prop :=
  texts.map (fun text => (load registry text).2) = actions.map .ok

theorem ReadAs.concat {registry : Registry} {texts : List String} {actions : List (List Action)}
    {text : String} {as : List Action} (h : ReadAs registry texts actions)
    (has : (load registry text).2 = .ok as) :
    ReadAs registry (texts ++ [text]) (actions ++ [as]) := by
  unfold ReadAs at h ⊢
  rw [List.map_append, List.map_append, h, List.map_singleton, has, List.map_singleton]

theorem Task.whole_eq_ok {task : Task} (h : task.existing? = none) (document : String) :
    task.whole document = .ok document := by
  cases task with
  | fresh number intent repeated => rfl
  | further existing followUp history => cases h

theorem Task.whole_eq_join {task : Task} {existing : String} (h : task.existing? = some existing)
    (document : String) : task.whole document = Document.join existing document := by
  cases task with
  | fresh number intent repeated => cases h
  | further other followUp history =>
    cases h
    rfl

/-- The accepted document has the actions of some documents one after the other; without these
nothing is accepted. -/
def Grown (registry : Registry) (added : List String) : Option Outcome → Prop
  | none => added = []
  | some o => ∃ document actions, o.document = some document ∧ ReadAs registry added actions ∧
      (load registry document).2 = .ok (numbered 1 actions.flatten)

theorem Grown.first {registry : Registry} {o : Outcome} {document : String} {as : List Action}
    (hdocument : o.document = some document) (has : (load registry document).2 = .ok as) :
    Grown registry [document] (some o) := by
  refine ⟨document, [as], hdocument, congrArg (fun r => [r]) has, ?_⟩
  rw [List.flatten_singleton, numbered_load has]
  exact has

theorem Grown.join {registry : Registry} {texts : List String} {o o' : Outcome}
    {existing added document : String} {as : List Action} (h : Grown registry texts (some o))
    (hexisting : o.document = some existing) (hkept : Document.Kept existing added)
    (hjoin : Document.join existing added = .ok document) (hdocument : o'.document = some document)
    (has : (load registry added).2 = .ok as) : Grown registry (texts ++ [added]) (some o') := by
  obtain ⟨_, actions, hsame, hreads, hload⟩ := h
  cases hexisting.symm.trans hsame
  refine ⟨document, actions ++ [as], hdocument, hreads.concat has, ?_⟩
  rw [load_join hjoin hkept hload has, numbered_append_numbered, List.flatten_append,
    List.flatten_singleton]

/-- What is accepted grows by the document that a stint has had accepted, if there is one. -/
theorem Stint.grown {x : Stint} {registry : Registry} {texts : List String} (hbegins : x.Begins)
    (hkept : x.Kept) (hregistry : registry = .standard ∨ registry = x.start.registry)
    (h : Grown registry texts x.start.accepted) :
    Grown registry (texts ++ x.added?.toList) x.finish.accepted := by
  rw [x.accepted]
  cases hsettled : x.settled? with
  | none =>
    have hadded : x.added? = none := by
      unfold Stint.added?
      rw [hsettled]
      rfl
    rw [hadded]
    show Grown registry (texts ++ []) x.start.accepted
    rw [List.append_nil]
    exact h
  | some o =>
    obtain ⟨lap, hlap, T, hadded, hexisting, document, hwhole, hdocument⟩ := x.settles hsettled
    obtain ⟨as, has⟩ := T.reads (x.runs.readable hbegins.readable lap hlap)
      ((x.runs.registry.2 lap hlap).symm ▸ hregistry)
    rw [hadded]
    show Grown registry (texts ++ [T.document]) (some o)
    rw [hbegins.existing] at hexisting
    cases haccepted : x.start.accepted with
    | none =>
      -- the first document is accepted as it is
      rw [haccepted] at h hexisting
      have hnone : texts = [] := h
      rw [Task.whole_eq_ok hexisting] at hwhole
      cases hwhole
      rw [hnone]
      exact .first hdocument has
    | some before =>
      -- the document is joined to the one that is accepted already
      rw [haccepted] at h hexisting
      have hgrown := h
      obtain ⟨existing, -, hbefore, -⟩ := hgrown
      have hstart : x.task.existing? = some existing := by
        rw [hbegins.existing, haccepted]
        exact hbefore
      rw [Task.whole_eq_join (hexisting.trans hbefore)] at hwhole
      exact h.join hbefore (hkept existing T.document hstart hadded) hwhole hdocument has

/-! ## Calls -/

/-- A stint on the accepted document begins with it. -/
theorem begins_of_continuation {x : Stint} {followUp : String} {u : Session}
    (htask : u.continuation? followUp = some x.task) (hstart : x.start = u) : x.Begins := by
  unfold continuation? at htask
  obtain ⟨existing, hexisting, hx⟩ := Option.map_eq_some_iff.mp htask
  obtain ⟨hdocument, -⟩ := Option.filter_eq_some_iff.mp hexisting
  refine ⟨?_, ?_⟩
  · rw [← hx]
    rfl
  · rw [← hx, hstart, hdocument]
    rfl

/-- A stint on an instruction begins with nothing. -/
theorem begins_of_run {x : Stint} {intent : String} (htask : x.task = .fresh 1 intent none)
    (hstart : x.start = s.begun intent) : x.Begins := by
  refine ⟨?_, ?_⟩
  · rw [htask]
    rfl
  · rw [htask, hstart]
    rfl

theorem filterMap_added (x : Stint) (stints : List Stint) :
    (x :: stints).filterMap Stint.added? =
      x.added?.toList ++ stints.filterMap Stint.added? := by
  rw [List.filterMap_cons]
  cases x.added? with
  | none => rfl
  | some text => rfl

section

variable {x : Stint} {stints : List Stint} {r : Except Failure Outcome}

theorem Works.registry (h : Works x stints r t) : t.registry = x.start.registry := by
  induction h with
  | @failed x f result => exact x.runs.registry.1
  | @ended x e result done => exact x.runs.registry.1
  | @refused x e followUp result asks missing => exact x.runs.registry.1
  | @followed x y e followUp stints r t result asks opening task start later ih =>
    rw [ih, start]
    exact x.runs.registry.1

theorem Works.grown (h : Works x stints r t) {registry : Registry} {added : List String}
    (hbegins : x.Begins) (hkept : ∀ y ∈ stints, y.Kept)
    (hregistry : registry = .standard ∨ registry = x.start.registry)
    (hgrown : Grown registry added x.start.accepted) :
    Grown registry (added ++ stints.filterMap Stint.added?) t.accepted := by
  induction h generalizing added with
  | @followed x y e followUp stints r t result asks opening task start later ih =>
    have hstint := x.grown hbegins (hkept x List.mem_cons_self) hregistry hgrown
    rw [filterMap_added, ← List.append_assoc]
    refine ih (begins_of_continuation task start) (fun z hz => hkept z (List.mem_cons_of_mem x hz))
      ?_ ?_
    · rw [start, x.runs.registry.1]
      exact hregistry
    · rw [start]
      exact hstint
  | _ =>
    rw [filterMap_added, List.filterMap_nil, List.append_nil]
    exact Stint.grown hbegins (hkept _ List.mem_cons_self) hregistry hgrown

/-- If there is nothing to decide with, no ending asks for a continuation. -/
theorem Works.single (h : Works x stints r t) (hsupply : x.start.ledger.supply = 0) :
    stints = [x] ∧ t = x.finish := by
  cases h with
  | followed result asks opening task start later =>
    have hless := x.runs.supply.2 _ result (by rw [asks]; rfl)
    rw [hsupply] at hless
    exact absurd hless (Nat.not_lt_zero _)
  | _ => exact ⟨rfl, rfl⟩

/-- The stints of a call behind the first one are continuations, and there are none if nothing is
accepted at the end of the first one. -/
theorem Works.continuations (h : Works x stints r t) :
    ∃ rest, stints = x :: rest ∧ (∀ y ∈ rest, y.opening = .followUp) ∧
      (x.finish.accepted = none → rest = []) := by
  induction h with
  | @followed x y e followUp stints r t result asks opening task start later ih =>
    obtain ⟨rest, hstints, hopenings, -⟩ := ih
    refine ⟨stints, rfl, fun z hz => ?_, fun hnone => ?_⟩
    · rw [hstints] at hz
      rcases List.mem_cons.mp hz with rfl | hz
      · exact opening
      · exact hopenings z hz
    · have hdocument : x.finish.accepted.bind (·.document) = none := by
        rw [hnone]
        rfl
      rw [continuation?_eq_none (Or.inl hdocument)] at task
      cases task
  | _ => exact ⟨[], rfl, fun y hy => (List.not_mem_nil hy).elim, fun _ => rfl⟩

end

section

variable {stints : List Stint} {r : Except Failure Outcome}

/-- What is accepted was settled last. -/
theorem Told.accepted (h : Told s stints r t) :
    t.accepted = (stints.filterMap Stint.settled?).getLast? := by
  induction h with
  | run served =>
    cases served with
    | run opening task start works =>
      rw [works.accepted, start]
      exact Option.or_none
  | extend before world decider served ih =>
    rw [List.filterMap_append, List.getLast?_append]
    cases served with
    | refused missing => exact ih
    | extend opening task start works =>
      rw [works.accepted, start, ← ih]

/-- The first stint is on the instruction, and the others continue what that one settled. -/
theorem Told.continuations (h : Told s stints r t) :
    ∃ first rest, stints = first :: rest ∧ first.opening = .run ∧
      (∀ x ∈ rest, x.opening ≠ .run) ∧ (first.settled? = none → rest = []) := by
  induction h with
  | run served =>
    cases served with
    | run opening task start works =>
      obtain ⟨rest, hstints, hopenings, hrest⟩ := works.continuations
      refine ⟨_, rest, hstints, opening, fun y hy => ?_, fun hnone => hrest ?_⟩
      · rw [hopenings y hy]
        exact Opening.noConfusion
      · rw [Stint.accepted, hnone, start]
        rfl
  | @extend q r t u stints later followUp before world decider served ih =>
    obtain ⟨first, rest, hstints, hfirst, hopenings, hrest⟩ := ih
    cases served with
    | refused missing =>
      refine ⟨first, rest, ?_, hfirst, hopenings, hrest⟩
      rw [List.append_nil, hstints]
    | extend opening task start works =>
      obtain ⟨more, hlater, hfollow, -⟩ := works.continuations
      refine ⟨first, rest ++ later, ?_, hfirst, fun y hy => ?_, fun hnone => ?_⟩
      · rw [hstints, List.cons_append]
      · rcases List.mem_append.mp hy with hy | hy
        · exact hopenings y hy
        · rw [hlater] at hy
          rcases List.mem_cons.mp hy with rfl | hy
          · rw [opening]
            exact Opening.noConfusion
          · rw [hfollow y hy]
            exact Opening.noConfusion
      · -- nothing was settled before, so that there was nothing to continue
        have hdocument : t.accepted.bind (·.document) = none := by
          rw [before.accepted, hstints, hrest hnone, List.filterMap_cons, hnone]
          rfl
        cases task.symm.trans (continuation?_eq_none (Or.inl hdocument) followUp)

theorem Told.registry (h : Told s stints r t) : t.registry = s.registry := by
  induction h with
  | run served =>
    cases served with
    | run opening task start works =>
      rw [works.registry, start]
      rfl
  | extend before world decider served ih =>
    cases served with
    | refused missing => exact ih
    | extend opening task start works =>
      rw [works.registry, start]
      exact ih

theorem Told.grown (h : Told s stints r t) {registry : Registry} (hkept : ∀ x ∈ stints, x.Kept)
    (hregistry : registry = .standard ∨ registry = s.registry) :
    Grown registry (stints.filterMap Stint.added?) t.accepted := by
  induction h with
  | @run intent stints r t served =>
    rw [← List.nil_append (stints.filterMap Stint.added?)]
    cases served with
    | run opening task start works =>
      refine works.grown (begins_of_run task start) hkept ?_ ?_
      · rw [start]
        exact hregistry
      · rw [start]
        rfl
  | @extend q r t u stints later followUp before world decider served ih =>
    have hbefore := ih fun x hx => hkept x (List.mem_append_left later hx)
    cases served with
    | refused missing =>
      rw [List.append_nil]
      exact hbefore
    | extend opening task start works =>
      rw [List.filterMap_append]
      refine works.grown (begins_of_continuation task start)
        (fun y hy => hkept y (List.mem_append_right stints hy)) ?_ ?_
      · rw [start]
        show registry = .standard ∨ registry = t.registry
        rw [before.registry]
        exact hregistry
      · rw [start]
        exact hbefore

end

/-! ## A continuation of a click -/

/-- A session in which the model answers with two documents of one click, each of which it then
judges a success. -/
def clicking : Session :=
  { settings := {}
    decider := .scripted [] []
    world := { replies := [.content (some "- click: a"), .content (some "success"),
      .content (some "- click: b"), .content (some "success")] } }

/-- The document of the attempt with which the accepted outcome was settled. -/
def lastAccepted? (s : Session) : Option String :=
  s.accepted.bind fun o => o.attempts.getLast?.map (·.document)

/-- A stint behind which another document was settled last has had that one accepted. -/
theorem Stint.added?_eq {x : Stint} (h : x.finish.lastAccepted? ≠ x.start.lastAccepted?) :
    x.added? = x.finish.lastAccepted? := by
  have haccepted := x.accepted
  unfold lastAccepted? at h ⊢
  unfold Stint.added?
  cases hsettled : x.settled? with
  | none =>
    rw [haccepted, hsettled] at h
    exact absurd rfl h
  | some o =>
    rw [haccepted, hsettled]
    rfl

/-- The calls of that session are two stints, and the second has a click accepted behind the click
of the first. -/
theorem told_clicking :
    ∃ r t x y, Chain clicking r t ∧ Told clicking [x, y] r t ∧
      t.lastAccepted? = some "- click: b" ∧
      x.task.existing? = none ∧ x.added? = some "- click: a" ∧
      y.task.existing? = some "- click: a" ∧ y.added? = some "- click: b" := by
  have hfirst : (((Session.run "go").run clicking).2.accepted.bind (·.document),
      ((Session.run "go").run clicking).2.lastAccepted?) =
        (some "- click: a", some "- click: a") := by decide +kernel
  have hsecond : ((Session.extend "on").run ((Session.run "go").run clicking).2).2.lastAccepted? =
      some "- click: b" := by decide +kernel
  generalize hrun : (Session.run "go").run clicking = p at hfirst hsecond
  obtain ⟨q, t⟩ := p
  generalize hextend : (Session.extend "on").run t = p at hsecond
  obtain ⟨r, u⟩ := p
  obtain ⟨hdocument, hlast⟩ := Prod.mk.inj hfirst
  have hchain : Chain clicking r u := .extend (.run hrun) t.world t.decider hextend
  obtain ⟨x, xs, hopening, htask, hstart, hworks⟩ := run_works hrun
  have hsupply : x.start.ledger.supply = 0 := by
    rw [hstart]
    rfl
  obtain ⟨rfl, rfl⟩ := hworks.single hsupply
  rcases extend_works hextend with ⟨-, -, rfl⟩ | ⟨y, ys, hopening', htask', hstart', hworks'⟩
  · exact absurd (hlast.symm.trans hsecond) (by decide)
  have hsupply' : y.start.ledger.supply = 0 := by
    rw [hstart']
    exact Nat.le_zero.mp (hsupply ▸ x.runs.supply.1)
  obtain ⟨rfl, rfl⟩ := hworks'.single hsupply'
  have htold : Told clicking [x, y] r y.finish :=
    .extend (.run (.run hopening htask hstart hworks)) x.finish.world x.finish.decider
      (.extend hopening' htask' hstart' hworks')
  refine ⟨r, y.finish, x, y, hchain, htold, hsecond, ?_, ?_, ?_, ?_⟩
  · rw [htask]
    rfl
  · rw [x.added?_eq, hlast]
    rw [hlast, hstart]
    exact Option.some_ne_none _
  · rw [(begins_of_continuation htask' hstart').existing, hstart']
    exact hdocument
  · rw [y.added?_eq, hsecond]
    rw [hsecond, hstart', hlast]
    decide

/-! ## What is accepted -/

/-- What a session has accepted, after a call of `run` and any calls of `extend`. It is the outcome
that was settled last, and rounds that settle none leave it as it was. If what is written for a
document that is joined to another is read back, the accepted document has the actions of the
document that `run` settled and then those of every continuation that was settled, with their
places counted from one. Without an accepted document a continuation is refused, and nothing is
done. -/
theorem accepted_grows :
    (∀ {s t : Session} {r : Except Failure Outcome}, Chain s r t → ∃ stints, Told s stints r t) ∧
    (∀ {s t : Session} {r : Except Failure Outcome} {stints : List Stint}, Told s stints r t →
      (∃ first rest, stints = first :: rest ∧ first.opening = .run ∧
        (∀ x ∈ rest, x.opening ≠ .run) ∧ (first.settled? = none → rest = [])) ∧
      t.accepted = (stints.filterMap Stint.settled?).getLast? ∧
      (∀ x ∈ stints, ∀ lap ∈ x.laps,
        lap.finish.accepted = lap.settled?.or lap.start.accepted) ∧
      ((∀ x ∈ stints, x.Kept) → ∀ registry, registry = .standard ∨ registry = s.registry →
        ∀ o, t.accepted = some o → ∃ document actions, o.document = some document ∧
          ReadAs registry (stints.filterMap Stint.added?) actions ∧
          (load registry document).2 = .ok (numbered 1 actions.flatten))) ∧
    ∀ {s : Session} {followUp : String},
      (s.accepted.bind (·.document) = none ∨ s.accepted.bind (·.document) = some "") →
      (Session.extend followUp).run s = (.error .notAccepted, s) := by
  refine ⟨Chain.told, fun {s t r stints} htold => ?_, extend_refused⟩
  refine ⟨htold.continuations, htold.accepted, fun x _ lap _ => lap.accepted, ?_⟩
  intro hkept registry hregistry o ho
  have hgrown := htold.grown hkept hregistry
  rw [ho] at hgrown
  exact hgrown

/-- Two clicks that are settled by two calls are accepted one after the other. Before these calls
there is nothing to continue. -/
theorem accepted_grows_clicking :
    (∃ r t stints, Chain clicking r t ∧ Told clicking stints r t ∧
      stints.filterMap Stint.added? = ["- click: a", "- click: b"] ∧
      ∃ o document actions, t.accepted = some o ∧ o.document = some document ∧
        ReadAs .standard ["- click: a", "- click: b"] actions ∧
        (load .standard document).2 = .ok (numbered 1 actions.flatten)) ∧
      (Session.extend "on").run clicking = (.error .notAccepted, clicking) := by
  refine ⟨?_, accepted_grows.2.2 (Or.inl rfl)⟩
  obtain ⟨r, t, x, y, hchain, htold, hlast, hx, hxAdded, hy, hyAdded⟩ := told_clicking
  have hadded : [x, y].filterMap Stint.added? = ["- click: a", "- click: b"] := by
    rw [filterMap_added, filterMap_added, hxAdded, hyAdded]
    rfl
  have hkept : ∀ z ∈ [x, y], z.Kept := by
    refine List.forall_mem_cons.mpr ⟨?_, List.forall_mem_singleton.mpr ?_⟩
    · intro existing added hexisting
      cases hx.symm.trans hexisting
    · intro existing added hexisting hadded
      cases hy.symm.trans hexisting
      cases hyAdded.symm.trans hadded
      exact kept_click_click
  obtain ⟨o, ho, -⟩ := Option.bind_eq_some_iff.mp hlast
  obtain ⟨document, actions, hdocument, hreads, hload⟩ :=
    (accepted_grows.2.1 htold).2.2.2 hkept .standard (Or.inl rfl) o ho
  rw [hadded] at hreads
  exact ⟨r, t, [x, y], hchain, htold, hadded, o, document, actions, ho, hdocument, hreads, hload⟩

end BrowserFlow.Session
