import BrowserFlow.Proofs.Session.Cap
import BrowserFlow.Proofs.Session.Frame

/-!
# The journal of a session

Every round that returns makes one entry, and the attempt of the round carries the number of that
(`Trial.kept`). No part of a round does anything else to the journal, as long as no script puts its
data there, so the rounds of any number of calls append one entry each and leave all earlier ones
alone, also where the history begins anew (`Rounds.appends`). What is listed then are the entries so
far (`journal_appended`).

A script may give any path for its data, and that may lead from the folder of the data into the
journal (`not_appended_overwritten`).
-/

namespace BrowserFlow.Session

open Effect Planner
open Journal (Entry Kept Takes nextEntry entered others beside timeOf wanted)

variable {s t : Session} {x : Lap}

/-- An attempt that is entered carries the number of its entry, and if a file can be opened for that
the entry is put there as a whole. -/
theorem journaled_ok {b c : Attempt} {r : Report} (h : (journaled b r).run s = (.ok c, t)) :
    let e := nextEntry s.world r (.text s.world.page.url) b.digest .null
      (.ofOption .text b.analysis)
    c = { b with entryId := some e.id.plainText } ∧ t.settings = s.settings ∧
      ∀ k, Takes s.settings.journal e.id.plainText k s.world.disk →
        Json.writable true e.toValue = true ∧
        t.world.drawn = s.world.drawn + 1 ∧
        t.world.disk = entered s.settings.journal k e s.world.disk := by
  intro e
  unfold journaled at h
  rw [run_bind_ok (run_get s)] at h
  obtain ⟨made, u, hcreate, h⟩ := bind_ok h
  cases h
  obtain ⟨hmade, rfl⟩ := Prod.mk.inj hcreate
  dsimp only [run_zoom, run_mapError] at hmade ⊢
  rcases Journal.create_cases s.settings.journal r (.text s.world.page.url) b.digest .null
    (.ofOption .text b.analysis) s.world with ⟨k, htakes, hrun⟩ | ⟨hnone, f, hrun⟩
  · rw [hrun] at hmade ⊢
    cases he : Json.writable true e.toValue with
    | false =>
      rw [if_neg (by rw [he]; exact Bool.false_ne_true)] at hmade
      cases hmade
    | true =>
      rw [if_pos he] at hmade
      cases hmade
      refine ⟨rfl, rfl, fun k' htakes' => ⟨rfl, rfl, ?_⟩⟩
      rw [htakes.opens.unique htakes'.opens]
  · rw [hrun] at hmade ⊢
    cases hmade
    exact ⟨rfl, rfl, fun k htakes => absurd htakes (hnone k)⟩

/-- What is concluded is judged and then entered. -/
theorem concluded_ok {a c : Attempt} {r : Report} {v : Verification}
    (h : (concluded a r).run s = (.ok (c, v), t)) :
    ∃ b u printed, (Session.judged a r).run s = (.ok b, u) ∧
      (journaled b r).run { u with world := { u.world with printed } } = (.ok c, t) := by
  unfold concluded at h
  obtain ⟨b, u, hjudged, h⟩ := bind_ok h
  rw [run_bind_ok (run_say _ _)] at h
  obtain ⟨c', w, hjournaled, h⟩ := bind_ok h
  cases h
  exact ⟨b, u, _, hjudged, hjournaled⟩

namespace Trial

/-- The attempt of a round before it is judged. -/
def tried (T : Trial x) : Attempt :=
  { intent := x.task.instruction, document := T.document, report := some T.report }

/-- The session in which the attempt of a round has been judged. -/
def reviewed (T : Trial x) : Session :=
  ((Session.judged T.tried T.report).run T.executed).2

/-- The entry of a round: its report, the page at which it has arrived, and what was learnt and
thought of it. -/
def entry (T : Trial x) : Entry :=
  nextEntry T.reviewed.world T.report (.text T.reviewed.world.page.url) T.attempt.digest .null
    (.ofOption .text T.attempt.analysis)

/-- A file can be opened for the entry of a round. -/
def Written (T : Trial x) : Prop :=
  ∃ k, Takes x.start.settings.journal (World.identifier (T.reviewed.world.drawn + 1)) k
    T.reviewed.world.disk

/-- No script of a round has named a file for its data that is one of the journal. -/
def Aside (T : Trial x) : Prop :=
  ∀ st ∈ T.report.steps, ∀ name ∈ st.filename?, name ≠ "" →
    Disk.pathOf (Disk.trail (pathIn x.start.settings.data name)) ∈ others x.start.settings.journal

/-- The attempt carries the number of its entry, which is put into its file. -/
theorem journals (T : Trial x) :
    T.attempt.entryId = some T.entry.id.plainText ∧
      T.concluded.settings = T.reviewed.settings ∧
      ∀ k, Takes T.reviewed.settings.journal T.entry.id.plainText k T.reviewed.world.disk →
        Json.writable true T.entry.toValue = true ∧
        T.concluded.world.drawn = T.reviewed.world.drawn + 1 ∧
        T.concluded.world.disk =
          entered T.reviewed.settings.journal k T.entry T.reviewed.world.disk := by
  obtain ⟨b, u, printed, hjudged, hjournaled⟩ := concluded_ok T.concludes
  have hu : u = T.reviewed := by
    unfold reviewed tried
    rw [hjudged]
  obtain ⟨hattempt, hsettings, hput⟩ := journaled_ok hjournaled
  have hentry : T.entry = nextEntry u.world T.report (.text u.world.page.url) b.digest .null
      (.ofOption .text b.analysis) := by
    unfold entry
    rw [← hu, hattempt]
  rw [hentry, ← hu]
  exact ⟨by rw [hattempt]; rfl, hsettings, hput⟩

/-- A round stays within bounds up to its judgement, and again once its entry is made. -/
theorem stays {B : Disk.Bounds} (T : Trial x) (hdata : B.Covers x.start.settings.data)
    (hlibrary : B.Covers x.start.settings.library)
    (hgiven : ∀ st ∈ T.report.steps, ∀ name ∈ st.filename?, name ≠ "" →
      Disk.pathOf (Disk.trail (pathIn x.start.settings.data name)) ∈ B.files) :
    Stays x.start.settings B x.start T.reviewed ∧
      Stays x.start.settings B T.concluded x.finish := by
  constructor
  · refine trans_of _ ((stays_obtain x.task).of_run T.obtains) ?_
    exact trans_of _ (stays_executed hdata hgiven T.executes)
      (stays_judged T.tried T.report T.executed)
  · have hrecorded : Stays x.start.settings B T.concluded T.recorded := .of_eq rfl rfl
    exact trans_of _ hrecorded ((stays_after hlibrary _ _ _ _).of_run T.run_after)

/-- A round makes one entry more, and it does nothing else to the journal. -/
theorem kept (T : Trial x) (hwritten : T.Written) (haside : T.Aside)
    (hapart : x.start.settings.Apart) {es : List Entry}
    (h : x.start.world.drawn < 16 ^ 6 → Kept x.start.settings.journal es x.start.world)
    (hsmall : x.finish.world.drawn < 16 ^ 6) :
    Kept x.start.settings.journal (es ++ [T.entry]) x.finish.world := by
  obtain ⟨hbefore, hbehind⟩ := T.stays hapart.covers_data hapart.covers_library haside
  obtain ⟨hsettings, hjudged⟩ := hbefore rfl
  obtain ⟨-, hconcluded, hput⟩ := T.journals
  rw [hsettings] at hconcluded hput
  obtain ⟨-, hafter⟩ := hbehind hconcluded
  obtain ⟨k, htakes⟩ := hwritten
  obtain ⟨hwritable, hdrawn, hdisk⟩ := hput k htakes
  have hdrawnBefore := hjudged.drawn
  have hdrawnAfter := hafter.drawn
  have hjudgedKept := (h (by omega)).confined hjudged
  have hmade := hjudgedKept.create hapart.journal htakes (by omega) hwritable
  exact (hmade.of_eq hdisk hdrawn).confined hafter

end Trial

/-! ## Rounds one after the other -/

/-- An entry is on a trial: the attempt carries its number, and the rest is what came of the trial.
-/
structure Trial.Logs (T : Trial x) (e : Entry) : Prop where
  number : T.attempt.entryId = some e.id.plainText
  attempt : T.attempt.report = some T.report
  report : e.report = T.report.toValue
  url : e.url = .text T.reviewed.world.page.url
  digest : e.digest = .ofOption Digest.toValue T.attempt.digest
  analysis : e.analysis = .ofOption .text T.attempt.analysis
  workflowId : e.workflowId = .null

theorem Trial.logs_entry (T : Trial x) : T.Logs T.entry :=
  { number := T.journals.1
    attempt := T.concludes_attempt.report
    report := rfl
    url := rfl
    digest := rfl
    analysis := rfl
    workflowId := rfl }

/-- An entry is on the trial of a round. -/
def Logged (x : Lap) (e : Entry) : Prop :=
  ∃ T : Trial x, T.Logs e

/-- The entry of each round can be put into a file, and no script has put its data there. -/
def Undisturbed (laps : List Lap) : Prop :=
  ∀ x ∈ laps, ∀ T : Trial x, T.Written ∧ T.Aside

/-- From one session to another some rounds have each made one entry, and the journal is otherwise
as it was. It is so as long as the identifiers last. -/
def Appends (laps : List Lap) (s t : Session) : Prop :=
  s.settings.Apart → t.settings = s.settings ∧
    ∀ es, (s.world.drawn < 16 ^ 6 → Kept s.settings.journal es s.world) →
      ∃ made, List.Forall₂ Logged laps made ∧
        (t.world.drawn < 16 ^ 6 → Kept s.settings.journal (es ++ made) t.world)

namespace Appends

variable {u : Session} {laps later : List Lap}

theorem trans (h : Appends laps s t) (h' : Appends later t u) : Appends (laps ++ later) s u := by
  intro hapart
  obtain ⟨hsettings, hmade⟩ := h hapart
  obtain ⟨hsettings', hmade'⟩ := h' (hsettings ▸ hapart)
  refine ⟨hsettings'.trans hsettings, fun es hes => ?_⟩
  obtain ⟨made, hlogged, hkept⟩ := hmade es hes
  rw [hsettings] at hmade'
  obtain ⟨made', hlogged', hkept'⟩ := hmade' (es ++ made) hkept
  refine ⟨made ++ made', List.rel_append hlogged hlogged', ?_⟩
  rw [← List.append_assoc]
  exact hkept'

/-- Where there is no round the journal stays what it is. -/
theorem nil (hsettings : t.settings = s.settings)
    (hworld : World.Confined (beside s.settings.journal) s.world t.world) : Appends [] s t := by
  refine fun _ => ⟨hsettings, fun es hes => ⟨[], List.Forall₂.nil, fun hsmall => ?_⟩⟩
  have hdrawn := hworld.drawn
  rw [List.append_nil]
  exact (hes (by omega)).confined hworld

/-- A round that is undisturbed and does not fail. -/
theorem lap {x : Lap} (hx : ∀ T : Trial x, T.Written ∧ T.Aside) {q : Sequel}
    (hresult : x.result = .ok q) : Appends [x] x.start x.finish := by
  intro hapart
  rcases x.stops_or_trial with hstops | ⟨⟨T⟩⟩
  · obtain ⟨f, hf⟩ := hstops.failed
    cases hresult.symm.trans hf
  · obtain ⟨hwritten, haside⟩ := hx T
    exact ⟨x.settings, fun es hes => ⟨[T.entry], .cons ⟨T, T.logs_entry⟩ .nil,
      T.kept hwritten haside hapart hes⟩⟩

end Appends

theorem Undisturbed.append {laps later : List Lap} :
    Undisturbed (laps ++ later) ↔ Undisturbed laps ∧ Undisturbed later :=
  List.forall_mem_append

theorem Runs.appends {left : Nat} {task : Task} {laps : List Lap} {e : Ending}
    {r : Except Failure Ending} (h : Runs left task s laps r t) (hr : r = .ok e)
    (hlaps : Undisturbed laps) : Appends laps s t := by
  induction h with
  | failed last result => cases hr
  | @ended left x e last result => exact .lap (hlaps x List.mem_cons_self) result
  | @again left x next laps r t last result later ih =>
    have hfirst := Appends.lap (hlaps x List.mem_cons_self) result
    exact hfirst.trans (ih hr fun y hy => hlaps y (List.mem_cons_of_mem _ hy))

theorem Works.appends {x : Stint} {stints : List Stint} {o : Outcome} {r : Except Failure Outcome}
    (h : Works x stints r t) (hr : r = .ok o) (hlaps : Undisturbed (stints.flatMap Stint.laps)) :
    Appends (stints.flatMap Stint.laps) x.start t := by
  have hone : ∀ (x : Stint) (e : Ending), x.result = .ok e → Undisturbed x.laps →
      Appends x.laps x.start x.finish := fun x e hresult hx => x.runs.appends hresult hx
  induction h with
  | failed result => cases hr
  | @ended x e result done =>
    rw [List.flatMap_singleton] at hlaps ⊢
    exact hone x e result hlaps
  | refused result asks missing => cases hr
  | @followed x y e followUp stints r t result asks opening task start later ih =>
    rw [List.flatMap_cons, Undisturbed.append] at hlaps
    rw [List.flatMap_cons]
    have hlater := ih hr hlaps.2
    rw [start] at hlater
    exact (hone x e result hlaps.1).trans hlater

theorem Served.appends {c : Call} {stints : List Stint} {o : Outcome}
    (h : Served s c stints (.ok o) t) (hlaps : Undisturbed (stints.flatMap Stint.laps)) :
    Appends (stints.flatMap Stint.laps) s t := by
  cases h with
  | @run intent x stints r t opening task start works =>
    have hbegun : Appends [] s (s.begun intent) := .nil rfl (refl_of _ s.world)
    have hworks := works.appends rfl hlaps
    rw [start] at hworks
    exact hbegun.trans hworks
  | extend opening task start works =>
    have hworks := works.appends rfl hlaps
    rwa [start] at hworks

/-! ## Calls that return -/

/-- A call of `run` and calls of `extend` behind it, all of which return. Between two calls the
world may change as far as is said, and somebody else may decide from then on. -/
inductive Returns (may : World → World → Prop) (s : Session) : Session → Prop
  | run {intent : String} {o : Outcome} {t : Session}
      (call : (Session.run intent).run s = (.ok o, t)) : Returns may s t
  | extend {t u : Session} {followUp : String} {o : Outcome} (before : Returns may s t)
      {world : World} (between : may t.world world) (decider : Decider)
      (call : (Session.extend followUp).run { t with world, decider } = (.ok o, u)) :
      Returns may s u

/-- Such calls by their rounds. -/
inductive Rounds (may : World → World → Prop) (s : Session) : List Lap → Session → Prop
  | run {intent : String} {stints : List Stint} {o : Outcome} {t : Session}
      (served : Served s (.run intent) stints (.ok o) t) :
      Rounds may s (stints.flatMap Stint.laps) t
  | extend {t u : Session} {laps : List Lap} {followUp : String} {stints : List Stint} {o : Outcome}
      (before : Rounds may s laps t) {world : World} (between : may t.world world)
      (decider : Decider)
      (served : Served { t with world, decider } (.extend followUp) stints (.ok o) u) :
      Rounds may s (laps ++ stints.flatMap Stint.laps) u

theorem Returns.rounds {may : World → World → Prop} (h : Returns may s t) :
    ∃ laps, Rounds may s laps t := by
  induction h with
  | @run intent o t call =>
    obtain ⟨stints, hserved⟩ := Call.served (c := .run intent) call
    exact ⟨_, .run hserved⟩
  | @extend t u followUp o before world between decider call ih =>
    obtain ⟨laps, hlaps⟩ := ih
    obtain ⟨stints, hserved⟩ := Call.served (c := .extend followUp) call
    exact ⟨_, .extend hlaps between decider hserved⟩

theorem Rounds.appends {laps : List Lap}
    (h : Rounds (World.Confined (beside s.settings.journal)) s laps t) (hapart : s.settings.Apart)
    (hlaps : Undisturbed laps) : Appends laps s t := by
  induction h with
  | run served => exact served.appends hlaps
  | @extend t u laps followUp stints o before world between decider served ih =>
    rw [Undisturbed.append] at hlaps
    have hbefore := ih hlaps.1
    have hgap : Appends [] t { t with world, decider } := by
      refine .nil rfl ?_
      rw [(hbefore hapart).1]
      exact between
    exact hbefore.trans (hgap.trans (served.appends hlaps.2))

/-- Whether a round is the last one of a call that returns, with nothing to follow. -/
def Lap.settles (x : Lap) : Bool :=
  match x.result with
  | .ok (.ended e) => e.followUp.isNone
  | _ => false

/-- Whether a round has run a document without steps, and there is nothing on the disk when its
entry is made. -/
def Lap.isBare (x : Lap) : Bool :=
  match x.task.obtain.run x.start with
  | (.ok document, s) =>
    match (executed x.task.instruction document).run s with
    | (.ok r, s) =>
      let a : Attempt := { intent := x.task.instruction, document, report := some r }
      let w := ((judged a r).run s).2.world
      w.drawn == 0 && w.disk.files.isEmpty && w.disk.folders.isEmpty && r.steps.isEmpty
    | _ => false
  | _ => false

theorem Lap.settles_iff :
    x.settles = true ↔ ∃ e, x.result = .ok (.ended e) ∧ e.followUp = none := by
  unfold settles
  constructor
  · intro h
    split at h
    · rename_i e hresult
      exact ⟨e, hresult, Option.isNone_iff_eq_none.1 h⟩
    · cases h
  · rintro ⟨e, hresult, hdone⟩
    rw [hresult]
    exact Option.isNone_iff_eq_none.2 hdone

theorem Trial.bare (T : Trial x) (h : x.isBare = true) :
    T.reviewed.world.drawn = 0 ∧ T.reviewed.world.disk.files = [] ∧
      T.reviewed.world.disk.folders = [] ∧ T.report.steps = [] := by
  unfold Lap.isBare at h
  rw [T.obtains] at h
  dsimp only at h
  rw [T.executes] at h
  have hbare : (T.reviewed.world.drawn == 0 && T.reviewed.world.disk.files.isEmpty &&
      T.reviewed.world.disk.folders.isEmpty && T.report.steps.isEmpty) = true := by
    unfold Trial.reviewed Trial.tried
    exact h
  simpa only [Bool.and_eq_true, beq_iff_eq, List.isEmpty_iff, and_assoc] using hbare

end BrowserFlow.Session
