import BrowserFlow.Proofs.Session.Call
import BrowserFlow.Proofs.Session.Cap

/-!
# The warning after an attempt without data

A request for a document, or for new steps, shows the attempts that it is told of, and after one
that returned no data it holds a warning. The warning belongs to the last attempt alone
(`Prompt.alert?`): what it says of the page is the digest of that attempt and its candidates, and
the rest of the request shows neither of any attempt (`Task.prompt_eq`).

What an attempt has learnt of the page comes from its own round (`Trial.learns`), and the attempts
that a round is told of are those of the rounds before it in the same stint (`Runs.told`).
-/

namespace BrowserFlow

open Effect

/-- An attempt without what was learnt of the page in it. -/
def Attempt.blind (a : Attempt) : Attempt :=
  { a with digest := none, candidates := [] }

/-- An attempt that nobody has judged. -/
def Attempt.unjudged (a : Attempt) : Attempt :=
  { a with verification := none }

/-- Candidates come with a digest only. -/
def Attempt.Grounded (a : Attempt) : Prop :=
  a.digest = none → a.candidates = []

/-! ## The parts of a request -/

namespace Prompt

/-- The warning after an attempt. There is one exactly if the attempt returned no data, with the
structure of the page exactly if there is a digest, and with candidates exactly if there are some.
-/
def alert? (a : Attempt) : Option Warning :=
  if a.verification.map (·.verdict) = some .emptyExtraction then
    some
      { page := a.digest.map fun d => d.description
        candidates :=
          if a.candidates.isEmpty then none else some (Candidate.descriptions a.candidates) }
  else none

variable {intent : String} {history : List Attempt} {page candidates : Option String}

/-- What a request for a document says before the warning. -/
def generationBefore (history : List Attempt) : List String :=
  [instructions] ++
    if history.isEmpty then []
    else ["PREVIOUS ATTEMPTS AND RESULTS:"] ++
      (history.zipIdx.map fun (a, i) => attemptBlock (i + 1) a) ++
      ["根据以上尝试生成一个改进后的工作流，解决其中的问题。"]

/-- What a request for a continuation says before the warning: as much as after attempts that nobody
has judged. -/
def continuationBefore (c : Continuation) (history : List Attempt) : List String :=
  continuationParts c (history.map Attempt.unjudged) none none

theorem generationParts_eq : generationParts intent history page candidates =
    generationBefore history ++
      (warning? history.getLast? page candidates).toList.map Warning.text ++
      [instruction intent history] := by
  unfold generationParts generationBefore
  cases history with
  | nil => rfl
  | cons a rest => simp

theorem warning?_unjudged :
    warning? (history.map Attempt.unjudged).getLast? page candidates = none := by
  rw [List.getLast?_map]
  cases history.getLast? <;> rfl

theorem continuationParts_eq {c : Continuation} : continuationParts c history page candidates =
    continuationBefore c history ++
      (warning? history.getLast? page candidates).toList.map Warning.text := by
  have hshown : (history.map Attempt.unjudged).filterMap continuationAttempt? =
      history.filterMap continuationAttempt? := by
    rw [List.filterMap_map]
    rfl
  unfold continuationBefore continuationParts
  simp only [hshown, warning?_unjudged, Option.toList_none, List.map_nil, List.append_nil]

/-- Nothing that is said before the warning shows what was learnt of the page. -/
theorem generationBefore_blind :
    generationBefore (history.map Attempt.blind) = generationBefore history := by
  unfold generationBefore
  rw [List.zipIdx_map, List.map_map, List.isEmpty_map]
  rfl

theorem continuationBefore_blind {c : Continuation} :
    continuationBefore c (history.map Attempt.blind) = continuationBefore c history := by
  have hshown : ((history.map Attempt.blind).map Attempt.unjudged).filterMap continuationAttempt? =
      (history.map Attempt.unjudged).filterMap continuationAttempt? := by
    rw [List.filterMap_map, List.filterMap_map, List.filterMap_map]
    rfl
  unfold continuationBefore continuationParts
  rw [hshown, warning?_unjudged, warning?_unjudged]

theorem instruction_blind : instruction intent (history.map Attempt.blind) =
    instruction intent history := by
  cases history <;> rfl

end Prompt

/-- Texts in a row are not empty if the first is not. -/
theorem intercalate_cons_ne_empty {separator x : String} {xs : List String} (hx : x ≠ "") :
    separator.intercalate (x :: xs) ≠ "" := by
  cases xs with
  | nil => rwa [String.intercalate_singleton]
  | cons y ys =>
    rw [String.intercalate_cons_of_ne_nil (List.cons_ne_nil y ys), String.append_assoc]
    exact Session.append_ne_empty hx _

/-- The description of a digest begins with its address. -/
theorem Digest.description_ne_empty (d : Digest) : d.description ≠ "" :=
  intercalate_cons_ne_empty (Session.append_ne_empty (by decide) _)

theorem Candidate.descriptions_ne_empty {cs : List Candidate} (h : cs ≠ []) :
    Candidate.descriptions cs ≠ "" := by
  cases cs with
  | nil => exact absurd rfl h
  | cons c rest =>
    have hfirst : upTo 5 (c :: rest) = c :: rest.take 4 := upTo_natCast 5 (c :: rest)
    unfold descriptions
    rw [hfirst, List.map_cons]
    refine intercalate_cons_ne_empty ?_
    simp [description, String.append_eq_empty_iff]

namespace Session

variable {s t : Session}

/-- After a grounded attempt the model is warned as the attempt is. -/
theorem warning?_viewAfter {history : List Attempt}
    (h : ∀ a, history.getLast? = some a → a.Grounded) :
    Prompt.warning? history.getLast? (viewAfter history).page (viewAfter history).candidates =
      history.getLast?.bind Prompt.alert? := by
  unfold viewAfter
  cases hlast : history.getLast? with
  | none => rfl
  | some a =>
    have hkept : ∀ {text : String}, text ≠ "" → Prompt.nonempty (some text) = some text := by
      intro text htext
      simp [Prompt.nonempty, Option.filter, htext]
    unfold Prompt.warning? Prompt.alert?
    simp only [Option.bind_some]
    cases a.verification with
    | none => rfl
    | some v =>
      simp only [Option.map_some, Option.some.injEq]
      split
      · cases hdigest : a.digest with
        | none =>
          rw [h a hlast hdigest]
          rfl
        | some d =>
          cases hcandidates : a.candidates with
          | nil => simp [Prompt.nonempty, d.description_ne_empty]
          | cons c cs =>
            simp [hkept d.description_ne_empty,
              hkept (Candidate.descriptions_ne_empty (List.cons_ne_nil c cs))]
      · rfl

/-! ## The request of a round -/

/-- The attempts that the request of a round is told of. -/
def Task.told (s : Session) : Task → List Attempt
  | fresh .. => s.history
  | further _ _ history => history

/-- What the request of a round says before the warning. -/
def Task.before (s : Session) (told : List Attempt) : Task → List String
  | fresh .. => Prompt.generationBefore told
  | further existing followUp _ =>
    Prompt.continuationBefore (s.continuationOf existing followUp) told

/-- What the request of a round says behind the warning. -/
def Task.behind (told : List Attempt) : Task → List String
  | fresh _ intent _ => [Prompt.instruction intent told]
  | further .. => []

/-- The request of a round: the warning is that of the last attempt, and the rest shows nothing of
what was learnt of the page in any attempt. -/
theorem Task.prompt_eq {task : Task} (h : ∀ a ∈ task.told s, a.Grounded) :
    task.prompt s = "\n\n".intercalate
      (task.before s ((task.told s).map Attempt.blind) ++
        ((task.told s).getLast?.bind Prompt.alert?).toList.map Prompt.Warning.text ++
        task.behind ((task.told s).map Attempt.blind)) := by
  have hwarning := warning?_viewAfter fun a ha => h a (List.mem_of_getLast? ha)
  cases task with
  | fresh number intent document =>
    simp only [Task.told, Task.before, Task.behind] at hwarning ⊢
    rw [Prompt.generationBefore_blind, Prompt.instruction_blind, ← hwarning,
      ← Prompt.generationParts_eq]
    rfl
  | further existing followUp history =>
    simp only [Task.told, Task.before, Task.behind, List.append_nil] at hwarning ⊢
    rw [Prompt.continuationBefore_blind, ← hwarning, ← Prompt.continuationParts_eq]
    rfl

/-! ## What is learnt of the page -/

/-- What an attempt at an instruction has learnt of the page in a round: nothing, or the digest of a
look at the page that was taken because data were lacking, and the candidates found with it. -/
inductive Learns (s : Session) (intent : String) (r : Report) (a : Attempt) : Prop
  | nothing (digest : a.digest = none) (candidates : a.candidates = [])
  | page {seen : Digest} {t : Session} (lacks : lacksData intent r = true)
      (looked : look.run s = (.ok (.ok seen), t)) (digest : a.digest = some seen)
      (candidates : ((byWorld (Ranking.suggest Ranking.sampleSize (some seen)
        (Extraction.lastQuery? r) (Intent.isBulk {} intent) Ranking.suggestionLimit)).run t).1 =
          .ok a.candidates)

section

variable {intent : String} {r : Report} {a b : Attempt}

theorem Learns.grounded (h : Learns s intent r a) : a.Grounded := by
  intro hnone
  cases h with
  | nothing digest candidates => exact candidates
  | page lacks looked digest candidates =>
    rw [hnone] at digest
    cases digest

theorem Learns.of_eq (h : Learns s intent r a) (hdigest : b.digest = a.digest)
    (hcandidates : b.candidates = a.candidates) : Learns s intent r b := by
  cases h with
  | nothing digest candidates =>
    exact .nothing (hdigest.trans digest) (hcandidates.trans candidates)
  | page lacks looked digest candidates =>
    refine .page lacks looked (hdigest.trans digest) ?_
    rw [hcandidates]
    exact candidates

theorem enriched_learns (hdigest : a.digest = none) (hcandidates : a.candidates = [])
    (hlacks : lacksData a.intent r = true) (h : (enriched a r).run s = (.ok b, t)) :
    Learns s a.intent r b := by
  unfold enriched at h
  obtain ⟨seen, u, hlook, hu⟩ := bind_ok h
  cases seen with
  | error f =>
    obtain ⟨_, _, -, hb⟩ := bind_ok hu
    cases hb
    exact .nothing hdigest hcandidates
  | ok digest =>
    obtain ⟨found, _, hsuggest, hb⟩ := bind_ok hu
    cases hb
    exact .page hlacks hlook rfl (congrArg Prod.fst hsuggest)

/-- The session after something was said. -/
def saying (s : Session) (printed : String) : Session :=
  { s with world := { s.world with printed } }

/-- An attempt learns of the page when it is judged, after it was said that data are lacking. -/
theorem judged_learns (hdigest : a.digest = none) (hcandidates : a.candidates = [])
    (h : (judged a r).run s = (.ok b, t)) : ∃ printed, Learns (s.saying printed) a.intent r b := by
  unfold judged at h
  by_cases hlacks : lacksData a.intent r
  · rw [if_pos hlacks, run_bind_ok (run_say _ s)] at h
    obtain ⟨c, _, hc, h⟩ := bind_ok h
    cases h
    exact ⟨_, (enriched_learns hdigest hcandidates hlacks hc).of_eq rfl rfl⟩
  · rw [if_neg hlacks] at h
    obtain ⟨v, u, hv, h⟩ := bind_ok h
    cases h
    exact ⟨"", .nothing hdigest hcandidates⟩

theorem concluded_learns {v : Verification} (hdigest : a.digest = none)
    (hcandidates : a.candidates = []) (h : (concluded a r).run s = (.ok (b, v), t)) :
    ∃ printed, Learns (s.saying printed) a.intent r b := by
  unfold concluded at h
  obtain ⟨c, w, hc, h⟩ := bind_ok h
  obtain ⟨printed, hlearns⟩ := judged_learns hdigest hcandidates hc
  obtain ⟨_, _, -, h⟩ := bind_ok h
  obtain ⟨d, _, hd, h⟩ := bind_ok h
  cases h
  unfold journaled at hd
  obtain ⟨_, _, -, hd⟩ := bind_ok hd
  obtain ⟨_, _, -, hd⟩ := bind_ok hd
  cases hd
  exact ⟨printed, hlearns.of_eq rfl rfl⟩

end

/-- The attempt of a trial has learnt of the page, if at all, from the page as the run of its own
document has left it. -/
def Trial.Learns {x : Lap} (T : Trial x) : Prop :=
  ∃ printed, Session.Learns (T.executed.saying printed) x.task.instruction T.report T.attempt

theorem Trial.learns {x : Lap} (T : Trial x) : T.Learns :=
  concluded_learns rfl rfl T.concludes

/-! ## What a round is told of -/

/-- A continuation goes on with the attempts so far, or with none. -/
theorem afterFailedSteps_told {isLast : Bool} {followUp followUp' : String}
    {attempts history : List Attempt} {a : Attempt} {v : Verification}
    (h : (afterFailedSteps isLast followUp attempts a v).run s =
      (.ok (.again followUp' history), t)) :
    history = attempts ∨ history = [] := by
  unfold afterFailedSteps at h
  by_cases hlast : isLast
  · rw [if_pos hlast] at h
    obtain ⟨_, _, -, h⟩ := bind_ok h
    obtain ⟨_, _, -, h⟩ := bind_ok h
    cases h
  · rw [if_neg hlast] at h
    obtain ⟨d, u, -, h⟩ := bind_ok h
    split at h
    · obtain ⟨_, _, -, h⟩ := bind_ok h
      cases h
    · cases h
      exact Or.inr rfl
    · cases h
      exact Or.inl rfl
    · cases h
      exact Or.inl rfl
    · cases h
      exact Or.inl rfl

/-- A round is told of what the round before it was told of and of the attempt in that, or of
nothing. -/
theorem Lap.told_next {x : Lap} {next : Task} (h : x.result = .ok (.again next)) :
    ∃ T : Trial x, next.told x.finish = x.task.told x.start ++ [T.attempt] ∨
      next.told x.finish = [] := by
  rcases x.does with hstops | ⟨T, hafter⟩
  · obtain ⟨f, hf⟩ := hstops.failed
    rw [hf] at h
    cases h
  · refine ⟨T, ?_⟩
    have hhistory := hafter.history
    rw [T.history] at hhistory
    have hrun := T.run_after
    rw [h] at hafter hrun
    cases hafter with
    | again more resumes kept ledger =>
      generalize x.task = task at resumes hrun hhistory ⊢
      cases resumes with
      | anew number intent intent' document => exact hhistory
      | rerun number intent document success => exact hhistory
      | further existing followUp followUp' history history' failure =>
        simp only [Task.after, failure, Bool.false_eq_true, if_false, run_map] at hrun
        obtain ⟨hresult, -⟩ := Prod.mk.inj hrun
        cases hnext : ((afterFailedSteps x.isLast followUp (history ++ [T.attempt]) T.attempt
            T.verification).run T.recorded).1 with
        | error f =>
          rw [hnext] at hresult
          cases hresult
        | ok next =>
          rw [hnext] at hresult
          cases next with
          | ended e => cases hresult
          | again f history' =>
            cases hresult
            exact afterFailedSteps_told (Prod.ext hnext rfl)

/-- A round is told of attempts of the rounds before it, if the first is told of none. -/
theorem Runs.told {left : Nat} {task : Task} {laps : List Lap} {q : Except Failure Ending}
    (h : Runs left task s laps q t) {x : Lap} (hx : x ∈ laps) :
    ∀ a ∈ x.task.told x.start, a ∈ task.told s ∨ ∃ y ∈ laps, ∃ T : Trial y, a = T.attempt := by
  induction h with
  | failed =>
    rw [List.mem_singleton.mp hx]
    exact fun a ha => Or.inl ha
  | ended =>
    rw [List.mem_singleton.mp hx]
    exact fun a ha => Or.inl ha
  | @again left y next laps q t last result later ih =>
    intro a ha
    rcases List.mem_cons.mp hx with rfl | hx
    · exact Or.inl ha
    obtain ⟨T, htold⟩ := Lap.told_next result
    rcases ih hx a ha with hnext | ⟨z, hz, Tz, haz⟩
    · rcases htold with htold | htold
      · rw [htold] at hnext
        rcases List.mem_append.mp hnext with hbefore | hown
        · exact Or.inl hbefore
        · exact Or.inr ⟨y, List.mem_cons_self, T, List.mem_singleton.mp hown⟩
      · rw [htold] at hnext
        cases hnext
    · exact Or.inr ⟨z, List.mem_cons_of_mem _ hz, Tz, haz⟩

/-! ## Calls -/

/-- The requests of a round. -/
def Lap.sent (x : Lap) : List ModelRequest :=
  x.finish.world.requests.drop x.start.world.requests.length

theorem Lap.requests (x : Lap) :
    x.finish.world.requests = x.start.world.requests ++ x.sent := by
  obtain ⟨asked, judged, _, _, -, -, hrequests⟩ := x.asksTwice
  unfold sent
  rw [hrequests, List.drop_left]

theorem Runs.requests {left : Nat} {task : Task} {laps : List Lap} {q : Except Failure Ending}
    (h : Runs left task s laps q t) :
    t.world.requests = s.world.requests ++ laps.flatMap Lap.sent := by
  induction h with
  | failed =>
    rw [List.flatMap_singleton]
    exact Lap.requests _
  | ended =>
    rw [List.flatMap_singleton]
    exact Lap.requests _
  | @again left x next laps q t last result later ih =>
    rw [ih, x.requests, List.flatMap_cons, List.append_assoc]

theorem Works.requests {x : Stint} {stints : List Stint} {r : Except Failure Outcome}
    (h : Works x stints r t) :
    t.world.requests = x.start.world.requests ++ (stints.flatMap (·.laps)).flatMap Lap.sent := by
  induction h with
  | failed =>
    rw [List.flatMap_singleton]
    exact Runs.requests (Stint.runs _)
  | ended =>
    rw [List.flatMap_singleton]
    exact Runs.requests (Stint.runs _)
  | refused =>
    rw [List.flatMap_singleton]
    exact Runs.requests (Stint.runs _)
  | @followed x y e followUp stints r t result asks opening task start later ih =>
    rw [ih, start, x.runs.requests, List.flatMap_cons, List.flatMap_append, List.append_assoc]

theorem Served.requests {c : Call} {stints : List Stint} {r : Except Failure Outcome}
    (h : Served s c stints r t) :
    t.world.requests = s.world.requests ++ (stints.flatMap (·.laps)).flatMap Lap.sent := by
  cases h with
  | run opening task start works =>
    rw [works.requests, start]
    rfl
  | refused missing => simp
  | extend opening task start works => rw [works.requests, start]

/-- A continuation is begun with no attempts. -/
theorem told_of_continuation? {followUp : String} {task : Task}
    (h : s.continuation? followUp = some task) (u : Session) : task.told u = [] := by
  unfold continuation? at h
  obtain ⟨existing, -, rfl⟩ := Option.map_eq_some_iff.mp h
  rfl

theorem Works.told {x : Stint} {stints : List Stint} {r : Except Failure Outcome}
    (h : Works x stints r t) (hx : x.task.told x.start = []) {y : Stint} (hy : y ∈ stints) :
    y.task.told y.start = [] := by
  induction h with
  | failed =>
    rw [List.mem_singleton.mp hy]
    exact hx
  | ended =>
    rw [List.mem_singleton.mp hy]
    exact hx
  | refused =>
    rw [List.mem_singleton.mp hy]
    exact hx
  | followed result asks opening task start later ih =>
    rcases List.mem_cons.mp hy with rfl | hy
    · exact hx
    · exact ih (told_of_continuation? task _) hy

/-- Every stint of a call is begun with no attempts. -/
theorem Served.told {c : Call} {stints : List Stint} {r : Except Failure Outcome}
    (h : Served s c stints r t) {y : Stint} (hy : y ∈ stints) : y.task.told y.start = [] := by
  cases h with
  | run opening task start works =>
    refine works.told ?_ hy
    rw [task, start]
    rfl
  | refused missing => cases hy
  | extend opening task start works => exact works.told (told_of_continuation? task _) hy

/-- The requests of a call are those of its rounds, each of which asks at most for a document and
then for a judgement. The request for a document, or for new steps, holds the warning of the last
attempt that it is told of, if that has one, and no other; what else it says shows neither the
digest nor the candidates of any attempt. The attempts that it is told of are those of rounds of the
same stint, and each has learnt of the page in its own round. -/
theorem Call.alerts (c : Call) (s : Session) :
    ∃ stints, Served s c stints (c.act.run s).1 (c.act.run s).2 ∧
      (c.act.run s).2.world.requests =
        s.world.requests ++ (stints.flatMap (·.laps)).flatMap Lap.sent ∧
      ∀ y ∈ stints, ∀ x ∈ y.laps,
        (∃ asked judged document report, Planner.AtMostOnce (x.task.prompt x.start) asked ∧
          Planner.AtMostOnce (x.question document report) judged ∧ x.sent = asked ++ judged) ∧
        x.task.prompt x.start = "\n\n".intercalate
          (x.task.before x.start ((x.task.told x.start).map Attempt.blind) ++
            ((x.task.told x.start).getLast?.bind Prompt.alert?).toList.map Prompt.Warning.text ++
            x.task.behind ((x.task.told x.start).map Attempt.blind)) ∧
        ∀ a ∈ x.task.told x.start, ∃ z ∈ y.laps, ∃ T : Trial z, a = T.attempt ∧ T.Learns := by
  obtain ⟨stints, hserved⟩ := Call.served (c := c) (s := s) rfl
  refine ⟨stints, hserved, hserved.requests, fun y hy x hx => ?_⟩
  have htold : ∀ a ∈ x.task.told x.start, ∃ z ∈ y.laps, ∃ T : Trial z,
      a = T.attempt ∧ T.Learns := by
    intro a ha
    rcases y.runs.told hx a ha with hnone | ⟨z, hz, T, rfl⟩
    · rw [hserved.told hy] at hnone
      cases hnone
    · exact ⟨z, hz, T, rfl, T.learns⟩
  refine ⟨?_, ?_, htold⟩
  · -- `asksTwice` is about all requests up to the round, `sent` about those of it
    obtain ⟨asked, judged, document, report, hasked, hjudged, hrequests⟩ := x.asksTwice
    refine ⟨asked, judged, document, report, hasked, hjudged, ?_⟩
    exact List.append_cancel_left (x.requests.symm.trans hrequests)
  · refine Task.prompt_eq fun a ha => ?_
    obtain ⟨z, -, T, rfl, _, hlearns⟩ := htold a ha
    exact hlearns.grounded

end Session

end BrowserFlow
