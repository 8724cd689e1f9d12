import BrowserFlow.Proofs.Session.Alert
import BrowserFlow.Proofs.Session.Twin

/-!
# After the instruction is replaced

A failed round can be answered with another instruction, and then the attempts so far are dropped.
On an instruction the history of the session begins anew, and whatever was attempted, the rest of
the call asks the model the same. On a continuation only the attempts at it are dropped, and the
session keeps its history. The next question for a judgement still shows what was learnt of the page
in the last attempt of that, and no other request does. `replaced_alike_iff` says so of two sessions
that differ in what was attempted: the one question may differ in its page block, and everything
else that the model is asked is the same.
-/

namespace BrowserFlow

open Effect Planner

/-! ## The page block of a question -/

theorem Prompt.nonempty_eq_none_or {page : Option String} (h : page ≠ some "") :
    nonempty page = page := by
  cases page with
  | none => rfl
  | some page =>
    have hpage : page.isEmpty = false := by
      rw [Bool.eq_false_iff, Ne, String.isEmpty_iff]
      exact fun hempty => h (congrArg some hempty)
    show Option.filter _ (some page) = some page
    rw [Option.filter_some, if_pos]
    rw [hpage]
    rfl

/-- A text between others is known from the whole. -/
theorem intercalate_middle_inj {separator b c : String} {ys : List String} (xs : List String)
    (hxs : xs ≠ []) (hys : ys ≠ [])
    (h : separator.intercalate (xs ++ (b :: ys)) = separator.intercalate (xs ++ (c :: ys))) :
    b = c := by
  rw [String.intercalate_append_of_ne_nil hxs (List.cons_ne_nil b ys),
    String.intercalate_append_of_ne_nil hxs (List.cons_ne_nil c ys), String.append_right_inj,
    String.intercalate_cons_of_ne_nil hys, String.intercalate_cons_of_ne_nil hys,
    String.append_left_inj, String.append_left_inj] at h
  exact h

/-- What a question for a judgement tells of the page. -/
def Prompt.pageBlock (page : Option String) : String :=
  match nonempty page with
  | some page => "\nPAGE STRUCTURE FROM PREVIOUS ROUND:\n" ++ page ++ "\n"
  | none => ""

theorem Prompt.pageBlock_inj {page page' : Option String} (h : pageBlock page = pageBlock page') :
    nonempty page = nonempty page' := by
  have hheaded : ∀ known : String,
      "\nPAGE STRUCTURE FROM PREVIOUS ROUND:\n" ++ known ++ "\n" ≠ "" := fun known =>
    Session.append_ne_empty (Session.append_ne_empty (by decide) _) _
  unfold pageBlock at h
  cases hknown : nonempty page with
  | none =>
    cases hknown' : nonempty page' with
    | none => rfl
    | some known' =>
      rw [hknown, hknown'] at h
      exact absurd h.symm (hheaded known')
  | some known =>
    cases hknown' : nonempty page' with
    | none =>
      rw [hknown, hknown'] at h
      exact absurd h (hheaded known)
    | some known' =>
      rw [hknown, hknown', String.append_left_inj, String.append_right_inj] at h
      rw [h]

/-- The page block of a question is known from it. -/
theorem Prompt.verification_inj {intent document : String} {r : Report} {page page' : Option String}
    (h : verification intent document r page = verification intent document r page') :
    nonempty page = nonempty page' := by
  unfold verification at h
  dsimp only at h
  have hblock : pageBlock page = pageBlock page' :=
    intercalate_middle_inj [_, _, _, _, _] (List.cons_ne_nil _ _) (List.cons_ne_nil _ _) h
  exact pageBlock_inj hblock

namespace Session

theorem pageAnalysis_ne_empty (history : List Attempt) : pageAnalysis history ≠ some "" := by
  unfold pageAnalysis
  cases history.getLast? with
  | none => exact fun h => nomatch h
  | some last =>
    cases hdigest : last.digest with
    | none =>
      intro h
      simp [hdigest] at h
    | some digest =>
      have htext := digest.description_ne_empty
      simp only [Option.bind_eq_bind, Option.bind_some, hdigest]
      split
      · exact fun h => htext (Option.some.inj h)
      · exact fun h => htext (Option.some.inj h)
      · intro h
        exact htext (String.append_eq_empty_iff.1 (Option.some.inj h)).2

theorem pageAnalysis_inj {intent document : String} {r : Report} {h h' : List Attempt}
    (hquestion : Prompt.verification intent document r (pageAnalysis h) =
      Prompt.verification intent document r (pageAnalysis h')) :
    pageAnalysis h = pageAnalysis h' := by
  have hpage := Prompt.verification_inj hquestion
  rw [Prompt.nonempty_eq_none_or (pageAnalysis_ne_empty h),
    Prompt.nonempty_eq_none_or (pageAnalysis_ne_empty h')] at hpage
  exact hpage

/-! ## Another instruction -/

namespace Task

/-- The same task, but for what belongs to its instruction: the attempts at it, and what was added
to it on account of them. -/
inductive Sibling : Task → Task → Prop
  | fresh (number : Nat) (intent intent' : String) (document document' : Option String) :
      Sibling (.fresh number intent document) (.fresh number intent' document')
  | further (existing followUp followUp' : String) (history history' : List Attempt) :
      Sibling (.further existing followUp history) (.further existing followUp' history')

/-- The task of the next round, on another instruction. -/
def anew (other : String) : Task → Task
  | fresh number _ _ => .fresh (number + 1) other none
  | further existing _ _ => .further existing other []

/-- The attempts that are still in the history of a session when the instruction of a task has been
replaced. -/
def kept (history : List Attempt) : Task → List Attempt
  | fresh .. => []
  | further .. => history

/-- The session when the instruction has been replaced on account of a judgement. -/
def turned (s : Session) (v : Verification) (other : String) (task : Task) : Session :=
  { s with
    decider := (s.rulingOn v).2
    phases := s.phases ++ [.retry]
    history := task.kept s.history
    intent := match task with
      | fresh .. => some other
      | further .. => s.intent
    world := { s.world with
      inputs := (s.rulingOn v).1.inputs
      printed := match task with
        | fresh .. =>
          s.world.printed ++ (s.rulingOn v).1.printed ++ ("↻ 重试，指令: " ++ other) ++ "\n"
        | further .. => s.world.printed ++ (s.rulingOn v).1.printed } }

/-- What is left of a call when an attempt has been judged, with the rounds that may follow. -/
def rest (left : Nat) (a : Attempt) (v : Verification) (task : Task) : Act Outcome := do
  match ← task.after (left == 0) a v with
  | .ended e => followUps e
  | .again next => do followUps (← next.later left)

end Task

variable {s s' : Session} {p p' : List ModelRequest} {a : Attempt} {v : Verification} {d : Decision}
  {other : String} {task : Task}

/-- The parts of a call from the first round on a task on. -/
theorem call_eq (left : Nat) (task : Task) :
    task.rounds left >>= followUps = (do
      let document ← task.obtain
      let report ← executed task.instruction document
      let (a, v) ← concluded { intent := task.instruction, document, report := some report } report
      record a
      task.rest left a v) := by
  rw [rounds_eq, round_eq]
  simp only [bind_assoc]
  congr! 8 with document report concluded _
  unfold Task.rest
  congr 1
  funext next
  cases next <;> rfl

theorem twin_rest {H : List Attempt → List Attempt → Prop}
    (hH : Aligned H) (htask : task.Tells H) (left : Nat) (a : Attempt) (v : Verification) :
    Parallel (Twin p p' id H) (fun _ _ => True) (task.rest left a v) (task.rest left a v) := by
  refine parallel_bind (twin_after htask hH.nil _ a v) fun next next' hnext => ?_
  cases hnext with
  | ended asks => exact twin_followUps hH asks
  | @again next tells =>
    refine parallel_bind ?_ fun _ _ he => twin_followUps hH he
    cases left with
    | zero => exact twin_abandon _ _
    | succ left => exact twin_rounds hH tells left

/-- After a decision for another instruction there is a round on that. -/
theorem after_modify (task : Task) (a : Attempt) (hv : v.success = false)
    (hd : (s.rulingOn v).1.decision = .ok d) (hkind : d.kind = .modify)
    (hother : given? d.text = some other) :
    (task.after false a v).run s = (.ok (.again (task.anew other)), task.turned s v other) := by
  have hfailed : ¬ v.success = true := by
    rw [hv]
    exact Bool.false_ne_true
  have hconsult : (consult (Decider.onFailure (some v))).run s =
      (.ok d, { s with
        decider := (s.rulingOn v).2
        world := { s.world with
          inputs := (s.rulingOn v).1.inputs
          printed := s.world.printed ++ (s.rulingOn v).1.printed } }) := by
    rw [rulingOn_failure hv] at hd ⊢
    refine Prod.ext ?_ rfl
    rw [(consult_run _ s).1, hd]
    rfl
  cases task with
  | fresh number intent document =>
    unfold Task.after
    rw [run_map, if_neg hfailed]
    unfold afterFailure
    rw [if_neg Bool.false_ne_true, run_bind_ok hconsult]
    simp only [hkind, hother, Option.getD_some]
    rfl
  | further existing followUp history =>
    unfold Task.after
    rw [run_map, if_neg hfailed]
    unfold afterFailedSteps
    rw [if_neg Bool.false_ne_true, run_bind_ok hconsult]
    simp only [hkind, hother, Option.getD_some]
    rfl

/-! ## What the model is asked then -/

/-- A question for a judgement, in other words. -/
def rephrased (prompt : String) (q : ModelRequest) : ModelRequest :=
  { q with prompt }

/-- What two sessions have asked the model behind some requests is the same, but for at most one
question for a judgement on an instruction: that shows what was learnt of the page in the last of
some attempts, and in the other session in the last of other ones. -/
def Strays (intent : String) (h h' : List Attempt) (p : List ModelRequest) (t t' : Session) :
    Prop :=
  ∃ (document : String) (report : Report) (before judged behind : List ModelRequest),
    AtMostOnce (Prompt.verification intent document report (pageAnalysis h)) judged ∧
      t.world.requests = p ++ (before ++ judged ++ behind) ∧
      t'.world.requests = p ++ (before ++ judged.map (rephrased
        (Prompt.verification intent document report (pageAnalysis h'))) ++ behind)

/-- In other words a question is the same exactly if it tells the same of the page. -/
theorem map_rephrased_iff {intent document : String} {r : Report} {h h' : List Attempt}
    {judged : List ModelRequest}
    (honce : AtMostOnce (Prompt.verification intent document r (pageAnalysis h)) judged) :
    judged.map (rephrased (Prompt.verification intent document r (pageAnalysis h'))) = judged ↔
      judged = [] ∨ pageAnalysis h' = pageAnalysis h := by
  constructor
  · intro hsame
    cases judged with
    | nil => exact Or.inl rfl
    | cons q rest =>
      have hprompt := congrArg ModelRequest.prompt (List.cons.inj hsame).1
      exact Or.inr (pageAnalysis_inj (hprompt.trans (honce.2 q List.mem_cons_self)))
  · rintro (rfl | hpage)
    · rfl
    · rw [hpage]
      have hfixed : ∀ q ∈ judged,
          rephrased (Prompt.verification intent document r (pageAnalysis h)) q = q := by
        intro q hq
        rw [rephrased, ← honce.2 q hq]
      rw [List.map_congr_left hfixed, List.map_id']

/-- Sessions that have not come to a judgement have asked the same. -/
theorem Twin.strays {p : List ModelRequest} {H : List Attempt → List Attempt → Prop}
    {u u' : Session} (hu : Twin p p id H u u') (intent : String) (h h' : List Attempt) :
    Strays intent h h' p u u' := by
  obtain ⟨q, hq, hq'⟩ := hu.world.requests
  refine ⟨"", default, q, [], [], atMostOnce_nil _, ?_, ?_⟩
  · rw [hq, List.append_nil, List.append_nil]
  · rw [hq', List.map_id, List.map_nil, List.append_nil, List.append_nil]

/-- Sessions behind the judgement on an attempt, if their histories were `k` and `k'`: the question
differs, if there was one, and nothing else does. -/
structure Diverged (intent document : String) (r : Report) (k k' : List Attempt)
    (s s' t t' : Session) : Prop where
  twin : Twin s.world.requests s'.world.requests
    (rephrased (Prompt.verification intent document r (pageAnalysis k')))
    (fun h h' => h = k ∧ h' = k') t t'
  asked : ∃ judged, AtMostOnce (Prompt.verification intent document r (pageAnalysis k)) judged ∧
    t.world.requests = s.world.requests ++ judged

/-- The judgement on an attempt in sessions with different histories. -/
theorem concluded_diverged {k k' : List Attempt} {a : Attempt} {r : Report}
    (hs : Twin p p' id (fun h h' => h = k ∧ h' = k') s s') :
    Meets (Diverged a.intent a.document r k k' s s') Eq ((concluded a r).run s)
      ((concluded a r).run s') := by
  have hrephrases : Rephrases
      (rephrased (Prompt.verification a.intent a.document r (pageAnalysis k')))
      (fun h h' => h = k ∧ h' = k') a.intent a.document r := by
    rintro h h' model temperature ⟨-, rfl⟩
    rfl
  have hmeets := twin_concluded hrephrases s s' { hs with world := hs.world.anew _ }
  have hquestion : s.question a.intent a.document r =
      Prompt.verification a.intent a.document r (pageAnalysis k) := by
    rw [Session.question, hs.history.1]
  cases hrun : (concluded a r).run s with
  | mk q t =>
    rw [hrun] at hmeets
    obtain ⟨judged, honce, hledger⟩ := (concluded_cases hrun).1
    rw [hquestion] at honce
    exact ⟨hmeets.result, hmeets.state, judged, honce, congrArg Ledger.requests hledger⟩

/-- What comes behind such a judgement adds requests that are the same. -/
theorem Diverged.strays {intent document : String} {r : Report} {k k' : List Attempt}
    {t t' u u' : Session} {H K : List Attempt → List Attempt → Prop}
    (ht : Diverged intent document r k k' s s' t t') (hs : Twin p p id H s s')
    (hu : Twin t.world.requests t'.world.requests id K u u') : Strays intent k k' p u u' := by
  obtain ⟨before, hbefore, hbefore'⟩ := hs.world.requests
  obtain ⟨judged, honce, hjudged⟩ := ht.asked
  obtain ⟨q, hq, hq'⟩ := ht.twin.world.requests
  -- what the judgement asked is what the two sessions have in common since then
  obtain rfl : judged = q := List.append_cancel_left (hjudged.symm.trans hq)
  obtain ⟨behind, hbehind, hbehind'⟩ := hu.world.requests
  refine ⟨document, r, before, judged, behind, honce, ?_, ?_⟩
  · rw [hbehind, hjudged, hbefore]
    simp only [List.append_assoc]
  · rw [hbehind', hq', hbefore', List.map_id, List.map_id]
    simp only [List.append_assoc]

/-- Rounds on a continuation that is told of no attempts, in sessions with different histories. -/
theorem strays_call (existing other : String) {k k' : List Attempt} (left : Nat)
    (hs : Twin p p id (fun h h' => h = k ∧ h' = k') s s') :
    Meets (Strays other k k' p) (fun _ _ => True)
      (((Task.further existing other []).rounds left >>= followUps).run s)
      (((Task.further existing other []).rounds left >>= followUps).run s') := by
  -- up to the judgement the histories are `k` and `k'` and are not looked at
  rw [call_eq]
  have hobtain := twin_obtain (tells_further existing other []) s s' hs
  refine hobtain.bind (fun _ _ h => h.strays other k k') ?_
  rintro document _ u u' rfl hu
  refine (twin_executed _ _ u u' hu).bind (fun _ _ h => h.strays other k k') ?_
  rintro report _ u u' rfl hu
  refine (concluded_diverged hu).bind (fun x x' hx => ?_) ?_
  · have hstopped : Twin x.world.requests x'.world.requests id (fun h h' => h = k ∧ h' = k') x x' :=
      { hx.twin with world := hx.twin.world.anew id }
    exact hx.strays hu hstopped
  rintro ⟨a, v⟩ _ x x' rfl hx
  -- the attempt just judged is the last one in both histories, and only the last tells of the page
  have hrecorded : Twin x.world.requests x'.world.requests id
      (fun h h' => pageAnalysis h = pageAnalysis h')
      { x with history := x.history ++ [a] } { x' with history := x'.history ++ [a] } :=
    { hx.twin with history := pageAnalysis_append _ _ _, world := hx.twin.world.anew id }
  obtain ⟨hresult, ht⟩ := twin_rest aligned_page (tells_further existing other []) left a v _ _
    hrecorded
  exact ⟨hresult, hx.strays hu ht⟩

/-! ## Two histories -/

/-- The session in which the instruction has been replaced, after one history or another. -/
theorem Task.Sibling.twin {task' : Task} (hsibling : task.Sibling task') {v' : Verification}
    (history' : List Attempt) (other : String)
    (hinputs : (s.rulingOn v).1.inputs = (s.rulingOn v').1.inputs)
    (hdecider : (s.rulingOn v).2 = (s.rulingOn v').2) :
    Twin s.world.requests s.world.requests id
      (fun h h' => h = task.kept s.history ∧ h' = task.kept history')
      (task.turned s v other) (task'.turned { s with history := history' } v' other) := by
  have hworld : World.Beside s.world.requests s.world.requests id
      (task.turned s v other).world (task'.turned { s with history := history' } v' other).world :=
    { clock := rfl, drawn := rfl, disk := rfl, page := rfl, replies := rfl, inputs := hinputs
      requests := ⟨[], (List.append_nil _).symm, (List.append_nil _).symm⟩ }
  cases hsibling with
  | fresh number intent intent' document document' =>
    exact ⟨rfl, hdecider, rfl, rfl, rfl, rfl, hworld, ⟨rfl, rfl⟩, rfl⟩
  | further existing followUp followUp' history history' =>
    exact ⟨rfl, hdecider, rfl, rfl, rfl, rfl, hworld, ⟨rfl, rfl⟩, rfl⟩

theorem Task.Sibling.anew {task' : Task} (hsibling : task.Sibling task') (other : String) :
    task'.anew other = task.anew other := by
  cases hsibling <;> rfl

/-- What is left of a call after a decision for another instruction are rounds on that. -/
theorem rest_modify (task : Task) (a : Attempt) (left : Nat) (hv : v.success = false)
    (hd : (s.rulingOn v).1.decision = .ok d) (hkind : d.kind = .modify)
    (hother : given? d.text = some other) :
    (task.rest (left + 1) a v).run s =
      (((task.anew other).rounds left) >>= followUps).run (task.turned s v other) := by
  have hafter := after_modify task a hv hd hkind hother
  unfold Task.rest
  rw [show (left + 1 == 0) = false from rfl, run_bind_ok hafter]
  rfl

/-- A session in which a failed attempt is answered with another instruction, and the same session
with other attempts in its history. Both ask the model the same in what is left of the call, but for
one question for a judgement at most, and that only on a continuation. The two are asked the same
exactly if there is no such question, or if the same was learnt of the page in the last attempts. -/
theorem replaced_alike_iff (s : Session) (history' : List Attempt) {task task' : Task}
    (a a' : Attempt) (v v' : Verification) {left : Nat} (hleft : left ≠ 0)
    (hsibling : task.Sibling task') (hv : v.success = false) (hv' : v'.success = false)
    (hd : (s.rulingOn v).1.decision = .ok d) (hd' : (s.rulingOn v').1.decision = .ok d)
    (hinputs : (s.rulingOn v).1.inputs = (s.rulingOn v').1.inputs)
    (hdecider : (s.rulingOn v).2 = (s.rulingOn v').2)
    (hkind : d.kind = .modify) (hother : given? d.text = some other) :
    let t := ((task.rest left a v).run s).2
    let t' := ((task'.rest left a' v').run { s with history := history' }).2
    ∃ (document : String) (report : Report) (before judged behind : List ModelRequest),
      AtMostOnce (Prompt.verification other document report (pageAnalysis s.history)) judged ∧
      t.world.requests = s.world.requests ++ (before ++ judged ++ behind) ∧
      t'.world.requests = s.world.requests ++ (before ++ judged.map (rephrased
        (Prompt.verification other document report (pageAnalysis history'))) ++ behind) ∧
      (judged ≠ [] → ∃ existing followUp history, task = .further existing followUp history) ∧
      (t'.world.requests = t.world.requests ↔
        judged = [] ∨ pageAnalysis history' = pageAnalysis s.history) := by
  intro t t'
  obtain ⟨left, rfl⟩ := Nat.exists_eq_succ_of_ne_zero hleft
  have htwin := hsibling.twin history' other hinputs hdecider
  have hrun : t = _ := congrArg Prod.snd (rest_modify task a left hv hd hkind hother)
  have hrun' : t' = _ := congrArg Prod.snd (rest_modify (s := { s with history := history' }) task'
    a' left hv' hd' hkind hother)
  rw [hsibling.anew] at hrun'
  clear_value t t'
  cases task with
  | fresh number intent document =>
    -- both histories begin anew
    have hsame : Twin s.world.requests s.world.requests id Eq _ _ :=
      { htwin with history := htwin.history.1.trans htwin.history.2.symm }
    have hcall := twin_call aligned_eq
      (tells_fresh (fun _ _ h => h) (number + 1) other none) left _ _ hsame
    obtain ⟨q, hq, hq'⟩ := hcall.state.world.requests
    have hsent : t.world.requests = s.world.requests ++ q := by rw [hrun]; exact hq
    have hsent' : t'.world.requests = s.world.requests ++ q := by
      rw [hrun', ← List.map_id q]
      exact hq'
    refine ⟨"", default, q, [], [], atMostOnce_nil _, ?_, ?_, fun h => absurd rfl h, ?_⟩
    · rw [hsent, List.append_nil, List.append_nil]
    · rw [hsent', List.map_nil, List.append_nil, List.append_nil]
    · exact iff_of_true (hsent'.trans hsent.symm) (Or.inl rfl)
  | further existing followUp history =>
    have hcall := strays_call existing other left htwin
    have hstrays : Strays other s.history history' s.world.requests t t' := by
      rw [hrun, hrun']
      exact hcall.state
    obtain ⟨document, report, before, judged, behind, honce, hsent, hsent'⟩ := hstrays
    refine ⟨document, report, before, judged, behind, honce, hsent, hsent', fun _ => ⟨_, _, _, rfl⟩,
      ?_⟩
    rw [hsent, hsent', List.append_cancel_left_eq, List.append_cancel_right_eq,
      List.append_cancel_left_eq]
    exact map_rephrased_iff honce

/-- An attempt in which the page has been looked at. -/
def looked : Attempt :=
  { intent := "look", document := "[]", digest := some { url := "about:blank", title := "" } }

/-- A session with this attempt, in which another instruction is given. -/
def replacing : Session :=
  { settings := {}
    decider := .scripted [{ kind := .modify, text := some "press" }] []
    history := [looked]
    world := { replies := [.content (some "[]"), .content (some "success")] } }

/-- On an instruction the model is then asked the same as if the page had not been looked at. -/
theorem replaced_alike_iff_looked :
    ((Task.rest 1 looked (emptyVerdict none) (.fresh 1 "look" none)).run
        replacing).2.world.requests =
      ((Task.rest 1 looked.blind (emptyVerdict none) (.fresh 1 "look" none)).run
        { replacing with history := [looked.blind] }).2.world.requests := by
  have halike := replaced_alike_iff replacing [looked.blind] looked looked.blind
    (emptyVerdict none) (emptyVerdict none) Nat.one_ne_zero (.fresh 1 "look" "look" none none)
    rfl rfl rfl rfl rfl rfl rfl rfl
  obtain ⟨_, _, _, judged, _, -, -, -, hfurther, hiff⟩ := halike
  have hnone : judged = [] := by
    by_contra hjudged
    obtain ⟨_, _, _, htask⟩ := hfurther hjudged
    cases htask
  dsimp only
  exact (hiff.2 (Or.inl hnone)).symm

/-! ## A continuation that shows what was dropped -/

/-- A session with an accepted document, in which a continuation finds no data and is replaced by
another one. -/
def straying : Session :=
  { settings := {}
    decider := .scripted [{ kind := .modify, text := some "press End" }] []
    intent := some "open news"
    accepted := some
      { state := .accept
        document := some "[]"
        attempts := []
        verification := none
        reason := "" }
    world :=
      { page := { results := [.value (.list [])] }
        replies := [.content (some "- evaluate: x"), .content (some "[]")] } }

/-- The session behind a trial, with another attempt in the place of that. -/
def Trial.instead {x : Lap} (T : Trial x) (b : Attempt) : Session :=
  { T.concluded with history := T.concluded.history ++ [b] }

/-- Whether another continuation is decided on behind a round, and what is left of the call ends
with another prompt if the page was not looked at in it. -/
def Lap.strays (left : Nat) (x : Lap) : Bool :=
  match x.task.obtain.run x.start with
  | (.ok document, s) =>
    match (executed x.task.instruction document).run s with
    | (.ok report, s) =>
      match (concluded { intent := x.task.instruction, document, report := some report }
        report).run s with
      | (.ok (a, v), s) =>
        let asked (b : Attempt) := ((x.task.rest left a v).run
          { s with history := s.history ++ [b] }).2.world.requests.getLast?.map (·.prompt)
        let turns : Bool := match (s.rulingOn v).1.decision with
          | .ok d => d.kind = .modify && (given? d.text).isSome
          | .error _ => false
        !v.success && turns && asked a != asked a.blind
      | _ => false
    | _ => false
  | _ => false

theorem Lap.strays_trial {x : Lap} {left : Nat} (h : x.strays left = true) :
    ∃ (T : Trial x) (d : Decision) (other : String), T.verification.success = false ∧
      (T.recorded.rulingOn T.verification).1.decision = .ok d ∧ d.kind = .modify ∧
      given? d.text = some other ∧
      ((x.task.rest left T.attempt T.verification).run
          (T.instead T.attempt)).2.world.requests ≠
        ((x.task.rest left T.attempt T.verification).run
          (T.instead T.attempt.blind)).2.world.requests := by
  unfold strays at h
  split at h
  · rename_i document obtained hobtain
    split at h
    · rename_i report executed hexecuted
      split at h
      · rename_i a v concluded hconcluded
        let T : Trial x :=
          ⟨document, obtained, report, executed, a, v, concluded, hobtain, hexecuted, hconcluded⟩
        rw [Bool.and_eq_true, Bool.and_eq_true, Bool.not_eq_true', bne_iff_ne] at h
        obtain ⟨⟨hv, hturns⟩, hasked⟩ := h
        split at hturns
        · rename_i d hd
          rw [Bool.and_eq_true, decide_eq_true_eq] at hturns
          obtain ⟨other, hother⟩ := Option.isSome_iff_exists.1 hturns.2
          refine ⟨T, d, other, hv, hd, hturns.1, hother, fun hsame => hasked ?_⟩
          exact congrArg (fun qs => (List.getLast? qs).map ModelRequest.prompt) hsame
        · cases hturns
      · cases h
    · cases h
  · cases h

/-- It is not so that the model is asked the same whatever attempt was dropped with the continuation
that has been replaced. -/
theorem not_replaced_alike :
    ¬ ∀ (followUp : String) (x : Lap) (T : Trial x) (left : Nat) (d : Decision) (other : String)
      (b : Attempt),
      straying.continuation? followUp = some x.task → x.start = straying → left ≠ 0 →
      T.verification.success = false →
      (T.recorded.rulingOn T.verification).1.decision = .ok d → d.kind = .modify →
      given? d.text = some other →
      ((x.task.rest left T.attempt T.verification).run
          (T.instead T.attempt)).2.world.requests =
        ((x.task.rest left T.attempt T.verification).run (T.instead b)).2.world.requests := by
  intro h
  let x : Lap := ⟨.further "[]" "extract all titles" [], false, straying⟩
  have hstrays : x.strays 1 = true := by decide +kernel
  obtain ⟨T, d, other, hv, hd, hkind, hother, hasked⟩ := Lap.strays_trial hstrays
  exact hasked (h _ x T 1 d other T.attempt.blind rfl rfl Nat.one_ne_zero hv hd hkind hother)

end Session

end BrowserFlow
