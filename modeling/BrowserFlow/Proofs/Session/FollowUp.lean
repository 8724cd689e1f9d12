import BrowserFlow.Proofs.Session.Alert
import BrowserFlow.Proofs.Session.Instructions
import BrowserFlow.Proofs.Text.Scan
import Mathlib.Data.List.Chain

/-!
# What the model is shown of the texts added to an instruction

A text that is given after a round is joined to the instruction with a stop and a blank, and the
request of the next round takes the two apart again, by what the first attempt was made at. It does
not drop the stop and the blank, though, but all stops and blanks in front. So what is shown as
added begins with the first text as it was given exactly if that begins with neither
(`run_followUp_iff`); a text such as the name of a class of elements loses its stop.

Between two rounds the instruction and the history change together (`Lap.revises`): the first
attempt is the one since which texts were given, and they stand in order behind its instruction
(`Heard`).
-/

namespace BrowserFlow

open Effect

/-- The text that a decision adds to the instruction. -/
def Decision.addition? (d : Decision) : Option String :=
  if d.kind = .suggestion ∨ d.kind = .feedback then Session.given? d.text else none

/-! ## Two parts -/

namespace Prompt

/-- An instruction and what was added to it, as the model is shown them. -/
def twoParts (original followUp : String) : String :=
  "\n".intercalate [
    "<original-instruction>", original, "</original-instruction>", "",
    "<follow-up-instruction>", followUp, "</follow-up-instruction>", "",
    "Note: The original instruction failed. " ++
      "The user has provided additional clarification above."]

/-- What joins a text to an instruction, taken apart into its characters. -/
def isJoint (c : Char) : Bool :=
  c = '.' || c = ' '

/-- What is shown of the text that stands behind an instruction. -/
def shown (added : String) : String :=
  String.ofList (added.toList.dropWhile isJoint)

/-- An instruction is shown in two parts if something stands behind that of the first attempt. -/
theorem instruction_of_added {added : String} (first : Attempt) (history : List Attempt)
    (hadded : added ≠ "") :
    instruction (first.intent ++ added) (first :: history) =
      twoParts first.intent (shown added) := by
  have hafter : after? first.intent (first.intent ++ added) = some added := by
    unfold after?
    rw [Text.dropPrefix?_eq_some.mpr String.toList_append, Option.map_some, String.ofList_toList]
  unfold instruction
  dsimp only
  rw [hafter]
  split
  · contradiction
  · next hempty => exact absurd (Option.some.inj hempty) hadded
  · next hsome =>
    rw [← Option.some.inj hsome]
    rfl

theorem twoParts_inj {original followUp followUp' : String}
    (h : twoParts original followUp = twoParts original followUp') : followUp = followUp' := by
  unfold twoParts at h
  simp only [String.intercalate_cons_cons, String.append_assoc, String.append_right_inj,
    String.append_left_inj] at h
  exact h

/-- A text behind a stop and a blank is shown from its first character on, with what follows it,
exactly if that is neither. -/
theorem shown_iff {text : String} {texts : List String} {more : String} (htext : text ≠ "")
    (hmore : Text.InOrder texts more.toList) :
    (text.toList <+: (shown (". " ++ text ++ more)).toList ∧
      Text.InOrder (text :: texts) (shown (". " ++ text ++ more)).toList) ↔
      ∀ c, text.toList.head? = some c → c ≠ '.' ∧ c ≠ ' ' := by
  obtain ⟨first, rest, hfirst⟩ : ∃ first rest, text.toList = first :: rest := by
    refine List.exists_cons_of_ne_nil fun h => htext ?_
    rw [← String.toList_inj, h]
    rfl
  have hshown : (shown (". " ++ text ++ more)).toList =
      (text.toList ++ more.toList).dropWhile isJoint := by
    unfold shown
    rw [String.toList_ofList, String.toList_append, String.toList_append]
    rfl
  rw [hshown]
  cases hdropped : isJoint first with
  | true =>
    refine iff_of_false (fun h => ?_) fun h => ?_
    · -- what is left begins with another character
      have hnot := List.head?_dropWhile_not isJoint (text.toList ++ more.toList)
      obtain ⟨behind, hbehind⟩ := h.1
      rw [← hbehind, hfirst, List.cons_append, List.head?_cons] at hnot
      exact absurd (hdropped.symm.trans hnot) Bool.noConfusion
    · obtain ⟨hstop, hblank⟩ := h first (by rw [hfirst]; rfl)
      simp [isJoint, hstop, hblank] at hdropped
  | false =>
    have hkept : (text.toList ++ more.toList).dropWhile isJoint = text.toList ++ more.toList := by
      rw [hfirst, List.cons_append, List.dropWhile_cons_of_neg (by rw [hdropped]; decide)]
    rw [hkept]
    refine iff_of_true ⟨List.prefix_append _ _, Text.inOrder_cons_append.mpr hmore⟩ fun c hc => ?_
    rw [hfirst] at hc
    obtain rfl := Option.some.inj hc
    simpa [isJoint] using hdropped

end Prompt

namespace Session

variable {s t : Session} {a : Attempt} {v : Verification} {d : Decision} {isLast : Bool}
  {intent intent' : String} {document document' : Option String}

/-! ## One decision -/

/-- What a decision makes of an instruction after an attempt. -/
def revised (d : Decision) (intent : String) (a : Attempt) : String :=
  if d.kind = .modify then (given? d.text).getD intent else refine intent d.addition? a

/-- The attempts that the model is told of after a decision. -/
def remembered (d : Decision) (history : List Attempt) : List Attempt :=
  if d.kind = .modify then [] else history

theorem given?_given? (text : Option String) : given? (given? text) = given? text := by
  unfold given?
  rw [Option.filter_filter]
  simp only [Bool.and_self]

theorem refine_given? (intent : String) (text : Option String) (a : Attempt) :
    refine intent (given? text) a = refine intent text a := by
  unfold refine
  rw [given?_given?]

theorem revised_of_text (h : d.kind = .suggestion ∨ d.kind = .feedback) :
    revised d intent a = refine intent d.text a := by
  have hmodify : d.kind ≠ .modify := by
    intro hkind
    rw [hkind] at h
    rcases h with h | h <;> cases h
  unfold revised Decision.addition?
  rw [if_neg hmodify, if_pos h, refine_given?]

theorem revised_of_other (hmodify : d.kind ≠ .modify)
    (htext : ¬ (d.kind = .suggestion ∨ d.kind = .feedback)) : revised d intent a = intent := by
  unfold revised Decision.addition?
  rw [if_neg hmodify, if_neg htext]
  rfl

theorem remembered_of_ne (h : d.kind ≠ .modify) (history : List Attempt) :
    remembered d history = history :=
  if_neg h

theorem consult_ok {ask : List String → Decider → Ruling × Decider} {d' : Decision}
    (h : (consult ask).run s = (.ok d', t))
    (hd : (ask s.world.inputs s.decider).1.decision = .ok d) : d' = d ∧ t.history = s.history := by
  obtain ⟨hresult, hledger⟩ := consult_run ask s
  rw [h, hd] at hresult
  rw [h] at hledger
  exact ⟨Except.ok.inj hresult, congrArg Ledger.history hledger⟩

theorem afterSuccess_revises
    (h : (afterSuccess isLast intent a v).run s = (.ok (.again intent' document'), t))
    (hd : (s.decider.onSuccess s.world.inputs).1.decision = .ok d) :
    intent' = revised d intent a ∧ t.history = remembered d s.history := by
  unfold afterSuccess at h
  rw [enter, run_bind_ok (run_modify _ s)] at h
  obtain ⟨d', u, hu, h⟩ := bind_ok h
  obtain ⟨hsame, hhistory⟩ := consult_ok hu hd
  subst hsame
  dsimp only at h
  split at h
  · obtain ⟨_, _, -, h⟩ := bind_ok h
    obtain ⟨_, _, -, h⟩ := bind_ok h
    obtain ⟨_, _, -, h⟩ := bind_ok h
    cases h
  split at h
  · rename_i hrepeats
    rw [enter, run_bind_ok (run_modify _ u)] at h
    split at h
    · rename_i hrerun
      cases h
      rw [revised_of_other (by rw [hrerun]; decide) (by rw [hrerun]; decide),
        remembered_of_ne (by rw [hrerun]; decide)]
      exact ⟨rfl, hhistory⟩
    · rename_i hrerun
      have hfeedback := hrepeats.resolve_left hrerun
      cases h
      rw [revised_of_text (Or.inr hfeedback), remembered_of_ne (by rw [hfeedback]; decide)]
      exact ⟨rfl, hhistory⟩
  · obtain ⟨_, _, -, h⟩ := bind_ok h
    cases h

theorem afterFailure_revises
    (h : (afterFailure isLast intent a v).run s = (.ok (.again intent' document'), t))
    (hd : (s.decider.onFailure (some v) s.world.inputs).1.decision = .ok d) :
    intent' = revised d intent a ∧ t.history = remembered d s.history := by
  unfold afterFailure at h
  split at h
  · obtain ⟨_, _, -, h⟩ := bind_ok h
    obtain ⟨_, _, -, h⟩ := bind_ok h
    cases h
  obtain ⟨d', u, hu, h⟩ := bind_ok h
  obtain ⟨rfl, hhistory⟩ := consult_ok hu hd
  split at h
  · obtain ⟨_, _, -, h⟩ := bind_ok h
    cases h
  rw [enter, run_bind_ok (run_modify _ u)] at h
  dsimp only at h
  split at h
  · rename_i hkind
    cases h
    unfold revised remembered
    rw [if_pos hkind, if_pos hkind]
    exact ⟨rfl, rfl⟩
  · rename_i hkind
    cases h
    rw [revised_of_text (Or.inl hkind), remembered_of_ne (by rw [hkind]; decide)]
    exact ⟨rfl, hhistory⟩
  · rename_i hkind
    cases h
    rw [revised_of_text (Or.inr hkind), remembered_of_ne (by rw [hkind]; decide)]
    exact ⟨rfl, hhistory⟩
  · rename_i hmodify hsuggestion hfeedback
    cases h
    rw [revised_of_other hmodify (not_or.mpr ⟨hsuggestion, hfeedback⟩), remembered_of_ne hmodify]
    exact ⟨rfl, hhistory⟩

/-! ## One round after another -/

/-- What was decided on the attempt of a round. -/
def Lap.Decides (x : Lap) (d : Decision) : Prop :=
  ∃ T : Trial x, (T.recorded.rulingOn T.verification).1.decision = .ok d

/-- A round is followed by another one of the same stint. -/
structure Lap.Precedes (x y : Lap) : Prop where
  result : x.result = .ok (.again y.task)
  start : y.start = x.finish

/-- After a judgement the instruction is what the decision makes of it. -/
theorem after_revises {number : Nat} {next : Task}
    (h : ((Task.fresh number intent document).after isLast a v).run s = (.ok (.again next), t))
    (hd : (s.rulingOn v).1.decision = .ok d) :
    ∃ document', next = .fresh (number + 1) (revised d intent a) document' ∧
      t.history = remembered d s.history := by
  unfold Task.after at h
  rw [run_map] at h
  generalize hafter : (if v.success then afterSuccess isLast intent a v
    else afterFailure isLast intent a v).run s = p at h
  obtain ⟨r, u⟩ := p
  obtain ⟨hresult, rfl⟩ := Prod.mk.inj h
  obtain ⟨intent', document', rfl, rfl⟩ : ∃ intent' document',
      r = .ok (.again intent' document') ∧ next = .fresh (number + 1) intent' document' := by
    cases r with
    | error f => cases hresult
    | ok q =>
      cases q with
      | ended e => cases hresult
      | again intent' document' =>
        cases hresult
        exact ⟨intent', document', rfl, rfl⟩
  refine ⟨document', ?_⟩
  cases hv : v.success with
  | true =>
    rw [rulingOn_success hv] at hd
    rw [hv, if_pos rfl] at hafter
    obtain ⟨rfl, hhistory⟩ := afterSuccess_revises hafter hd
    exact ⟨rfl, hhistory⟩
  | false =>
    rw [rulingOn_failure hv] at hd
    rw [hv, if_neg Bool.false_ne_true] at hafter
    obtain ⟨rfl, hhistory⟩ := afterFailure_revises hafter hd
    exact ⟨rfl, hhistory⟩

/-- A round on an instruction is followed by one on what the decision makes of it, with the
attempts that the model is told of from then on. -/
theorem Lap.revises {x y : Lap} {number : Nat} (htask : x.task = .fresh number intent document)
    (hdecides : x.Decides d) (h : x.Precedes y) :
    ∃ a document', a.intent = intent ∧ y.task = .fresh (number + 1) (revised d intent a) document' ∧
      y.start.history = remembered d (x.start.history ++ [a]) := by
  obtain ⟨T, hd⟩ := hdecides
  have hrun := T.run_after
  rw [h.result, htask] at hrun
  obtain ⟨document', hnext, hhistory⟩ := after_revises hrun hd
  have hattempt : T.attempt.intent = intent := by
    rw [T.concludes_attempt.intent, htask]
    rfl
  rw [T.history] at hhistory
  exact ⟨T.attempt, document', hattempt, hnext, h.start ▸ hhistory⟩

/-- The rounds of a stint follow one another. -/
theorem Runs.isChain {left : Nat} {task : Task} {laps : List Lap} {r : Except Failure Ending}
    (h : Runs left task s laps r t) :
    laps.IsChain Lap.Precedes ∧ ∀ x, laps.head? = some x → x.task = task ∧ x.start = s := by
  induction h with
  | @failed left x =>
    refine ⟨List.IsChain.singleton x, ?_⟩
    rintro _ ⟨⟩
    exact ⟨rfl, rfl⟩
  | @ended left x =>
    refine ⟨List.IsChain.singleton x, ?_⟩
    rintro _ ⟨⟩
    exact ⟨rfl, rfl⟩
  | @again left x next laps r t last result later ih =>
    obtain ⟨hchain, hhead⟩ := ih
    refine ⟨?_, ?_⟩
    · cases laps with
      | nil => exact List.IsChain.singleton x
      | cons y laps =>
        obtain ⟨htask, hstart⟩ := hhead y rfl
        exact List.isChain_cons_cons.mpr ⟨⟨htask ▸ result, hstart⟩, hchain⟩
    · rintro _ ⟨⟩
      exact ⟨rfl, rfl⟩

/-- Either all rounds of a stint are on a continuation or none is. -/
theorem Lap.Precedes.existing? {x y : Lap} (h : x.Precedes y) :
    y.task.existing? = x.task.existing? := by
  rcases x.does with hstops | ⟨T, hafter⟩
  · obtain ⟨f, hf⟩ := hstops.failed
    cases hf.symm.trans h.result
  · rw [h.result] at hafter
    cases hafter with
    | again more resumes kept ledger => exact resumes.existing?

theorem Runs.existing? {left : Nat} {task : Task} {laps : List Lap} {r : Except Failure Ending}
    (h : Runs left task s laps r t) {x : Lap} (hx : x ∈ laps) :
    x.task.existing? = task.existing? := by
  obtain ⟨hchain, hhead⟩ := h.isChain
  clear h
  induction laps generalizing task s with
  | nil => cases hx
  | cons first laps ih =>
    have hfirst : first.task = task := (hhead first rfl).1
    rcases List.mem_cons.mp hx with rfl | hx
    · rw [hfirst]
    · cases laps with
      | nil => cases hx
      | cons next laps =>
        obtain ⟨hnext, hlater⟩ := List.isChain_cons_cons.mp hchain
        rw [← hfirst, ← hnext.existing?]
        refine ih hx hlater (s := next.start) ?_
        rintro _ ⟨⟩
        exact ⟨rfl, rfl⟩

/-! ## Texts behind an instruction -/

/-- What stands behind an instruction to which texts were added one after the other: each of them
behind a stop and a blank, perhaps with what the attempt before it has returned. -/
inductive Added : List String → String → Prop
  | nil : Added [] ""
  | more {texts : List String} {added : String} (text returned : String)
      (before : Added texts added) :
      Added (texts ++ [text]) (added ++ ". " ++ text ++ returned)

theorem Added.eq_empty {added : String} (h : Added [] added) : added = "" := by
  generalize hnone : ([] : List String) = texts at h
  cases h with
  | nil => rfl
  | more => exact absurd hnone.symm (List.append_ne_nil_of_right_ne_nil _ (List.cons_ne_nil _ _))

theorem Added.first {text added : String} {texts : List String} (h : Added (text :: texts) added) :
    ∃ more, added = ". " ++ text ++ more ∧ Text.InOrder texts more.toList := by
  generalize hall : text :: texts = all at h
  induction h generalizing texts with
  | nil => cases hall
  | @more earlier added last returned before ih =>
    cases earlier with
    | nil =>
      obtain ⟨rfl, rfl⟩ := List.cons.inj hall
      obtain rfl := before.eq_empty
      exact ⟨returned, by rw [String.empty_append], trivial⟩
    | cons first earlier =>
      obtain ⟨rfl, rfl⟩ := List.cons.inj hall
      obtain ⟨more, rfl, hmore⟩ := ih rfl
      refine ⟨more ++ ". " ++ last ++ returned, by simp only [String.append_assoc], ?_⟩
      rw [String.toList_append, String.toList_append]
      refine Text.InOrder.append_right (Text.inOrder_concat_append.mpr ?_) _
      rw [String.toList_append]
      exact hmore.append_right _

/-- What a decision adds to an instruction comes behind what was added before. -/
theorem Added.refine {texts : List String} {added : String} (h : Added texts added)
    (intent : String) (d : Decision) (a : Attempt) :
    ∃ added', Session.refine (intent ++ added) d.addition? a = intent ++ added' ∧
      Added (texts ++ d.addition?.toList) added' := by
  have hgiven : given? d.addition? = d.addition? := by
    unfold Decision.addition?
    split
    · exact given?_given? d.text
    · rfl
  unfold Session.refine
  rw [hgiven]
  cases d.addition? with
  | none => exact ⟨added, rfl, by rwa [Option.toList_none, List.append_nil]⟩
  | some text =>
    cases a.report.bind Extraction.snippet? with
    | none => exact ⟨_, by simp only [String.append_assoc], .more text "" h⟩
    | some snippet =>
      refine ⟨_, ?_, .more text (" (Previous attempt extracted: " ++ snippet ++ ")") h⟩
      simp only [String.append_assoc]

/-- Before a round some texts have been added to an instruction: they stand behind it in what is
worked on, and the first attempt that the model is told of is one at that instruction alone. -/
structure Heard (intent : String) (texts : List String) (task : Task) (history : List Attempt) :
    Prop where
  behind : ∃ number added document, task = .fresh number (intent ++ added) document ∧
    Added texts added
  first : ∀ a, history.head? = some a → a.intent = intent
  none : history = [] → texts = []

theorem Heard.begin {number : Nat} : Heard intent [] (.fresh number intent document) [] where
  behind := ⟨number, "", document, by rw [String.append_empty], .nil⟩
  first _ ha := nomatch ha
  none _ := rfl

theorem Heard.step {x y : Lap} {texts : List String}
    (h : Heard intent texts x.task x.start.history) (hdecides : x.Decides d)
    (hkept : d.kind ≠ .modify) (hnext : x.Precedes y) :
    Heard intent (texts ++ d.addition?.toList) y.task y.start.history := by
  obtain ⟨number, added, document, htask, hadded⟩ := h.behind
  obtain ⟨a, document', ha, hy, hhistory⟩ := Lap.revises htask hdecides hnext
  obtain ⟨added', hrefine, hadded'⟩ := hadded.refine intent d a
  rw [remembered_of_ne hkept] at hhistory
  refine ⟨⟨number + 1, added', document', ?_, hadded'⟩, fun b hb => ?_, fun hnone => ?_⟩
  · rw [hy, revised, if_neg hkept, hrefine]
  · rw [hhistory] at hb
    cases hbefore : x.start.history with
    | nil =>
      -- the attempt is the first one, and nothing was added before it
      rw [hbefore] at hb
      obtain rfl := h.none hbefore
      obtain rfl := hadded.eq_empty
      obtain rfl := Option.some.inj hb
      rw [ha, String.append_empty]
    | cons first history =>
      rw [hbefore] at hb
      exact h.first b (hbefore ▸ hb)
  · rw [hhistory] at hnone
    exact absurd hnone (List.append_ne_nil_of_right_ne_nil _ (List.cons_ne_nil a []))

/-- So it is along the rounds in which the instruction is not modified. -/
theorem Heard.run {first x : Lap} {between : List Lap} {texts : List String}
    {decisions : List Decision} (h : Heard intent texts first.task first.start.history)
    (hchain : (first :: (between ++ [x])).IsChain Lap.Precedes)
    (hdecided : List.Forall₂ Lap.Decides (first :: between) decisions)
    (hkept : ∀ d ∈ decisions, d.kind ≠ .modify) :
    Heard intent (texts ++ decisions.filterMap Decision.addition?) x.task x.start.history := by
  induction between generalizing first texts decisions with
  | nil =>
    obtain ⟨hnext, -⟩ := List.isChain_cons_cons.mp hchain
    cases hdecided with
    | @cons _ d _ _ hd hnone =>
      cases hnone
      have hstep := h.step hd (hkept d List.mem_cons_self) hnext
      cases hadds : d.addition? <;> simpa [hadds] using hstep
  | cons next between ih =>
    obtain ⟨hnext, hlater⟩ := List.isChain_cons_cons.mp hchain
    cases hdecided with
    | @cons _ d _ ds hd hds =>
      have hstep := h.step hd (hkept d List.mem_cons_self) hnext
      have hrun := ih hstep hlater hds fun d' hd' => hkept d' (List.mem_cons_of_mem d hd')
      cases hadds : d.addition? <;> simpa [hadds] using hrun

/-! ## Requests -/

theorem Task.eq_fresh {task : Task} (h : task.existing? = none) :
    ∃ number document, task = .fresh number task.instruction document := by
  cases task with
  | fresh number intent document => exact ⟨number, document, rfl⟩
  | further existing followUp history => cases h

/-- A round asks at most for a document and then for a judgement. -/
theorem Lap.asks (x : Lap) :
    ∃ asked judged document report, Planner.AtMostOnce (x.task.prompt x.start) asked ∧
      Planner.AtMostOnce (x.question document report) judged ∧ x.sent = asked ++ judged := by
  obtain ⟨asked, judged, document, report, hasked, hjudged, hrequests⟩ := x.asksTwice
  refine ⟨asked, judged, document, report, hasked, hjudged, ?_⟩
  exact List.append_cancel_left (x.requests.symm.trans hrequests)

/-- Some texts have been added to an instruction before a round of a stint: it was worked on in the
first round, or in the one behind the last decision to modify it, and the texts are those of the
decisions since then. -/
inductive Gathered : List Lap → Lap → String → List String → Prop
  | intro {before between after : List Lap} {first x : Lap} {decisions : List Decision}
      (begins : ∀ z, before.getLast? = some z → ∃ d, z.Decides d ∧ d.kind = .modify)
      (decided : List.Forall₂ Lap.Decides (first :: between) decisions)
      (kept : ∀ d ∈ decisions, d.kind ≠ .modify) :
      Gathered (before ++ first :: (between ++ x :: after)) x first.task.instruction
        (decisions.filterMap Decision.addition?)

theorem Gathered.ne_empty {laps : List Lap} {x : Lap} {original text : String}
    {texts : List String} (h : Gathered laps x original (text :: texts)) : text ≠ "" := by
  generalize hall : text :: texts = all at h
  cases h with
  | @intro _ _ _ _ _ decisions begins decided kept =>
    have hmem : text ∈ decisions.filterMap Decision.addition? := hall ▸ List.mem_cons_self
    obtain ⟨d, -, hd⟩ := List.mem_filterMap.mp hmem
    unfold Decision.addition? at hd
    split at hd
    · rintro rfl
      obtain ⟨-, hne⟩ := Option.filter_eq_some_iff.mp hd
      exact absurd hne (by decide)
    · cases hd

/-- So it is for a round of a stint on an instruction. -/
theorem Runs.heard {left : Nat} {task : Task} {laps : List Lap} {r : Except Failure Ending}
    (h : Runs left task s laps r t) (htask : task.existing? = none) (hhistory : s.history = [])
    {x : Lap} {original : String} {texts : List String} (hx : Gathered laps x original texts) :
    Heard original texts x.task x.start.history := by
  obtain ⟨hchain, hhead⟩ := h.isChain
  cases hx with
  | @intro before between after first _ decisions begins decided kept =>
    obtain ⟨-, hbehind, hmeets⟩ := List.isChain_append.mp hchain
    have hfresh : ∀ z ∈ before ++ first :: (between ++ x :: after), z.task.existing? = none :=
      fun z hz => (h.existing? hz).trans htask
    have hbegin : first.start.history = [] := by
      cases hbefore : before.getLast? with
      | none =>
        obtain rfl := List.getLast?_eq_none_iff.mp hbefore
        rw [(hhead first rfl).2, hhistory]
      | some z =>
        obtain ⟨d, hd, hmodify⟩ := begins z hbefore
        have hz := hfresh z (List.mem_append_left _ (List.mem_of_getLast? hbefore))
        obtain ⟨_, _, hfrom⟩ := Task.eq_fresh hz
        obtain ⟨a, document, -, -, hstart⟩ := Lap.revises hfrom hd (hmeets z hbefore first rfl)
        rw [hstart, remembered, if_pos hmodify]
    obtain ⟨number, document, hfirst⟩ := Task.eq_fresh (hfresh first (by simp))
    have hheard : Heard first.task.instruction [] first.task first.start.history := by
      rw [hbegin]
      exact hfirst ▸ .begin
    have hpart : (first :: (between ++ [x])).IsChain Lap.Precedes :=
      List.IsChain.infix hbehind ⟨[], after, by simp⟩
    exact hheard.run hpart decided kept

/-- The request for the document of a round ends with the instruction. -/
theorem Task.prompt_fresh {x : Lap} (h : x.task.existing? = none) :
    ∃ parts, x.task.prompt x.start =
      "\n\n".intercalate (parts ++ [Prompt.instruction x.task.instruction x.start.history]) := by
  obtain ⟨number, document, htask⟩ := Task.eq_fresh h
  have hparts : Prompt.generationParts x.task.instruction x.start.history
      (viewAfter x.start.history).page (viewAfter x.start.history).candidates = _ :=
    Prompt.generationParts_eq
  refine ⟨_, Eq.trans ?_ (congrArg "\n\n".intercalate hparts)⟩
  rw [htask]
  rfl

/-- Texts that were added to it are shown in a part of their own. -/
theorem Heard.shown {x : Lap} {original text : String} {texts : List String}
    (h : Heard original (text :: texts) x.task x.start.history) (htext : text ≠ "") :
    ∃ followUp, Prompt.instruction x.task.instruction x.start.history =
        Prompt.twoParts original followUp ∧
      ((text.toList <+: followUp.toList ∧ Text.InOrder (text :: texts) followUp.toList) ↔
        ∀ c, text.toList.head? = some c → c ≠ '.' ∧ c ≠ ' ') := by
  obtain ⟨number, added, document, htask, hadded⟩ := h.behind
  obtain ⟨more, rfl, hmore⟩ := hadded.first
  obtain ⟨a, history, hhistory⟩ : ∃ a history, x.start.history = a :: history :=
    List.exists_cons_of_ne_nil fun hnone => nomatch h.none hnone
  obtain rfl := h.first a (by rw [hhistory]; rfl)
  have hne : ". " ++ text ++ more ≠ "" := append_ne_empty (append_ne_empty (by decide) _) _
  refine ⟨_, ?_, Prompt.shown_iff htext hmore⟩
  rw [htask, hhistory]
  exact Prompt.instruction_of_added a history hne

/-- A call of `run` begins with a stint on its instruction, whose rounds show so the texts that were
added before them. -/
theorem Served.shown {stints : List Stint} {r : Except Failure Outcome}
    (h : Served s (.run intent) stints r t) :
    ∃ stint rest, stints = stint :: rest ∧ stint.task = .fresh 1 intent none ∧
      stint.start = s.begun intent ∧
      ∀ x original text texts, Gathered stint.laps x original (text :: texts) →
        (∃ asked judged document report, Planner.AtMostOnce (x.task.prompt x.start) asked ∧
          Planner.AtMostOnce (x.question document report) judged ∧ x.sent = asked ++ judged) ∧
        (∃ parts, x.task.prompt x.start =
          "\n\n".intercalate (parts ++ [Prompt.instruction x.task.instruction x.start.history])) ∧
        ∃ followUp, Prompt.instruction x.task.instruction x.start.history =
            Prompt.twoParts original followUp ∧
          ((text.toList <+: followUp.toList ∧ Text.InOrder (text :: texts) followUp.toList) ↔
            ∀ c, text.toList.head? = some c → c ≠ '.' ∧ c ≠ ' ') := by
  cases h with
  | @run _ stint _ _ _ opening task start works =>
    obtain ⟨-, rest, rfl, -⟩ := works.continue
    refine ⟨stint, rest, rfl, task, start, ?_⟩
    intro x original text texts hx
    have hfresh : stint.task.existing? = none := by rw [task]; rfl
    have hheard := stint.runs.heard hfresh (by rw [start]; rfl) hx
    obtain ⟨_, _, _, htask, -⟩ := hheard.behind
    exact ⟨x.asks, Task.prompt_fresh (by rw [htask]; rfl), hheard.shown hx.ne_empty⟩

/-- A call of `run` begins with a stint on its instruction, whose rounds ask at most for a document
and then for a judgement. If texts have been added to an instruction before a round, then the
request for its document ends with that instruction and what is shown as added. This begins with
the first text and holds all of them in order exactly if that begins neither with a stop nor with a
blank. -/
theorem run_followUp_iff (s : Session) (intent : String) :
    ∃ stint rest, stint.task = .fresh 1 intent none ∧ stint.start = s.begun intent ∧
      Served s (.run intent) (stint :: rest) ((Session.run intent).run s).1
        ((Session.run intent).run s).2 ∧
      ∀ x original text texts, Gathered stint.laps x original (text :: texts) →
        (∃ asked judged document report, Planner.AtMostOnce (x.task.prompt x.start) asked ∧
          Planner.AtMostOnce (x.question document report) judged ∧ x.sent = asked ++ judged) ∧
        (∃ parts, x.task.prompt x.start =
          "\n\n".intercalate (parts ++ [Prompt.instruction x.task.instruction x.start.history])) ∧
        ∃ followUp, Prompt.instruction x.task.instruction x.start.history =
            Prompt.twoParts original followUp ∧
          ((text.toList <+: followUp.toList ∧ Text.InOrder (text :: texts) followUp.toList) ↔
            ∀ c, text.toList.head? = some c → c ≠ '.' ∧ c ≠ ' ') := by
  obtain ⟨stints, hserved⟩ := Call.served (c := .run intent) (s := s) rfl
  obtain ⟨stint, rest, rfl, htask, hstart, hshown⟩ := hserved.shown
  exact ⟨stint, rest, htask, hstart, hserved, hshown⟩

/-! ## A text that begins with a stop -/

/-- A session in which the model does not do at first what it is told, and is then given the name of
a class of elements. -/
def styling : Session :=
  { settings := {}
    decider := .scripted [⟨.suggestion, some ".item only"⟩] []
    world := { replies := [.content "- press: Home", .content "no", .content "- press: End",
      .content "success"] } }

/-- What the next round of a stint works on. -/
def next? (r : Except Failure Sequel) : Option (Nat × String × Option String) :=
  match r with
  | .ok (.again (.fresh number intent document)) => some (number, intent, document)
  | _ => none

theorem next?_eq_some {r : Except Failure Sequel} {number : Nat}
    (h : next? r = some (number, intent, document)) :
    r = .ok (.again (.fresh number intent document)) := by
  unfold next? at h
  split at h
  · cases h
    rfl
  · cases h

/-- The first round on an instruction in that session. -/
def stylingLap : Lap :=
  ⟨.fresh 1 "open the list" none, false, styling.begun "open the list"⟩

theorem stylingLap_result :
    stylingLap.result = .ok (.again (.fresh 2 "open the list. .item only" none)) :=
  next?_eq_some (by decide +kernel)

/-- The text is what was decided in it. -/
theorem stylingLap_decides : stylingLap.Decides ⟨.suggestion, some ".item only"⟩ := by
  rcases stylingLap.stops_or_trial with hstops | ⟨⟨T⟩⟩
  · obtain ⟨f, hf⟩ := hstops.failed
    cases hf.symm.trans stylingLap_result
  refine ⟨T, ?_⟩
  have hdecider : T.recorded.decider = styling.decider := by
    obtain ⟨_, _, -, -, hledger⟩ := T.ledger
    exact (congrArg Ledger.decider hledger :)
  cases hv : T.verification.success with
  | false =>
    rw [rulingOn_failure hv, hdecider]
    rfl
  | true =>
    -- after a success nothing would be added
    have hd : (T.recorded.rulingOn T.verification).1.decision = .ok { kind := .done } := by
      rw [rulingOn_success hv, hdecider]
      rfl
    have hrun := T.run_after
    rw [stylingLap_result] at hrun
    obtain ⟨_, hnext, -⟩ := after_revises hrun hd
    obtain ⟨-, hintent, -⟩ := Task.fresh.inj hnext
    rw [revised_of_other (by decide) (by decide)] at hintent
    exact absurd hintent (by decide)

/-- A round behind which there is another one is followed by it in its stint. -/
theorem Runs.next_lap {left : Nat} {task next : Task} {laps : List Lap}
    {r : Except Failure Ending} (h : Runs (left + 1) task s laps r t)
    (hresult : (Lap.mk task false s).result = .ok (.again next)) :
    ∃ y after, laps = ⟨task, false, s⟩ :: y :: after := by
  cases h with
  | @failed _ x f last result =>
    have hx : x = ⟨x.task, false, x.start⟩ := congrArg (fun b => Lap.mk x.task b x.start) last
    rw [← hx, result] at hresult
    cases hresult
  | @ended _ x e last result =>
    have hx : x = ⟨x.task, false, x.start⟩ := congrArg (fun b => Lap.mk x.task b x.start) last
    rw [← hx, result] at hresult
    cases hresult
  | @again _ x _ laps _ _ last result later =>
    have hx : x = ⟨x.task, false, x.start⟩ := congrArg (fun b => Lap.mk x.task b x.start) last
    rw [← hx]
    generalize x.finish = u at later
    cases later <;> exact ⟨_, _, rfl⟩

/-- Before the round behind it, the text has been added. -/
theorem gathered_styling {stint : Stint} (htask : stint.task = .fresh 1 "open the list" none)
    (hstart : stint.start = styling.begun "open the list") :
    ∃ x, Gathered stint.laps x "open the list" [".item only"] := by
  have hruns := stint.runs
  have hleft : (styling.begun "open the list").roundsLeft = 3 + 1 := by decide
  rw [htask, hstart, hleft] at hruns
  obtain ⟨y, after, hlaps⟩ := Runs.next_lap hruns stylingLap_result
  have hgathered : Gathered ([] ++ stylingLap :: ([] ++ y :: after)) y stylingLap.task.instruction
      ([⟨.suggestion, some ".item only"⟩].filterMap Decision.addition?) := by
    refine .intro (fun z hz => nomatch hz) (.cons stylingLap_decides .nil) fun d hd => ?_
    rw [List.mem_singleton.mp hd]
    decide
  rw [hlaps]
  exact ⟨y, hgathered⟩

/-- The text is not shown as it was given. -/
theorem run_followUp_iff_styling :
    ∃ stint rest x followUp, Served styling (.run "open the list") (stint :: rest)
        ((Session.run "open the list").run styling).1
        ((Session.run "open the list").run styling).2 ∧
      Gathered stint.laps x "open the list" [".item only"] ∧
      Prompt.instruction x.task.instruction x.start.history =
        Prompt.twoParts "open the list" followUp ∧
      ¬ (".item only".toList <+: followUp.toList ∧
        Text.InOrder [".item only"] followUp.toList) := by
  obtain ⟨stint, rest, htask, hstart, hserved, hshown⟩ := run_followUp_iff styling "open the list"
  obtain ⟨x, hx⟩ := gathered_styling htask hstart
  obtain ⟨-, -, followUp, hparts, hiff⟩ := hshown x _ _ _ hx
  exact ⟨stint, rest, x, followUp, hserved, hx, hparts, fun h => (hiff.mp h '.' rfl).1 rfl⟩

/-- Not every text that is added to an instruction is shown as it was given. -/
theorem not_followUp_verbatim :
    ¬ ∀ {s t : Session} {intent : String} {stint : Stint} {rest : List Stint}
      {r : Except Failure Outcome} {x : Lap} {original text : String} {texts : List String},
      Served s (.run intent) (stint :: rest) r t →
      Gathered stint.laps x original (text :: texts) →
      (∀ given ∈ text :: texts, given ≠ "" ∧ Text.trim given = given) →
      ∃ followUp, Prompt.instruction x.task.instruction x.start.history =
          Prompt.twoParts original followUp ∧
        text.toList <+: followUp.toList ∧ Text.InOrder (text :: texts) followUp.toList := by
  intro h
  obtain ⟨⟨r, t⟩, hrun⟩ : ∃ p, (Call.run "open the list").act.run styling = p := ⟨_, rfl⟩
  obtain ⟨stints, hserved⟩ := Call.served hrun
  obtain ⟨stint, rest, rfl, htask, hstart, hshown⟩ := hserved.shown
  obtain ⟨x, hx⟩ := gathered_styling htask hstart
  obtain ⟨-, -, followUp, hparts, hiff⟩ := hshown x _ _ _ hx
  have htrim : ∀ given ∈ [".item only"], given ≠ "" ∧ Text.trim given = given := by
    decide +kernel
  obtain ⟨followUp', hparts', hverbatim⟩ := h hserved hx htrim
  obtain rfl := Prompt.twoParts_inj (hparts.symm.trans hparts')
  exact (hiff.mp hverbatim '.' rfl).1 rfl

end Session

end BrowserFlow
