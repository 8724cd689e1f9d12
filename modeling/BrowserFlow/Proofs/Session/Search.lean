import BrowserFlow.Proofs.Extraction.Query
import BrowserFlow.Proofs.Selector.Parts
import BrowserFlow.Proofs.Session.Alert

/-!
# The selector that is taken for the failed one

A round that returned no data goes by the selector that its last script was read for: the journal
records it, the analysis names it, and its parts are tried before anything else (`Trial.GoesBy`).
The script is read for the argument of its first look-up exactly if that holds no quote of either
kind (`searched_iff_plain`). Where it is read for nothing, a script before it is taken instead.
-/

namespace BrowserFlow

namespace Extraction

variable {r : Report} {earlier later : List StepReport} {step : StepReport}

/-- The last script is read first, and what it is not read for comes from a script before it. -/
theorem lastQuery?_eq (hsteps : r.steps = earlier ++ step :: later)
    (hkind : step.kind = "evaluate") (hlast : ∀ s ∈ later, s.kind ≠ "evaluate") :
    lastQuery? r = (stepQuery? step).or (lastQuery? { r with steps := earlier }) := by
  have hnone : later.reverse.findSome? (fun s =>
      if s.kind == "evaluate" then stepQuery? s else none) = none := by
    rw [List.findSome?_eq_none_iff]
    intro s hs
    rw [if_neg]
    rw [beq_iff_eq]
    exact hlast s (List.mem_reverse.1 hs)
  have hreverse : r.steps.reverse = later.reverse ++ step :: earlier.reverse := by
    rw [hsteps, List.reverse_append, List.reverse_cons, List.append_assoc, List.singleton_append]
  unfold lastQuery?
  rw [hreverse, List.findSome?_append, hnone, Option.none_or, List.findSome?_cons, hkind]
  cases stepQuery? step with
  | none => rfl
  | some selector => rfl

/-- A selector that holds a quote is never taken for the failed one. -/
theorem no_quote_of_lastQuery? {selector : String} (h : lastQuery? r = some selector) :
    ∀ c ∈ selector.toList, isQuote c = false := by
  obtain ⟨s, -, hs⟩ := List.exists_of_findSome?_eq_some h
  split at hs
  · obtain ⟨script, -, hscript⟩ := Option.bind_eq_some_iff.1 hs
    exact no_quote_of_query? hscript
  · cases hs

end Extraction

namespace Journal.StepEntry

/-- The entry on a script records what the script is read for. -/
theorem selector_ofReport {step : StepReport} (hkind : step.kind = "evaluate") :
    (ofReport step).selector = .ofOption .text (Extraction.stepQuery? step) := by
  unfold ofReport
  rw [hkind]
  rfl

end Journal.StepEntry

namespace Session

open Effect Extraction

variable {s t : Session} {a b : Attempt} {r : Report}

/-- An attempt with a digest says what the page was searched for. -/
def Analysed (r : Report) (a : Attempt) : Prop :=
  a.digest ≠ none → a.analysis = some (analysisOf (lastQuery? r) a.candidates)

theorem enriched_analysed (hdigest : a.digest = none) (h : (enriched a r).run s = (.ok b, t)) :
    Analysed r b := by
  unfold enriched at h
  obtain ⟨seen, u, -, hu⟩ := bind_ok h
  cases seen with
  | error f =>
    obtain ⟨_, _, -, hb⟩ := bind_ok hu
    cases hb
    exact fun hseen => absurd hdigest hseen
  | ok digest =>
    obtain ⟨_, _, -, hb⟩ := bind_ok hu
    cases hb
    exact fun _ => rfl

theorem concluded_analysed {v : Verification} (h : (concluded a r).run s = (.ok (b, v), t))
    (hdigest : a.digest = none) (hlacks : lacksData a.intent r = true) : Analysed r b := by
  unfold concluded at h
  obtain ⟨c, _, hc, h⟩ := bind_ok h
  have hjudged : Analysed r c := by
    unfold judged at hc
    rw [if_pos hlacks] at hc
    obtain ⟨_, _, -, hc⟩ := bind_ok hc
    obtain ⟨d, _, hd, hc⟩ := bind_ok hc
    have hanalysed := enriched_analysed hdigest hd
    cases hc
    exact hanalysed
  obtain ⟨_, _, -, h⟩ := bind_ok h
  obtain ⟨d, _, hd, h⟩ := bind_ok h
  cases h
  unfold journaled at hd
  obtain ⟨_, _, -, hd⟩ := bind_ok hd
  obtain ⟨_, _, -, hd⟩ := bind_ok hd
  cases hd
  exact hjudged

theorem byWorld_ok {α : Type} {x : Effect Fault World α} {a : α}
    (h : (x.run s.world).1 = .ok a) : ((byWorld x).run s).1 = .ok a := by
  show (x.run s.world).1.mapError Failure.fault = .ok a
  rw [h]
  rfl

/-- A trial has gone by a selector after a look at the page: its analysis names the selector, and
the first that were tried on the page are the parts of it, as far as the limit goes. -/
structure Trial.GoesBy {x : Lap} (T : Trial x) (selector : String) : Prop where
  named : ∃ rest, T.attempt.analysis =
    some (nothingFound ++ ("，选择器 " ++ selector ++ " 没有匹配到元素") ++ rest)
  tried : ∃ printed seen u order tested v,
    look.run (T.executed.saying printed) = (.ok (.ok seen), u) ∧
    T.attempt.digest = some seen ∧
    Ranking.Ranks Ranking.sampleSize (Intent.isBulk {} x.task.instruction) order u.world tested
      T.attempt.candidates v ∧
    (Selector.parts selector).eraseDups.take Ranking.suggestionLimit.toNat <+: order

theorem Trial.goesBy {x : Lap} (T : Trial x) {selector : String}
    (hlacks : lacksData x.task.instruction T.report = true) (hseen : T.attempt.digest ≠ none)
    (hfound : lastQuery? T.report = some selector) : T.GoesBy selector := by
  constructor
  case named =>
    have hanalysis : T.attempt.analysis = some (analysisOf (lastQuery? T.report) _) :=
      concluded_analysed T.concludes rfl hlacks hseen
    rw [hanalysis, hfound]
    exact ⟨_, rfl⟩
  case tried =>
    obtain ⟨printed, hlearns⟩ := T.learns
    cases hlearns with
    | nothing digest candidates => exact absurd digest hseen
    | @page seen u lacks looked digest candidates =>
      obtain ⟨order, tested, ranked, v, hrun, hranks, hfirst⟩ :=
        Ranking.tried_suggest Ranking.sampleSize (some seen) selector
          (Intent.isBulk {} x.task.instruction) 15 u.world
      have hranked : ranked = T.attempt.candidates := by
        rw [hfound, show Ranking.suggestionLimit = ((15 : Nat) : Int) from rfl] at candidates
        exact Except.ok.inj ((byWorld_ok (congrArg Prod.fst hrun)).symm.trans candidates)
      exact ⟨printed, seen, u, order, tested, v, looked, digest, hranked ▸ hranks, hfirst⟩

/-- Let the last script of a trial that lacks data have one text in quotes as the argument of its
first look-up. With the bracket right behind the name, this text is taken for the failed selector
and recorded exactly if it holds no quote of either kind; with blanks before the bracket, what the
script holds from there on is read instead. What the last script is not read for is taken from a
script before it, and what is taken is what the trial goes by. -/
theorem searched_iff_plain {x : Lap} (T : Trial x)
    (hlacks : lacksData x.task.instruction T.report = true) {earlier later : List StepReport}
    {step : StepReport} (hsteps : T.report.steps = earlier ++ step :: later)
    (hkind : step.kind = "evaluate") (hlast : ∀ s ∈ later, s.kind ≠ "evaluate") {script : String}
    (hscript : step.script? = some script) (F : FirstCall script) :
    (F.gap = [] → (lastQuery? T.report = some F.selector ↔ F.Plain) ∧
      ((Journal.StepEntry.ofReport step).selector = .text F.selector ↔ F.Plain)) ∧
    (F.gap ≠ [] → query? script = Text.findFirst? queryHere? F.arguments) ∧
    lastQuery? T.report =
      (query? script).or (lastQuery? { T.report with steps := earlier }) ∧
    ∀ selector, lastQuery? T.report = some selector → T.attempt.digest ≠ none →
      T.GoesBy selector := by
  have hstep : stepQuery? step = query? script := by
    unfold stepQuery?
    rw [hscript, Option.bind_some]
  have htaken := lastQuery?_eq hsteps hkind hlast
  have hentry := Journal.StepEntry.selector_ofReport hkind
  rw [hstep] at htaken hentry
  refine ⟨fun hgap => ⟨⟨no_quote_of_lastQuery?, fun hplain => ?_⟩, ?_⟩,
    FirstCall.query?_spaced, htaken, fun selector hfound hseen => T.goesBy hlacks hseen hfound⟩
  · rw [htaken, FirstCall.query?_of_plain hgap hplain, Option.some_or]
  · rw [hentry, ← FirstCall.query?_eq_iff hgap]
    cases query? script with
    | none => exact iff_of_false (fun h => nomatch h) (fun h => nomatch h)
    | some selector =>
      exact ⟨fun h => congrArg some (Value.text.inj h),
        fun h => congrArg Value.text (Option.some.inj h)⟩

/-! ## Two selectors -/

/-- A script that looks for a selector in some quotes, and does nothing else. -/
def lookingFor (quote : Char) (selector : String) : String :=
  String.ofList ("document.querySelectorAll(".toList ++ quote :: (selector.toList ++ [quote, ')']))

/-- The look-up of such a script. -/
def lookUp (quote : Char) (selector : String) (quoted : isQuote quote = true)
    (full : selector ≠ "") (closed : quote ∉ selector.toList) :
    FirstCall (lookingFor quote selector) where
  before := "document.".toList
  name := "querySelectorAll".toList
  gap := []
  lead := []
  quote := quote
  selector := selector
  trail := []
  behind := []
  text := String.toList_ofList
  first := by
    intro name _ gap _ hcalled
    exact absurd (hcalled.subset (List.mem_append_right _ List.mem_cons_self)) (by decide)
  named := by decide
  blanks := fun _ hc => absurd hc List.not_mem_nil
  quoted := quoted
  full := full
  closed := closed

/-- A session in which the model answers with such a script, and the page with an empty list. -/
def searching (quote : Char) (selector : String) : Session :=
  { settings := {}
    decider := .scripted [] []
    world :=
      { page := { results := [.value (.list [])] }
        replies := [.content (some ("- evaluate: |-\n    " ++ lookingFor quote selector))] } }

/-- The first round of a session on an instruction that asks for data. -/
def firstSearch (s : Session) : Lap :=
  ⟨.fresh 1 "extract all titles" none, false, s.begun "extract all titles"⟩

/-- The report and the attempt of a round that comes to a judgement. -/
def Lap.tried? (x : Lap) : Option (Report × Attempt) :=
  match x.task.obtain.run x.start with
  | (.ok document, s) =>
    match (executed x.task.instruction document).run s with
    | (.ok r, u) =>
      match (concluded { intent := x.task.instruction, document, report := some r } r).run u with
      | (.ok (a, _), _) => some (r, a)
      | _ => none
    | _ => none
  | _ => none

theorem Lap.exists_trial {x : Lap} (h : x.tried? = some (r, a)) :
    ∃ T : Trial x, T.report = r ∧ T.attempt = a := by
  unfold tried? at h
  split at h
  · rename_i document t hobtains
    split at h
    · rename_i r' u hexecutes
      split at h
      · rename_i a' v w hconcludes
        cases h
        exact ⟨⟨document, t, r, u, a, v, w, hobtains, hexecutes, hconcludes⟩, rfl, rfl⟩
      · cases h
    · cases h
  · cases h

/-- Whether a round ends without data, has looked at the page and consists of one script. -/
def Lap.searches (x : Lap) (script : String) : Bool :=
  x.tried?.any fun (r, a) => lacksData x.task.instruction r && a.digest.isSome &&
    r.steps.map (fun s => (s.kind, s.script?)) == [("evaluate", some script)]

theorem Lap.searches_trial {x : Lap} {script : String} (h : x.searches script = true) :
    ∃ (T : Trial x) (step : StepReport), lacksData x.task.instruction T.report = true ∧
      T.attempt.digest ≠ none ∧ T.report.steps = [] ++ step :: [] ∧ step.kind = "evaluate" ∧
      step.script? = some script := by
  obtain ⟨⟨r, a⟩, htried, hchecks⟩ := (Option.any_eq_true _ _).1 h
  obtain ⟨T, rfl, rfl⟩ := Lap.exists_trial htried
  simp only [Bool.and_eq_true, beq_iff_eq] at hchecks
  obtain ⟨⟨hlacks, hseen⟩, hsteps⟩ := hchecks
  obtain ⟨step, hstep, hparts⟩ := List.map_eq_singleton_iff.1 hsteps
  obtain ⟨hkind, hscript⟩ := Prod.mk.inj hparts
  refine ⟨T, step, hlacks, ?_, hstep, hkind, hscript⟩
  intro hnone
  rw [hnone] at hseen
  cases hseen

/-- A selector without quotes is named in the analysis and recorded, and its parts are tried. -/
theorem searched_iff_plain_items :
    ∃ (T : Trial (firstSearch (searching '"' "ul.items > li.item"))) (step : StepReport),
      lacksData "extract all titles" T.report = true ∧ T.report.steps = [] ++ step :: [] ∧
      step.kind = "evaluate" ∧
      step.script? = some "document.querySelectorAll(\"ul.items > li.item\")" ∧
      (Journal.StepEntry.ofReport step).selector = .text "ul.items > li.item" ∧
      T.GoesBy "ul.items > li.item" := by
  have hsearches : (firstSearch (searching '"' "ul.items > li.item")).searches
      (lookingFor '"' "ul.items > li.item") = true := by decide +kernel
  obtain ⟨T, step, hlacks, hseen, hsteps, hkind, hscript⟩ := Lap.searches_trial hsearches
  let F := lookUp '"' "ul.items > li.item" (by decide) (by decide) (by decide +kernel)
  have hplain : F.Plain := by decide +kernel
  obtain ⟨hdirect, -, -, hgoes⟩ := searched_iff_plain T hlacks hsteps hkind
    (fun _ hs => absurd hs List.not_mem_nil) hscript F
  obtain ⟨hfound, hrecorded⟩ := hdirect rfl
  refine ⟨T, step, hlacks, hsteps, hkind, hscript.trans (by decide +kernel), hrecorded.2 hplain, ?_⟩
  exact hgoes _ (hfound.2 hplain) hseen

/-- A selector with a quoted value in it can be missed. -/
theorem not_searched_quoted : ¬ ∀ (x : Lap) (T : Trial x) (step : StepReport) (script : String)
    (F : FirstCall script), lacksData x.task.instruction T.report = true →
    T.report.steps.getLast? = some step → step.kind = "evaluate" → step.script? = some script →
    F.gap = [] → (Journal.StepEntry.ofReport step).selector = .text F.selector := by
  intro h
  have hsearches : (firstSearch (searching '"' "a[href='x']")).searches
      (lookingFor '"' "a[href='x']") = true := by decide +kernel
  obtain ⟨T, step, hlacks, -, hsteps, hkind, hscript⟩ := Lap.searches_trial hsearches
  let F := lookUp '"' "a[href='x']" (by decide) (by decide) (by decide +kernel)
  have hlast : T.report.steps.getLast? = some step := by rw [hsteps]; rfl
  have hrecorded := h _ T step _ F hlacks hlast hkind hscript rfl
  have hentry : (Journal.StepEntry.ofReport step).selector = .null := by
    rw [Journal.StepEntry.selector_ofReport hkind]
    unfold stepQuery?
    rw [hscript, Option.bind_some, show query? (lookingFor '"' "a[href='x']") = none by
      decide +kernel]
    rfl
  cases hentry.symm.trans hrecorded

end Session

end BrowserFlow
