import BrowserFlow.Proofs.Execution.Advance
import BrowserFlow.Proofs.Execution.Rerun

/-!
# Strict runs beside others

A run that is not strict advances through all actions of a document. A strict run of the same
document on the same page advances alike as long as nothing fails, so that it comes to the same if
no step fails at all. If one does, the strict run is the other one up to and including the first
step that fails: the same reports, the same table and the same world, but without the pause behind
the step. It takes nothing more, and whatever the other run asks of the page later comes on top
(`strict_eq_lenient`).
-/

namespace BrowserFlow

open Effect

/-! ## Calls on record -/

/-- From one world to another calls of the page are added, and none are lost. -/
def World.Recalls (w w' : World) : Prop :=
  w.page.calls <+: w'.page.calls

instance : IsPreorder World World.Recalls where
  refl w := List.prefix_refl w.page.calls
  trans _ _ _ h h' := List.IsPrefix.trans h h'

theorem World.recalls_of_eq {w w' : World} (h : w'.page = w.page) : Recalls w w' := by
  unfold Recalls
  rw [h]

theorem World.recalls_onward : Onward World.Recalls where
  turned h := h
  passed _ := recalls_of_eq rfl
  said _ _ _ := recalls_of_eq rfl

/-- Keeping data does not touch the page. -/
theorem DataFolder.recalls_save (folder : DataFolder) (instruction : Option String) (data : Value)
    (format filename : Option String) :
    Leads World.Recalls (folder.save instruction data format filename) := fun w =>
  World.recalls_of_eq (folder.still_save instruction data format filename w).1

namespace Execution

variable {e : Executor} {request : RunRequest} {total number : Nat} {context context' : Table Value}
  {w w' : World} {actions : List Action}

theorem recalls_runFrom :
    World.Recalls w (runFrom e request total number context actions w).2 := by
  refine leads_runFrom World.recalls_onward fun a x n _ => ?_
  refine World.recalls_onward.leads_report total n (fun limit script format filename _ => ?_) x
  exact World.recalls_onward.leads_extract (fun folder _ data format =>
    folder.recalls_save _ data format filename) limit script format

theorem Advances.recalls {ts : List Taken} (hlenient : request.strict = false)
    (h : Advances e request total number context w actions ts context' w') :
    World.Recalls w w' := by
  have hrecalls : World.Recalls w (runFrom e request total number context actions w).2 :=
    recalls_runFrom
  rw [h.runFrom_eq (Or.inl hlenient)] at hrecalls
  exact hrecalls

/-- Behind its steps a run does nothing but print. -/
theorem world_run (e : Executor) (request : RunRequest) (context : Table Value)
    (actions : List Action) (w : World) :
    (run e request context actions w).2 =
      { (runFrom e request actions.length 1 context actions w).2 with
        printed := (run e request context actions w).2.printed } := by
  unfold run
  dsimp only
  split
  · rfl
  · rfl
  · dsimp only
    split
    · rfl
    · rfl

theorem page_run (e : Executor) (request : RunRequest) (context : Table Value)
    (actions : List Action) (w : World) :
    (run e request context actions w).2.page =
      (runFrom e request actions.length 1 context actions w).2.page := by
  rw [world_run]

/-! ## The first failure -/

/-- Of some actions that were taken one may have failed first. -/
theorem first_failure (ts : List Taken) :
    (∀ t ∈ ts, t.failure = none) ∨
      ∃ before t f later, ts = before ++ t :: later ∧ (∀ s ∈ before, s.failure = none) ∧
        t.failure = some f := by
  cases h : ts.find? fun t => t.failure.isSome with
  | none =>
    refine Or.inl fun t ht => ?_
    have := List.find?_eq_none.1 h t ht
    simpa using this
  | some t =>
    obtain ⟨hsome, before, later, hts, hbefore⟩ := List.find?_eq_some_iff_append.1 h
    obtain ⟨f, hf⟩ := Option.isSome_iff_exists.1 hsome
    refine Or.inr ⟨before, t, f, later, hts, fun s hs => ?_, hf⟩
    simpa using hbefore s hs

/-- A strict run ends behind the first step that fails. -/
theorem Advances.runFrom_strict {xs rest : List Action} {ts : List Taken} {a : Action} {u : World}
    {t : Taken} {f : ActionFailure} (hstrict : request.strict = true)
    (h : Advances e request total number context w xs ts context' w')
    (hnone : ∀ t ∈ ts, t.failure = none) (hfailure : t.failure = some f)
    (reported : (report e request.instruction total (number + xs.length)
      (fill request context' a)).run w' = (.ok t, u)) :
    runFrom e request total number context (xs ++ a :: rest) w =
      ({ steps := ts.map (·.report) ++ [t.report], context := context',
         ended := some (.action f) }, u) := by
  rw [h.runFrom_append (Or.inr hnone), runFrom_cons_failed hstrict hfailure reported]

/-- A strict run takes what another takes of the actions until the first step that fails. -/
theorem Advances.takes_strict_failed_iff {xs rest : List Action} {ts : List Taken} {a b : Action}
    {u x : World} {t : Taken} {f : ActionFailure} (hlenient : request.strict = false)
    (h : Advances e request total number context w xs ts context' w')
    (hnone : ∀ t ∈ ts, t.failure = none) (hfailure : t.failure = some f)
    (reported : (report e request.instruction total (number + xs.length)
      (fill request context' a)).run w' = (.ok t, u)) :
    Takes e { request with strict := true } total number context (xs ++ a :: rest) w b x ↔
      Takes e request total number context (xs ++ [a]) w b x := by
  have hlast : Takes e { request with strict := true } total (number + xs.length) context'
      (a :: rest) w' b x ↔ b = fill request context' a ∧ x = w' :=
    takes_cons_failed_iff reported rfl (by rw [hfailure]; exact Option.some_ne_none f)
  have hbefore : Takes e { request with strict := true } total number context (xs ++ a :: rest) w
      b x ↔ Takes e { request with strict := true } total number context xs w b x ∨
        Takes e { request with strict := true } total (number + xs.length) context' (a :: rest) w'
          b x :=
    (h.with_strict true).takes_append_iff (Or.inr hnone)
  rw [hbefore, hlast, h.takes_strict_iff hnone true, h.takes_append_iff (Or.inl hlenient),
    takes_cons_iff reported (Or.inl hlenient)]
  simp [not_takes_nil]

/-! ## The run of a document -/

/-- A strict run has ended at the first step that fails in another run of the same document. -/
structure StopsAt (e : Executor) (request : RunRequest) (context : Table Value)
    (actions : List Action) (w : World) (r : Report) (w' : World) (before : List StepReport)
    (s : StepReport) (f : ActionFailure) (c : Table Value) (u : World) : Prop where
  /-- The other run reports on these steps first. -/
  steps : before ++ [s] <+: r.steps
  succeeded : ∀ s ∈ before, s.success = true
  failed : s.success = false
  raised : run e { request with strict := true } context actions w = ((.error (.action f), c), u)
  numbered : s.number = before.length + 1
  named : f.place = s.number ∧ f.kind = s.kind ∧ s.error = some f.message
  /-- The failure carries the report on the steps until then. -/
  result : f.result = some (Report.ofSteps (before ++ [s]) ((u.clock : Int) - w.clock)
    actions.length true)
  /-- So many of the actions, run by themselves without being strict, come to the same, but for the
  pause behind the last of them. -/
  alone : runFrom e request actions.length 1 context (actions.take (before.length + 1)) w =
    ({ steps := before ++ [s], context := c }, pause e actions.length (before.length + 1) u)
  /-- No other actions are taken, and these are taken in the same worlds. -/
  takes : ∀ b x, Takes e { request with strict := true } actions.length 1 context actions w b x ↔
    Takes e request actions.length 1 context (actions.take (before.length + 1)) w b x
  /-- The calls that have been made of the page are the first of those that the other run makes. -/
  recalls : World.Recalls u w'

section

variable {xs rest : List Action} {ts later : List Taken} {a : Action} {t : Taken}
  {f : ActionFailure} {u v : World} {c : Table Value}
  (hlenient : request.strict = false)
  (hfirst : Advances e request (xs ++ a :: rest).length 1 context w xs ts c u)
  (hnone : ∀ t ∈ ts, t.failure = none) (hfailure : t.failure = some f)
  (reported : (report e request.instruction (xs ++ a :: rest).length (1 + xs.length)
    (fill request c a)).run u = (.ok t, v))

include hlenient hfirst hnone hfailure reported

/-- The strict run of some actions the first failure among which is known. -/
theorem stopsAt_of_failure {r : Report}
    (hsteps : r.steps = ts.map (·.report) ++ t.report :: later.map (·.report))
    (hrecalls : World.Recalls v w') :
    ∃ g, StopsAt e request context (xs ++ a :: rest) w r w' (ts.map (·.report)) t.report g c v := by
  have hproper := report_proper reported
  obtain ⟨herror, -, hstored, hplace, hkind, -⟩ := hproper.failed f hfailure
  have hlength : (ts.map (·.report)).length = xs.length := by
    rw [List.length_map, hfirst.length_eq]
  have hnumber : t.report.number = (ts.map (·.report)).length + 1 := by
    rw [hproper.numbered, hlength]
    omega
  have htake : (xs ++ a :: rest).take ((ts.map (·.report)).length + 1) = xs ++ [a] := by
    rw [hlength, List.take_append, List.take_of_length_le (Nat.le_succ _)]
    simp
  have hstrict : runFrom e { request with strict := true } (xs ++ a :: rest).length 1 context
      (xs ++ a :: rest) w =
        ({ steps := ts.map (·.report) ++ [t.report], context := c
           ended := some (.action f) }, v) :=
    (hfirst.with_strict true).runFrom_strict rfl hnone hfailure reported
  have halone : runFrom e request (xs ++ a :: rest).length 1 context (xs ++ [a]) w =
      ({ steps := ts.map (·.report) ++ [t.report], context := c },
        pause e (xs ++ a :: rest).length (1 + xs.length) v) := by
    rw [hfirst.runFrom_append (Or.inl hlenient), runFrom_cons_ok (Or.inl hlenient) reported,
      hstored]
    rfl
  refine ⟨{ f with result := some (Report.ofSteps (ts.map (·.report) ++ [t.report])
    ((v.clock : Int) - w.clock) (xs ++ a :: rest).length true) }, ?_⟩
  exact
    { steps := ⟨later.map (·.report), by rw [hsteps]; simp⟩
      succeeded := by
        intro s hs
        obtain ⟨t, ht, rfl⟩ := List.mem_map.1 hs
        exact (hfirst.success_iff ht).2 (hnone t ht)
      failed := by
        rw [← Bool.not_eq_true, hproper.success, hfailure]
        exact Option.some_ne_none f
      raised := by
        unfold run
        dsimp only
        rw [hstrict]
      numbered := hnumber
      named := ⟨hplace.trans hproper.numbered.symm, hkind.trans hproper.kind.symm, herror⟩
      result := rfl
      alone := by
        rw [htake, halone, hlength, Nat.add_comm]
      takes := by
        intro b x
        rw [htake]
        exact hfirst.takes_strict_failed_iff hlenient hnone hfailure reported
      recalls := hrecalls }

end

/-- What a strict run comes to, told by a run of the same document that is not strict and gives a
report. If no step fails in that report, the strict run is the same. Otherwise it gives the failure
of the first step that fails, with the report on the steps until then, and it has done what the
other run has done until then, and nothing else. -/
theorem strict_eq_lenient (e : Executor) (request : RunRequest) (context : Table Value)
    (actions : List Action) (w : World) {r : Report} {after : Table Value} {w' : World}
    (hlenient : request.strict = false)
    (hreturns : run e request context actions w = ((.ok r, after), w')) :
    ((∀ s ∈ r.steps, s.success = true) →
      run e { request with strict := true } context actions w = ((.ok r, after), w')) ∧
    ((∃ s ∈ r.steps, s.success = false) →
      ∃ before s f c u, StopsAt e request context actions w r w' before s f c u) := by
  have hok : (run e request context actions w).1.1 = .ok r := by rw [hreturns]
  obtain ⟨hended, hr⟩ := (run_ok_iff context actions w r).1 hok
  obtain ⟨ts, c, u, hadvances, -, hrun⟩ := exists_advances hended
  have hsteps : r.steps = ts.map (·.report) := by
    rw [hr, hrun]
    rfl
  constructor
  · intro hsuccess
    have hnone : ∀ t ∈ ts, t.failure = none := by
      intro t ht
      refine (hadvances.success_iff ht).1 (hsuccess _ ?_)
      rw [hsteps]
      exact List.mem_map_of_mem ht
    have hstrict := (hadvances.with_strict true).runFrom_eq (Or.inr hnone)
    rw [← hreturns]
    unfold run
    dsimp only
    rw [hstrict, hrun]
  · rintro ⟨s, hs, hfailed⟩
    rcases first_failure ts with hnone | ⟨before, t, f, later, rfl, hbefore, hf⟩
    · -- a step that failed has a failure
      rw [hsteps] at hs
      obtain ⟨t, ht, rfl⟩ := List.mem_map.1 hs
      rw [(hadvances.success_iff ht).2 (hnone t ht)] at hfailed
      cases hfailed
    · obtain ⟨xs, ys, c₁, u₁, rfl, hfirst, hrest⟩ := hadvances.split
      cases hrest with
      | @cons _ _ _ _ v _ a _ rest _ reported hlater =>
        have hrecalls : World.Recalls v w' := by
          have hpage := page_run e request context (xs ++ a :: rest) w
          rw [hreturns, hrun] at hpage
          have hpaused : World.Recalls v (pause e (xs ++ a :: rest).length (1 + xs.length) v) :=
            World.recalls_onward.leads_pause _ _ v
          have hlast : World.Recalls u w' := World.recalls_of_eq hpage
          exact trans_of _ hpaused (trans_of _ (hlater.recalls hlenient) hlast)
        rw [List.map_append, List.map_cons] at hsteps
        obtain ⟨g, hg⟩ := stopsAt_of_failure hlenient hfirst hbefore hf reported hsteps hrecalls
        exact ⟨_, _, g, _, _, hg⟩

/-- A click between two scripts. -/
def clickBetweenScripts : List Action :=
  [⟨"evaluate", .evaluate "1" none none, 1⟩,
    ⟨"click", .click (.text ".next") (.text "left") 1 none, 2⟩,
    ⟨"evaluate", .evaluate "2" none none, 3⟩]

/-- If there is nothing to click on, the strict run ends behind the click. -/
theorem strict_eq_lenient_click :
    ∃ r after w', run {} {} [] clickBetweenScripts {} = ((.ok r, after), w') ∧
      ∃ before s f c u, StopsAt {} {} [] clickBetweenScripts {} r w' before s f c u := by
  have hsuccesses : (run {} {} [] clickBetweenScripts {}).1.1.toOption.map
      (fun r => r.steps.map (·.success)) = some [true, false, true] := by
    decide +kernel
  rcases hrun : run {} {} [] clickBetweenScripts {} with ⟨⟨g | r, after⟩, w'⟩
  · rw [hrun] at hsuccesses
    cases hsuccesses
  · rw [hrun] at hsuccesses
    have hsteps : r.steps.map (·.success) = [true, false, true] := Option.some.inj hsuccesses
    have hfailed : false ∈ r.steps.map (·.success) := by
      rw [hsteps]
      decide
    obtain ⟨s, hs, hsuccess⟩ := List.mem_map.1 hfailed
    exact ⟨r, after, w', rfl, (strict_eq_lenient {} {} [] _ {} rfl hrun).2 ⟨s, hs, hsuccess⟩⟩

end Execution

end BrowserFlow
