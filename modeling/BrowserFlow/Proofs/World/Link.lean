import BrowserFlow.Execution.Run
import BrowserFlow.Proofs.Parallel
import BrowserFlow.Ranking

/-!
# Worlds that the page cannot tell apart

What a step does depends on the world by its page and by the time that is left to it. A relation
between worlds is a `Link` if related worlds have the same page, their clocks are a fixed time
apart, and they stay related when time passes, the page changes or something is said. Calls of the
page, and so the steps of a document, run side by side in linked worlds (`Link.parallel_perform`).
Only what a script returned is kept on the disk, and how that compares depends on the relation.
-/

namespace BrowserFlow

open Effect

/-- Time limits in worlds whose clocks stood at `d` and `d'` at the same moment. -/
inductive World.SameLimit (d d' : Nat) : Option Nat → Option Nat → Prop
  | none : SameLimit d d' none none
  | some {l l' : Nat} (apart : l + d' = l' + d) : SameLimit d d' (some l) (some l')

/-- A relation between worlds that the page cannot tell apart, whose clocks stood at `d` and `d'` at
the same moment. -/
structure Link (d d' : Nat) (R : World → World → Prop) : Prop where
  page {w w' : World} : R w w' → w.page = w'.page
  clock {w w' : World} : R w w' → w.clock + d' = w'.clock + d
  turned {w w' : World} (p : Page) : R w w' → R { w with page := p } { w' with page := p }
  passed {w w' : World} {c c' : Nat} : c + d' = c' + d → R w w' →
    R { w with clock := c } { w' with clock := c' }
  said {w w' : World} (a a' : String) (b b' : List String) : R w w' →
    R { w with printed := a, warnings := b } { w' with printed := a', warnings := b' }

namespace Link

open World (SameLimit)

variable {d d' : Nat} {R : World → World → Prop} {limit limit' : Option Nat} {α β : Type}
  {Q : α → β → Prop}

/-! ## Time and words -/

section

variable (h : Link d d' R)

include h

theorem parallel_print {ε : Type} (a a' : String) :
    Parallel R Eq (World.print a : Effect ε World Unit) (World.print a') :=
  parallel_modify fun w w' hw => h.said (w.printed ++ a ++ "\n") (w'.printed ++ a' ++ "\n")
    w.warnings w'.warnings hw

theorem parallel_warn {ε : Type} (a a' : String) :
    Parallel R Eq (World.warn a : Effect ε World Unit) (World.warn a') :=
  parallel_modify fun w w' hw => h.said w.printed w'.printed (w.warnings ++ [a])
    (w'.warnings ++ [a']) hw

theorem parallel_pass (hlimit : SameLimit d d' limit limit') (ms : Nat) :
    Parallel R Eq (World.pass limit ms) (World.pass limit' ms) := by
  intro w w' hw
  have hclock := h.clock hw
  cases hlimit with
  | none => exact ⟨.ok rfl, h.passed (by omega) hw⟩
  | @some l l' apart =>
    have hcut : (0 < ms && l ≤ w.clock + ms) = (0 < ms && l' ≤ w'.clock + ms) := by
      have : l ≤ w.clock + ms ↔ l' ≤ w'.clock + ms := by omega
      simp only [this]
    unfold World.pass
    simp only [run_of, hcut]
    split
    · exact ⟨.error _, h.passed (by omega) hw⟩
    · exact ⟨.ok rfl, h.passed (by omega) hw⟩

theorem parallel_waitInVain (hlimit : SameLimit d d' limit limit') :
    Parallel R Q (World.waitInVain limit) (World.waitInVain limit') := by
  intro w w' hw
  have hclock := h.clock hw
  refine ⟨.error _, h.passed ?_ hw⟩
  cases hlimit with
  | none => simpa using hclock
  | some apart =>
    simp only [Option.getD_some]
    omega

theorem parallel_within {ms : Int} {x : Option Nat → Effect Fault World α}
    {y : Option Nat → Effect Fault World β}
    (hxy : ∀ limit limit', SameLimit d d' limit limit' → Parallel R Q (x limit) (y limit')) :
    Parallel R Q (World.within ms x) (World.within ms y) := by
  unfold World.within
  split
  · exact parallel_bind_eq (parallel_throw _) fun _ => parallel_get_bind fun w w' hw =>
      hxy _ _ (.some (by have := h.clock hw; omega))
  · exact parallel_get_bind fun w w' hw => hxy _ _ (.some (by have := h.clock hw; omega))

/-! ## The page -/

theorem parallel_meet (hlimit : SameLimit d d' limit limit') (trouble : Trouble) :
    Parallel R Eq (World.meet limit trouble) (World.meet limit' trouble) := by
  cases trouble with
  | hang => exact h.parallel_waitInVain hlimit
  | _ => exact parallel_throw _

theorem parallel_ordinary (hlimit : SameLimit d d' limit limit') (c : PageCall) :
    Parallel R Eq (World.ordinary limit c) (World.ordinary limit' c) := by
  refine parallel_get_bind fun w w' hw => ?_
  rw [h.page hw]
  refine parallel_bind_eq (h.parallel_pass hlimit _) fun _ => ?_
  refine parallel_get_bind fun w w' hw => ?_
  rw [h.page hw]
  refine parallel_bind_eq (parallel_lift_eq _) fun trouble => ?_
  cases trouble with
  | some trouble => exact h.parallel_meet hlimit trouble
  | none =>
    refine parallel_bind_eq (parallel_zoom (parallel_self _) (fun _ _ hu => h.page hu) ?_) ?_
    · rintro u u' p _ hu rfl
      exact h.turned p hu
    · intro answer
      exact parallel_bind_eq (h.parallel_pass hlimit _) fun _ => parallel_pure rfl

theorem parallel_special (hlimit : SameLimit d d' limit limit') (turn : Turn) :
    Parallel R Eq (World.special limit turn) (World.special limit' turn) := by
  refine parallel_bind_eq (parallel_modify fun w w' hw => ?_) fun _ => ?_
  · rw [h.page hw]
    exact h.turned _ hw
  refine parallel_bind_eq (h.parallel_pass hlimit _) fun _ => ?_
  cases turn.answer with
  | error trouble => exact h.parallel_meet hlimit trouble
  | ok answer => exact parallel_pure rfl

/-- A call of the page. -/
theorem parallel_call (hlimit : SameLimit d d' limit limit') (c : PageCall) :
    Parallel R Eq (World.call limit c) (World.call limit' c) := by
  intro w w' hw
  unfold World.call
  rw [run_bind_ok (run_get w), run_bind_ok (run_get w'), run_bind_ok (run_set _ w),
    run_bind_ok (run_set _ w'), h.page hw]
  -- the call is recorded on the page before it is made
  have hcalled := h.turned { w'.page.nextTurn.2 with calls := w'.page.nextTurn.2.calls ++ [c] } hw
  cases w'.page.nextTurn.1 with
  | some turn => exact h.parallel_special hlimit turn _ _ hcalled
  | none => exact h.parallel_ordinary hlimit c _ _ hcalled

/-- What goes on behind a call of the page. -/
theorem parallel_call_bind (hlimit : SameLimit d d' limit limit') {c : PageCall}
    {f : Value → Effect Fault World α} {g : Value → Effect Fault World β}
    (hfg : ∀ v, Parallel R Q (f v) (g v)) :
    Parallel R Q (World.call limit c >>= f) (World.call limit' c >>= g) :=
  parallel_bind_eq (h.parallel_call hlimit c) hfg

/-! ## Steps -/

theorem parallel_pressOn (hlimit : SameLimit d d' limit limit') (timeout : Int) (key : String)
    (selector : Value) : Parallel R Eq (Step.pressOn limit timeout key selector)
      (Step.pressOn limit' timeout key selector) :=
  h.parallel_call_bind hlimit fun _ => parallel_pure rfl

theorem parallel_fillFields (hlimit : SameLimit d d' limit limit') (timeout : Int)
    (fields : List FormField) :
    Parallel R Eq (Step.fillFields limit timeout fields)
      (Step.fillFields limit' timeout fields) := by
  induction fields with
  | nil => exact parallel_pure rfl
  | cons f rest ih => exact h.parallel_call_bind hlimit fun _ => ih

theorem parallel_expectText (hlimit : SameLimit d d' limit limit') (selector : Value)
    (text : String) :
    Parallel R Eq (Step.expectText limit selector text) (Step.expectText limit' selector text) := by
  refine h.parallel_call_bind hlimit fun v => parallel_bind_eq (parallel_lift_eq _) fun actual => ?_
  exact parallel_ite (parallel_throw _) (parallel_pure rfl)

theorem parallel_expectValue (hlimit : SameLimit d d' limit limit') (selector : Value)
    (value : String) :
    Parallel R Eq (Step.expectValue limit selector value)
      (Step.expectValue limit' selector value) :=
  h.parallel_call_bind hlimit fun _ => parallel_ite (parallel_throw _) (parallel_pure rfl)

/-- A step in linked worlds, where what a script returned is kept alike. -/
theorem parallel_perform {Q : StepOutcome → StepOutcome → Prop} {scene scene' : Scene}
    (hlimit : SameLimit d d' limit limit') (timeout : Int) (s : Step) (hQ : ∀ o, Q o o)
    (hextract : ∀ script format filename, s = .evaluate script format filename → Parallel R Q
      (Step.extract scene limit script format filename)
      (Step.extract scene' limit' script format filename)) :
    Parallel R Q (s.perform scene limit timeout) (s.perform scene' limit' timeout) := by
  have hcall : ∀ {c : PageCall} {o : StepOutcome}, Parallel R Q
      (World.call limit c >>= fun _ => pure o) (World.call limit' c >>= fun _ => pure o) :=
    fun {c o} => h.parallel_call_bind hlimit fun _ => parallel_pure (hQ o)
  cases s with
  | typeText s text delay submit =>
    refine h.parallel_call_bind hlimit fun _ => ?_
    cases submit with
    | true =>
      exact parallel_bind_eq (h.parallel_pressOn hlimit timeout _ s) fun _ => parallel_pure (hQ _)
    | false => exact parallel_pure (hQ _)
  | waitElement s =>
    show Parallel R Q (ite _ _ _) (ite _ _ _)
    exact parallel_ite hcall (parallel_pure (hQ _))
  | evaluate script format filename => exact hextract script format filename rfl
  | fillForm fields =>
    exact parallel_bind_eq (h.parallel_fillFields hlimit timeout fields) fun _ =>
      parallel_pure (hQ _)
  | press key s =>
    exact parallel_bind_eq (h.parallel_pressOn hlimit timeout key s) fun _ => parallel_pure (hQ _)
  | waitUrl url =>
    show Parallel R Q (ite _ _ _) (ite _ _ _)
    exact parallel_ite hcall (parallel_pure (hQ _))
  | scrollElement s =>
    show Parallel R Q (ite _ _ _) (ite _ _ _)
    exact parallel_ite (parallel_bind_eq (parallel_throw _) fun _ => hcall) hcall
  | assert s text value visible =>
    refine h.parallel_call_bind hlimit fun _ => ?_
    cases visible with
    | false => exact parallel_pure (hQ _)
    | true =>
      cases value with
      | none =>
        cases text with
        | none => exact parallel_pure (hQ _)
        | some text =>
          exact parallel_bind_eq (h.parallel_expectText hlimit s text) fun _ =>
            parallel_pure (hQ _)
      | some value =>
        have hvalue : ∀ o : StepOutcome, Parallel R Q
            (Step.expectValue limit s value >>= fun _ => pure o)
            (Step.expectValue limit' s value >>= fun _ => pure o) :=
          fun o => parallel_bind_eq (h.parallel_expectValue hlimit s value) fun _ =>
            parallel_pure (hQ o)
        cases text with
        | none => exact hvalue _
        | some text =>
          exact parallel_bind_eq (h.parallel_expectText hlimit s text) fun _ => hvalue _
  | storeElement name s =>
    show Parallel R Q (ite _ _ _) (ite _ _ _)
    let o (value : Value) : StepOutcome :=
      { output := "Stored " ++ name, stored := some (name, Step.trimmed value) }
    have hread : ∀ {c : PageCall}, Parallel R Q (World.call limit c >>= fun value => pure (o value))
        (World.call limit' c >>= fun value => pure (o value)) :=
      h.parallel_call_bind hlimit fun _ => parallel_pure (hQ _)
    exact parallel_ite (parallel_bind_eq (parallel_throw _) fun _ => hread) hread
  | storeScript name script => exact h.parallel_call_bind hlimit fun _ => parallel_pure (hQ _)
  | _ => exact hcall

/-- An action in linked worlds, whatever the instruction and wherever data is kept, where what a
script returned is kept alike. -/
theorem parallel_act {Q : StepOutcome → StepOutcome → Prop} {e e' : Executor}
    {instruction instruction' : Option String} (action : Action)
    (htimeout : e'.timeoutMs = e.timeoutMs) (hQ : ∀ o, Q o o)
    (hextract : ∀ {limit limit'}, SameLimit d d' limit limit' → ∀ script format filename,
      action.step = .evaluate script format filename → Parallel R Q
        (Step.extract ⟨e.data, instruction⟩ limit script format filename)
        (Step.extract ⟨e'.data, instruction'⟩ limit' script format filename)) :
    Parallel R Q (Execution.act e instruction action) (Execution.act e' instruction' action) := by
  have hperform : ∀ bound : Int, Parallel R Q
      (World.within bound fun limit =>
        action.step.perform ⟨e.data, instruction⟩ limit (action.step.timeout e.timeoutMs))
      (World.within bound fun limit =>
        action.step.perform ⟨e'.data, instruction'⟩ limit (action.step.timeout e.timeoutMs)) :=
    fun bound => h.parallel_within fun limit limit' hlimit =>
      h.parallel_perform hlimit _ action.step hQ (hextract hlimit)
  unfold Execution.act
  rw [htimeout]
  dsimp only
  split
  · exact parallel_bind_eq (parallel_throw _) fun _ => hperform _
  · exact hperform _

/-- So it is where an action is taken. -/
theorem parallel_take {Q : StepOutcome → StepOutcome → Prop} {e e' : Executor}
    {instruction instruction' : Option String} (number : Nat) (action : Action)
    (hregistry : e'.registry = e.registry) (htimeout : e'.timeoutMs = e.timeoutMs)
    (hQ : ∀ o, Q o o)
    (hextract : ∀ {limit limit'}, SameLimit d d' limit limit' → ∀ script format filename,
      action.step = .evaluate script format filename → Parallel R Q
        (Step.extract ⟨e.data, instruction⟩ limit script format filename)
        (Step.extract ⟨e'.data, instruction'⟩ limit' script format filename)) :
    Parallel R Q (Execution.take e instruction number action)
      (Execution.take e' instruction' number action) := by
  have hact := h.parallel_act action htimeout hQ hextract
  unfold Execution.take
  rw [hregistry, htimeout]
  split
  · exact parallel_bind_eq (parallel_throw _) fun _ => parallel_mapError hact _
  · exact parallel_mapError hact _

end

end Link

end BrowserFlow
