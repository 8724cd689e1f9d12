import BrowserFlow.Execution.Run
import BrowserFlow.Proofs.Effect
import Mathlib.Data.List.Infix

/-!
# What goes on in a world

A step is built from calls of the page and what is made of the answers. Every property that passes
through these holds of a step (`Step.Passes`): the step rests because there is nothing for it to do,
or it begins with a call of the page (`Step.Passes.rests_or_begins`).

While a step is carried out the page is called, time passes and something is said. A relation of a
world to a later one is `Onward` if it allows all of that: the page may become another, as long as
its calls are only added to, and the clock may go forward. Calls of the page lead to worlds in the
relation, whatever comes of them, and so does a step (`Onward.leads_perform`). Only a script whose
data is kept does more, and how that goes depends on the relation.
-/

namespace BrowserFlow

open Effect

/-! ## The calls of a page -/

namespace Page

theorem calls_nextTurn (p : Page) : p.nextTurn.2.calls = p.calls := by
  unfold nextTurn
  split <;> rfl

theorem calls_nextResult (p : Page) : p.nextResult.2.calls = p.calls := by
  unfold nextResult
  split <;> rfl

theorem calls_followed (p : Page) (e : Element) : (p.followed e).calls = p.calls := by
  unfold followed
  split
  · split <;> rfl
  · rfl

/-- An answer that may change the page records no call if the changed page has none either. -/
theorem calls_changing {p : Page} {changed : Except Fault Page}
    (h : ∀ q, changed = .ok q → q.calls = p.calls) : (p.changing changed).2.calls = p.calls := by
  cases changed with
  | error f => rfl
  | ok q => exact h q rfl

theorem calls_withValue {p q : Page} {selector : Value} {text : String}
    (h : p.withValue selector text = .ok q) : q.calls = p.calls := by
  unfold withValue at h
  cases hneeded : p.needed selector with
  | error f =>
    rw [hneeded] at h
    cases h
  | ok found =>
    rw [hneeded] at h
    cases h
    rfl

/-- An answer of the page adds nothing to its calls: a call is recorded before it is answered. -/
theorem calls_respond (p : Page) (c : PageCall) : (p.respond c).2.calls = p.calls := by
  cases c with
  | click s button clicks timeout =>
    refine calls_changing fun q hq => ?_
    cases hneeded : p.needed s with
    | error f =>
      rw [hneeded] at hq
      cases hq
    | ok found =>
      rw [hneeded] at hq
      cases hq
      exact calls_followed p found.1
  | type s text delay timeout => exact calls_changing fun q hq => calls_withValue hq
  | fill s text timeout => exact calls_changing fun q hq => calls_withValue hq
  | evaluate script argument => exact calls_nextResult p
  | _ => rfl

end Page

/-! ## How steps begin -/

namespace Step

/-- A property of computations that passes through all that steps are built from: calls of the
page, and what is made of the answers. -/
structure Passes (limit : Option Nat) (P : {α : Type} → Effect Fault World α → Prop) : Prop where
  done {α : Type} (a : α) : P (pure a)
  call (c : PageCall) : P (World.call limit c)
  bind {α β : Type} {x : Effect Fault World α} {f : α → Effect Fault World β} (hx : P x)
    (hf : ∀ a, P (f a)) : P (x >>= f)
  text (v : Value) : P (Effect.lift (textFrom v))
  unmet {α : Type} (message : String) : P (throw (.unmet message) : Effect Fault World α)

/-- The computation calls the page first, and what follows on any answer has the property. -/
def Begins (limit : Option Nat) (P : {α : Type} → Effect Fault World α → Prop) {α : Type}
    (x : Effect Fault World α) : Prop :=
  ∃ c f, x = World.call limit c >>= f ∧ ∀ v, P (f v)

/-- What a step comes to that asks nothing of the page: there is nothing that it could wait for,
fill in, scroll to or read. -/
inductive Rests : Step → Except Fault StepOutcome → Prop
  | element {s state : Value} {t : Option Int} (nothing : s.truthy = false) :
      Rests (waitElement s state t) (.ok { output := "Waited for selector: " ++ s.plainText })
  | url {t : Option Int} : Rests (waitUrl "" t) (.ok { output := "Waited for URL: " })
  | form {t : Option Int} : Rests (fillForm [] t) (.ok { output := "Filled 0 field(s)" })
  | scroll {s : Value} (nothing : s.truthy = false) :
      Rests (scrollElement s) (.error (.absent "'to_percent'"))
  | store {name : String} {s property attributeName : Value} (nothing : s.truthy = false) :
      Rests (storeElement name s property attributeName) (.error (.absent "'script'"))

variable {limit : Option Nat} {P : {α : Type} → Effect Fault World α → Prop} {α β : Type}

theorem Rests.run_perform {s : Step} {r : Except Fault StepOutcome} (h : s.Rests r) (scene : Scene)
    (limit : Option Nat) (timeout : Int) (w : World) :
    (s.perform scene limit timeout).run w = (r, w) := by
  cases h with
  | element nothing =>
    show (ite _ _ _ : Effect Fault World StepOutcome).run w = _
    rw [if_neg (Bool.eq_false_iff.1 nothing)]
    rfl
  | scroll nothing =>
    show (ite _ _ _ : Effect Fault World StepOutcome).run w = _
    rw [nothing]
    rfl
  | store nothing =>
    show (ite _ _ _ : Effect Fault World StepOutcome).run w = _
    rw [nothing]
    rfl
  | _ => rfl

theorem Rests.unique {s : Step} {r r' : Except Fault StepOutcome} (h : s.Rests r)
    (h' : s.Rests r') : r = r' := by
  cases h <;> cases h' <;> rfl

theorem holds_ite {c : Prop} [Decidable c] {x y : Effect Fault World α} (hx : P x) (hy : P y) :
    P (if c then x else y) := by
  split
  · exact hx
  · exact hy

theorem begins_call_bind {c : PageCall} {f : Value → Effect Fault World α} (hf : ∀ v, P (f v)) :
    Begins limit P (World.call limit c >>= f) :=
  ⟨c, f, rfl, hf⟩

namespace Begins

variable {x : Effect Fault World α}

theorem holds (hx : Begins limit P x) (h : Passes limit P) : P x := by
  obtain ⟨c, f, rfl, hf⟩ := hx
  exact h.bind (h.call c) hf

theorem bind (hx : Begins limit P x) (h : Passes limit P) {f : α → Effect Fault World β}
    (hf : ∀ a, P (f a)) : Begins limit P (x >>= f) := by
  obtain ⟨c, g, rfl, hg⟩ := hx
  exact ⟨c, fun v => g v >>= f, bind_assoc _ _ _, fun v => h.bind (hg v) hf⟩

end Begins

namespace Passes

variable (h : Passes limit P)

include h

theorem begins_pressOn (timeout : Int) (key : String) (selector : Value) :
    Begins limit P (pressOn limit timeout key selector) :=
  begins_call_bind fun _ => h.done _

theorem fillFields (timeout : Int) (fields : List FormField) :
    P (Step.fillFields limit timeout fields) := by
  induction fields with
  | nil => exact h.done _
  | cons f rest ih => exact h.bind (h.call _) fun _ => ih

theorem expectText (selector : Value) (text : String) :
    P (Step.expectText limit selector text) := by
  refine h.bind (h.call _) fun v => h.bind (h.text v) fun actual => ?_
  exact holds_ite (h.unmet _) (h.done _)

theorem expectValue (selector : Value) (value : String) :
    P (Step.expectValue limit selector value) :=
  h.bind (h.call _) fun _ => holds_ite (h.unmet _) (h.done _)

/-- A step comes to something without the page, or it calls the page first; so it does if its
script does. -/
theorem rests_or_begins (scene : Scene) (s : Step) (timeout : Int)
    (hextract : ∀ script format filename, s = .evaluate script format filename →
      Begins limit P (extract scene limit script format filename)) :
    (∃ r, s.Rests r) ∨ Begins limit P (s.perform scene limit timeout) := by
  cases s with
  | evaluate script format filename => exact Or.inr (hextract script format filename rfl)
  | typeText s text delay submit =>
    refine Or.inr (begins_call_bind fun _ => ?_)
    cases submit with
    | true => exact h.bind ((h.begins_pressOn timeout _ s).holds h) fun _ => h.done _
    | false => exact h.done _
  | waitElement s =>
    cases hs : s.truthy with
    | false => exact Or.inl ⟨_, .element hs⟩
    | true =>
      refine Or.inr ?_
      show Begins limit P (ite _ _ _)
      rw [if_pos hs]
      exact begins_call_bind fun _ => h.done _
  | waitUrl url =>
    rcases eq_or_ne url "" with rfl | hurl
    · exact Or.inl ⟨_, .url⟩
    · refine Or.inr ?_
      show Begins limit P (ite _ _ _)
      rw [if_pos (by simpa using hurl)]
      exact begins_call_bind fun _ => h.done _
  | fillForm fields =>
    cases fields with
    | nil => exact Or.inl ⟨_, .form⟩
    | cons f rest =>
      have hfields : Begins limit P (Step.fillFields limit timeout (f :: rest)) :=
        begins_call_bind fun _ => h.fillFields timeout rest
      exact Or.inr (hfields.bind h fun _ => h.done _)
  | scrollElement s =>
    cases hs : s.truthy with
    | false => exact Or.inl ⟨_, .scroll hs⟩
    | true =>
      refine Or.inr ?_
      show Begins limit P (ite _ _ _)
      rw [if_neg (by rw [hs]; decide)]
      exact begins_call_bind fun _ => h.done _
  | assert s text value visible =>
    refine Or.inr (begins_call_bind fun _ => ?_)
    cases visible with
    | false => exact h.done _
    | true =>
      cases value with
      | none =>
        cases text with
        | none => exact h.done _
        | some text => exact h.bind (h.expectText s text) fun _ => h.done _
      | some value =>
        have hvalue : ∀ output : StepOutcome,
            P (Step.expectValue limit s value >>= fun _ => pure output) :=
          fun output => h.bind (h.expectValue s value) fun _ => h.done output
        cases text with
        | none => exact hvalue _
        | some text => exact h.bind (h.expectText s text) fun _ => hvalue _
  | storeElement name s =>
    cases hs : s.truthy with
    | false => exact Or.inl ⟨_, .store hs⟩
    | true =>
      refine Or.inr ?_
      show Begins limit P (ite _ _ _)
      rw [if_neg (by rw [hs]; decide)]
      exact begins_call_bind fun _ => h.done _
  | press key s =>
    exact Or.inr ((h.begins_pressOn timeout key s).bind h fun _ => h.done _)
  | _ => exact Or.inr (begins_call_bind fun _ => h.done _)

end Passes

end Step

/-! ## What goes on -/

/-- A relation of a world to a later one that allows what a step does: the page is called, time
passes and something is said. -/
structure Onward (R : World → World → Prop) : Prop where
  turned {w : World} {p : Page} : w.page.calls <+: p.calls → R w { w with page := p }
  passed {w : World} {c : Nat} : w.clock ≤ c → R w { w with clock := c }
  said (w : World) (a : String) (b : List String) : R w { w with printed := a, warnings := b }

namespace Onward

variable {R : World → World → Prop} {ε α : Type} {limit : Option Nat}

/-! ## Time and words -/

section

variable (h : Onward R)

include h

theorem leads_print (s : String) : Leads R (World.print s : Effect ε World Unit) :=
  leads_modify fun w => h.said w _ w.warnings

theorem leads_warn (s : String) : Leads R (World.warn s : Effect ε World Unit) :=
  leads_modify fun w => h.said w w.printed _

theorem leads_pass (limit : Option Nat) (ms : Nat) : Leads R (World.pass limit ms) := by
  refine leads_of fun w => ?_
  cases limit with
  | none => exact h.passed (Nat.le_add_right _ _)
  | some l =>
    dsimp only
    split
    · exact h.passed (Nat.le_max_left _ _)
    · exact h.passed (Nat.le_add_right _ _)

theorem leads_waitInVain (limit : Option Nat) :
    Leads R (World.waitInVain limit : Effect Fault World α) :=
  leads_of fun _ => h.passed (Nat.le_max_left _ _)

end

variable [IsPreorder World R]

theorem leads_within {ms : Int} {x : Option Nat → Effect Fault World α}
    (hx : ∀ limit, Leads R (x limit)) : Leads R (World.within ms x) := by
  unfold World.within
  split
  · exact leads_bind (leads_throw _) fun _ => leads_get_bind fun w => hx (some (w.clock + ms.toNat))
  · exact leads_get_bind fun w => hx (some (w.clock + ms.toNat))

variable (h : Onward R)

include h

/-! ## The page -/

theorem leads_meet (limit : Option Nat) (trouble : Trouble) :
    Leads R (World.meet limit trouble) := by
  cases trouble with
  | hang => exact h.leads_waitInVain limit
  | _ => exact leads_throw _

theorem leads_ordinary (limit : Option Nat) (c : PageCall) :
    Leads R (World.ordinary limit c) := by
  refine leads_get_bind fun w => leads_bind (h.leads_pass limit _) fun _ => ?_
  refine leads_get_bind fun w => leads_bind (leads_lift _) fun trouble => ?_
  cases trouble with
  | some trouble => exact h.leads_meet limit trouble
  | none =>
    have hrespond : Leads R (Effect.zoom (fun w : World => w.page)
        (fun page w => { w with page }) (.of fun p => p.respond c)) := by
      intro w
      refine h.turned ?_
      show w.page.calls <+: (w.page.respond c).2.calls
      rw [Page.calls_respond]
    refine leads_bind hrespond fun answer => ?_
    exact leads_bind (h.leads_pass limit _) fun _ => leads_pure answer

theorem leads_special (limit : Option Nat) (turn : Turn) :
    Leads R (World.special limit turn) := by
  have hafter : ∀ w : World, R w { w with page := w.page.after turn } := fun w =>
    h.turned (List.prefix_refl _)
  refine leads_bind (leads_modify hafter) fun _ => ?_
  refine leads_bind (h.leads_pass limit _) fun _ => ?_
  cases turn.answer with
  | error trouble => exact h.leads_meet limit trouble
  | ok answer => exact leads_pure answer

/-- A call of the page. -/
theorem leads_call (limit : Option Nat) (c : PageCall) : Leads R (World.call limit c) := by
  intro w
  unfold World.call
  rw [run_bind_ok (run_get w), run_bind_ok (run_set _ w)]
  -- the call is recorded on the page before it is made
  refine Leads.trans ?_ (h.turned ?_)
  · cases w.page.nextTurn.1 with
    | some turn => exact h.leads_special limit turn
    | none => exact h.leads_ordinary limit c
  · rw [Page.calls_nextTurn]
    exact List.prefix_append _ _

/-! ## Steps -/

theorem passes : Step.Passes limit (Leads R) where
  done := leads_pure
  call := h.leads_call limit
  bind := leads_bind
  text _ := leads_lift _
  unmet _ := leads_throw _

/-- A script, where keeping its data leads to a world in the relation as well. -/
theorem begins_extract {scene : Scene} {filename : Option String}
    (hsave : ∀ folder ∈ scene.data, ∀ data format,
      Leads R (folder.save scene.instruction data format filename))
    (limit : Option Nat) (script : String) (format : Option String) :
    Step.Begins limit (Leads R) (Step.extract scene limit script format filename) := by
  refine Step.begins_call_bind fun result => ?_
  split
  · rename_i folder hfolder _
    refine leads_bind (leads_attempt (hsave folder hfolder _ _)) fun saved => ?_
    cases saved with
    | ok path => exact leads_pure _
    | error f =>
      dsimp only
      split
      · exact leads_bind (leads_throw _) fun _ =>
          leads_bind (h.leads_warn _) fun _ => leads_pure _
      · exact leads_bind (h.leads_warn _) fun _ => leads_pure _
  · exact leads_pure _

theorem leads_extract {scene : Scene} {filename : Option String}
    (hsave : ∀ folder ∈ scene.data, ∀ data format,
      Leads R (folder.save scene.instruction data format filename))
    (limit : Option Nat) (script : String) (format : Option String) :
    Leads R (Step.extract scene limit script format filename) :=
  (h.begins_extract hsave limit script format).holds h.passes

/-- A step, where its script does. -/
theorem leads_perform {scene : Scene} {s : Step} (timeout : Int)
    (hextract : ∀ script format filename, s = .evaluate script format filename →
      Leads R (Step.extract scene limit script format filename)) :
    Leads R (s.perform scene limit timeout) := by
  by_cases hscript : ∃ script format filename, s = .evaluate script format filename
  · obtain ⟨script, format, filename, rfl⟩ := hscript
    exact hextract script format filename rfl
  · have hpasses : Step.Passes limit (Leads R) := h.passes
    have hcases := hpasses.rests_or_begins scene s timeout fun script format filename hs =>
      absurd ⟨script, format, filename, hs⟩ hscript
    rcases hcases with ⟨r, hr⟩ | hbegins
    · intro w
      rw [hr.run_perform]
      exact refl_of R w
    · exact hbegins.holds hpasses

/-! ## Actions -/

variable {e : Executor} {instruction : Option String} {a : Action}

theorem leads_act
    (hextract : ∀ limit script format filename, a.step = .evaluate script format filename →
      Leads R (Step.extract ⟨e.data, instruction⟩ limit script format filename)) :
    Leads R (Execution.act e instruction a) := by
  have hwithin : Leads R (World.within (a.step.timeout e.timeoutMs + Execution.graceMs)
      fun limit => a.step.perform ⟨e.data, instruction⟩ limit (a.step.timeout e.timeoutMs)) :=
    leads_within fun limit => h.leads_perform _ (hextract limit)
  unfold Execution.act
  dsimp only
  split
  · exact leads_bind (leads_throw _) fun _ => hwithin
  · exact hwithin

theorem leads_report (total number : Nat)
    (hextract : ∀ limit script format filename, a.step = .evaluate script format filename →
      Leads R (Step.extract ⟨e.data, instruction⟩ limit script format filename)) :
    Leads R (Execution.report e instruction total number a) := by
  have hact : Leads R (mapError (Execution.failureOf number a (a.step.timeout e.timeoutMs))
      (Execution.act e instruction a)) := leads_mapError (h.leads_act hextract)
  have htake : Leads R (Execution.take e instruction number a) := by
    show Leads R (ite _ _ _)
    exact leads_ite (leads_bind (leads_throw _) fun _ => hact) hact
  refine leads_get_bind fun _ => leads_bind (leads_attempt htake) fun outcome => ?_
  refine leads_get_bind fun _ => leads_bind (leads_lift _) fun taken => ?_
  exact leads_bind (h.leads_print _) fun _ => leads_pure taken

/-- The pause after a step only lets time pass. -/
theorem leads_pause (total number : Nat) (w : World) : R w (Execution.pause e total number w) := by
  unfold Execution.pause
  split
  · exact h.passed (Nat.le_add_right _ _)
  · exact refl_of R w

end Onward

end BrowserFlow
