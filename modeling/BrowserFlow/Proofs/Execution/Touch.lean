import BrowserFlow.Proofs.Execution.Strict
import BrowserFlow.Proofs.Step.Aim
import BrowserFlow.Proofs.World.Faults

/-!
# Steps that touch the page

A step that does not rest begins with a call of the page, and fails with nothing but what comes of
the page or of a name for data that is none (`rests_or_asks`). With time for it, an action therefore comes to one of three things
(`Course`): its time is too long to be told, it rests, or it calls the page. Which of them it is can
be seen from the document and the variables, since the steps of a document rest only if they vanish
(`asks_iff`).
-/

namespace BrowserFlow

open Effect

/-! ## Calls -/

namespace World

/-- From one world to another the page has been called. -/
def Asks (w w' : World) : Prop :=
  ∃ c, w.page.calls ++ [c] <+: w'.page.calls

theorem not_asks_self (w : World) : ¬ Asks w w := by
  intro h
  obtain ⟨c, hprefix⟩ := h
  have hlength := hprefix.length_le
  rw [List.length_append, List.length_singleton] at hlength
  omega

theorem Asks.recalls {u v w : World} (h : Asks u v) (h' : Recalls v w) : Asks u w := by
  obtain ⟨c, hprefix⟩ := h
  exact ⟨c, hprefix.trans h'⟩

theorem asks_call (limit : Option Nat) (c : PageCall) : Leads Asks (call limit c) := by
  intro w
  -- the call is recorded on the page before it is made
  let recorded : World :=
    { w with page := { w.page.nextTurn.2 with calls := w.page.nextTurn.2.calls ++ [c] } }
  unfold call
  rw [run_bind_ok (run_get w), run_bind_ok (run_set _ w)]
  refine ⟨c, ?_⟩
  rw [← Page.calls_nextTurn w.page]
  cases w.page.nextTurn.1 with
  | some turn => exact recalls_onward.leads_special limit turn recorded
  | none => exact recalls_onward.leads_ordinary limit c recorded

/-- What begins with a call of the page calls it, whatever comes of the call. -/
theorem asks_of_begins {α : Type} {limit : Option Nat} {x : Effect Fault World α}
    (hx : Step.Begins limit (Leads Recalls) x) : Leads Asks x := by
  obtain ⟨c, f, rfl, hf⟩ := hx
  intro w
  rcases hrun : (call limit c).run w with ⟨r, u⟩
  have hasked : Asks w u := (asks_call limit c).of_run hrun
  cases r with
  | error fault =>
    rw [run_bind_error hrun]
    exact hasked
  | ok v =>
    rw [run_bind_ok hrun]
    exact hasked.recalls (hf v u)

/-- What has time is not cut off before it begins. -/
theorem run_within {α : Type} {ms : Int} (hpositive : 0 < ms)
    (x : Option Nat → Effect Fault World α) (w : World) :
    (within ms x).run w = (x (some (w.clock + ms.toNat))).run w := by
  unfold within
  rw [if_neg (Int.not_le.2 hpositive)]
  rfl

end World

/-! ## Steps -/

namespace Step

/-- A fault that comes of working with the page, or of a name for data that can be part of no
path. -/
def Touching (f : Fault) : Prop :=
  f.ofPage = true ∨ f = DataFolder.noPath

theorem passes_touching {limit : Option Nat} : Passes limit (Fails Touching) where
  done := fails_pure
  call c := fun w f u hrun => Or.inl (World.fails_call limit c w f u hrun)
  bind := fails_bind
  text v := by
    refine fails_lift fun f hf => Or.inl ?_
    cases v with
    | text s => cases hf
    | _ =>
      cases hf
      rfl
  unmet _ := fails_throw (Or.inl rfl)

/-- Data that the disk does not keep is no reason for a script to fail. -/
theorem begins_extract_touching (scene : Scene) (limit : Option Nat) (script : String)
    (format filename : Option String) :
    Begins limit (Fails Touching) (extract scene limit script format filename) := by
  refine begins_call_bind fun result => ?_
  split
  · rename_i folder _ _
    have hsave : Fails (fun f => f.ofDisk = true ∨ f = DataFolder.noPath)
        (folder.save scene.instruction result format filename) := by
      intro w f u hrun
      rcases folder.save_fails _ result format filename (congrArg Prod.fst hrun) with
        ⟨hdisk, -⟩ | ⟨hname, -⟩
      · exact Or.inl hdisk
      · exact Or.inr hname
    refine fails_attempt_bind hsave (fun path => fails_pure _) fun f hf => ?_
    have hwarned : ∀ line output : String, Fails Touching
        (World.warn line >>= fun _ => pure ({ output } : StepOutcome)) :=
      fun line output => fails_bind (fails_modify _) fun _ => fails_pure _
    rcases hf with hdisk | rfl
    · dsimp only
      rw [hdisk]
      exact hwarned _ _
    · exact fails_bind (fails_throw (Or.inr rfl)) fun _ => hwarned _ _
  · exact fails_pure _

/-- A step rests, or it calls the page, and then fails with nothing but what comes of the page or of
a name for data that is none. -/
theorem rests_or_asks (scene : Scene) (s : Step) (limit : Option Nat) (timeout : Int) :
    (∃ r, s.Rests r) ∨
      Leads World.Asks (s.perform scene limit timeout) ∧
        Fails Touching (s.perform scene limit timeout) := by
  have hrecalls : (∃ r, s.Rests r) ∨
      Begins limit (Leads World.Recalls) (s.perform scene limit timeout) := by
    refine World.recalls_onward.passes.rests_or_begins scene s timeout
      fun script format filename _ => ?_
    exact World.recalls_onward.begins_extract (fun folder _ data format =>
      folder.recalls_save _ data format filename) limit script format
  have hfails : (∃ r, s.Rests r) ∨ Begins limit (Fails Touching) (s.perform scene limit timeout) :=
    passes_touching.rests_or_begins scene s timeout fun script format filename _ =>
      begins_extract_touching scene limit script format filename
  rcases hrecalls with hrests | hrecalls
  · exact Or.inl hrests
  · rcases hfails with hrests | hfails
    · exact Or.inl hrests
    · exact Or.inr ⟨World.asks_of_begins hrecalls, hfails.holds passes_touching⟩

theorem timeout_substitute (env : Env) (usual : Int) (s : Step) :
    (s.substitute env).timeout usual = s.timeout usual := by
  cases s <;> rfl

end Step

/-! ## Actions -/

namespace Execution

/-- The milliseconds that a step may take. -/
def boundMs (e : Executor) (s : Step) : Int :=
  s.timeout e.timeoutMs + graceMs

/-- The fault of a step whose time is too long to be told in seconds. -/
def overlong : Fault :=
  .tooLarge "integer division result too large for a float"

/-- What comes of an action for which there is time. -/
inductive Course (e : Executor) (s : Step) (w : World) : Except Fault StepOutcome × World → Prop
  | overlong (long : timeBound ≤ boundMs e s) : Course e s w (.error overlong, w)
  | rests {r : Except Fault StepOutcome} (short : boundMs e s < timeBound) (rests : s.Rests r) :
      Course e s w (r, w)
  | asks {r : Except Fault StepOutcome} {w' : World} (short : boundMs e s < timeBound)
      (busy : ¬ ∃ r, s.Rests r) (asks : World.Asks w w')
      (fails : ∀ f, r = .error f → Step.Touching f) : Course e s w (r, w')

theorem course_act {e : Executor} {a : Action} (hpositive : 0 < boundMs e a.step)
    (instruction : Option String) (w : World) :
    Course e a.step w ((act e instruction a).run w) := by
  unfold boundMs at hpositive
  unfold act
  dsimp only
  split
  · rename_i hlong
    refine .overlong ?_
    unfold boundMs
    omega
  · rename_i hshort
    have hshort : boundMs e a.step < timeBound := by
      unfold boundMs
      omega
    rw [World.run_within hpositive]
    by_cases hrests : ∃ r, a.step.Rests r
    · obtain ⟨r, hr⟩ := hrests
      rw [hr.run_perform]
      exact .rests hshort hr
    · have hcases := Step.rests_or_asks ⟨e.data, instruction⟩ a.step
        (some (w.clock + (a.step.timeout e.timeoutMs + graceMs).toNat))
        (a.step.timeout e.timeoutMs)
      obtain ⟨hasks, hfails⟩ := hcases.resolve_left hrests
      exact .asks hshort hrests (hasks w) fun f hf => hfails w f _ (Prod.ext hf rfl)

/-- An action of a document, filled in and taken with a positive limit of time, calls the page
exactly if its time can be told and something is left of what it waits for, scrolls to or reads. It
fails for want of an argument exactly if nothing is left of what it scrolls to or reads. Where it
does not call the page, nothing at all is done. -/
theorem asks_iff {registry : Registry} {source : Option String} {document : Value}
    {actions : List Action} {a : Action}
    (hread : (Document.read registry source document).2 = .ok actions) (ha : a ∈ actions)
    (e : Executor) (instruction : Option String) (env : Env) (w : World)
    (hpositive : 0 < boundMs e a.step) {r : Except Fault StepOutcome} {w' : World}
    (hrun : (act e instruction { a with step := a.step.substitute env }).run w = (r, w')) :
    (World.Asks w w' ↔ boundMs e a.step < timeBound ∧ ¬ a.step.Vanishes env) ∧
    ((∃ key, r = .error (.absent key)) ↔
      boundMs e a.step < timeBound ∧
        ∃ key, (a.step.substitute env).Rests (.error (.absent key))) ∧
    (¬ World.Asks w w' → w' = w ∧
      (timeBound ≤ boundMs e a.step ∧ r = .error overlong ∨
        a.step.Vanishes env ∧ (a.step.substitute env).Rests r)) := by
  have hbound : boundMs e (a.step.substitute env) = boundMs e a.step := by
    unfold boundMs
    rw [Step.timeout_substitute]
  have hrests : (∃ r, (a.step.substitute env).Rests r) ↔ a.step.Vanishes env :=
    Step.exists_rests_iff (Document.isAimed_of_mem hread ha)
  have hcourse : Course e (a.step.substitute env) w (r, w') := by
    have hfilled : 0 < boundMs e (a.step.substitute env) := by
      rw [hbound]
      exact hpositive
    rw [← hrun]
    exact course_act (a := { a with step := a.step.substitute env }) hfilled instruction w
  cases hcourse with
  | overlong long =>
    rw [hbound] at long
    refine ⟨iff_of_false (World.not_asks_self w) ?_, iff_of_false ?_ ?_, fun _ => ?_⟩
    · intro h
      omega
    · rintro ⟨key, h⟩
      cases h
    · intro h
      omega
    · exact ⟨rfl, Or.inl ⟨long, rfl⟩⟩
  | rests short rests =>
    rw [hbound] at short
    have hvanishes : a.step.Vanishes env := hrests.1 ⟨r, rests⟩
    refine ⟨iff_of_false (World.not_asks_self w) fun h => h.2 hvanishes, ?_, fun _ => ?_⟩
    · constructor
      · rintro ⟨key, rfl⟩
        exact ⟨short, key, rests⟩
      · rintro ⟨-, key, hkey⟩
        exact ⟨key, rests.unique hkey⟩
    · exact ⟨rfl, Or.inr ⟨hvanishes, rests⟩⟩
  | asks short busy asks fails =>
    rw [hbound] at short
    refine ⟨iff_of_true asks ⟨short, fun h => busy (hrests.2 h)⟩, iff_of_false ?_ ?_, ?_⟩
    · rintro ⟨key, hr⟩
      rcases fails _ hr with hpage | hname
      · cases hpage
      · cases hname
    · rintro ⟨-, key, hkey⟩
      exact busy ⟨_, hkey⟩
    · exact fun hnot => absurd asks hnot

/-- A document that waits for an element. -/
def waiting (selector : String) : Value :=
  .list [.map [(.text "wait", .text selector)]]

/-- The only action of that document, where the selector has become another text. -/
def waitFor (selector : String) : Action :=
  ⟨"wait", .waitElement (.text selector) (.text "visible") none, 1⟩

/-- A wait for an element that a selector names asks for it. -/
theorem asks_iff_waiting : ∃ actions a,
    (Document.read .standard none (waiting "#a")).2 = .ok actions ∧ a ∈ actions ∧
      0 < boundMs {} a.step ∧
      World.Asks {} ((act {} none { a with step := a.step.substitute [] }).run {}).2 := by
  have hread : (Document.read .standard none (waiting "#a")).2 = .ok [waitFor "#a"] := rfl
  have hmem : waitFor "#a" ∈ [waitFor "#a"] := List.mem_singleton_self _
  have hasks := (asks_iff hread hmem {} none [] {} (by decide) Prod.mk.eta.symm).1
  refine ⟨_, _, hread, hmem, by decide, hasks.2 ⟨by decide +kernel, ?_⟩⟩
  intro hvanishes
  obtain ⟨text, htext, hempty⟩ := hvanishes
  cases htext
  exact absurd hempty (by decide +kernel)

/-- A wait for a blank asks nothing of the page. -/
theorem not_asks_blank : ¬ ∀ (document : Value) (actions : List Action) (a : Action) (env : Env),
    (Document.read .standard none document).2 = .ok actions → a ∈ actions →
      0 < boundMs {} a.step →
      World.Asks {} ((act {} none { a with step := a.step.substitute env }).run {}).2 := by
  intro h
  have hread : (Document.read .standard none (waiting " ")).2 = .ok [waitFor ""] := rfl
  have hfilled : { waitFor "" with step := (waitFor "").step.substitute [] } = waitFor "" := rfl
  have hasks := h (waiting " ") [waitFor ""] (waitFor "") [] hread List.mem_cons_self (by decide)
  rw [hfilled] at hasks
  have hcourse : Course {} (waitFor "").step {} ((act {} none (waitFor "")).run {}) :=
    course_act (by decide) none {}
  generalize (act {} none (waitFor "")).run {} = p at hasks hcourse
  cases hcourse with
  | overlong => exact World.not_asks_self _ hasks
  | rests => exact World.not_asks_self _ hasks
  | asks _ busy => exact busy ⟨_, .element rfl⟩

end Execution

end BrowserFlow
