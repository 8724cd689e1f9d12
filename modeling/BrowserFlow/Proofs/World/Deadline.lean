import BrowserFlow.Proofs.Execution.Rerun
import BrowserFlow.Proofs.Execution.Touch

/-!
# Deadlines

What has a deadline is over by then. The clock of a world that has not reached the deadline is
stopped there by the first call of the page that would go beyond it, be it that the call takes too
long or that the page never answers (`World.inTime_call`). All that steps are built from is calls of
the page and what takes no time, so a step with a deadline keeps it (`Step.inTime_perform`), and an
action takes no longer than the time that it is given (`World.clock_within`).
-/

namespace BrowserFlow

open Effect

/-! ## Calls -/

namespace World

/-- The clock goes on from one world to the other, but not from before the deadline to behind it. -/
structure InTime (deadline : Nat) (w w' : World) : Prop where
  later : w.clock ≤ w'.clock
  kept : w.clock ≤ deadline → w'.clock ≤ deadline

instance (deadline : Nat) : IsPreorder World (InTime deadline) where
  refl _ := ⟨le_rfl, id⟩
  trans _ _ _ h h' := ⟨h.later.trans h'.later, h'.kept ∘ h.kept⟩

variable {deadline : Nat} {α : Type}

theorem inTime_of_eq {w w' : World} (h : w'.clock = w.clock) : InTime deadline w w' :=
  ⟨h.ge, fun hkept => h.trans_le hkept⟩

theorem inTime_pass (ms : Nat) : Leads (InTime deadline) (pass (some deadline) ms) := by
  refine leads_of fun w => ?_
  dsimp only
  split
  · exact ⟨Nat.le_max_left _ _, fun h => Nat.max_le.2 ⟨h, le_rfl⟩⟩
  · rename_i hshort
    refine ⟨Nat.le_add_right _ _, fun h => ?_⟩
    -- either nothing passes, or what passes ends before the deadline
    simp only [Bool.and_eq_true, decide_eq_true_eq, not_and, not_le] at hshort
    show w.clock + ms ≤ deadline
    omega

theorem inTime_waitInVain :
    Leads (InTime deadline) (waitInVain (some deadline) : Effect Fault World α) :=
  leads_of fun _ => ⟨Nat.le_max_left _ _, fun h => Nat.max_le.2 ⟨h, le_rfl⟩⟩

theorem inTime_meet (trouble : Trouble) :
    Leads (InTime deadline) (meet (some deadline) trouble) := by
  cases trouble with
  | hang => exact inTime_waitInVain
  | _ => exact leads_throw _

theorem inTime_ordinary (c : PageCall) :
    Leads (InTime deadline) (ordinary (some deadline) c) := by
  refine leads_get_bind fun w => leads_bind (inTime_pass _) fun _ => ?_
  refine leads_get_bind fun w => leads_bind (leads_lift _) fun trouble => ?_
  cases trouble with
  | some trouble => exact inTime_meet trouble
  | none =>
    have hrespond : Leads (InTime deadline) (Effect.zoom (fun w : World => w.page)
        (fun page w => { w with page }) (.of fun p => p.respond c)) :=
      fun _ => inTime_of_eq rfl
    exact leads_bind hrespond fun answer =>
      leads_bind (inTime_pass _) fun _ => leads_pure answer

theorem inTime_special (turn : Turn) :
    Leads (InTime deadline) (special (some deadline) turn) := by
  refine leads_bind (leads_modify fun _ => inTime_of_eq rfl) fun _ => ?_
  refine leads_bind (inTime_pass _) fun _ => ?_
  cases turn.answer with
  | error trouble => exact inTime_meet trouble
  | ok answer => exact leads_pure answer

/-- A call of the page keeps the deadline, whatever the page does. -/
theorem inTime_call (c : PageCall) : Leads (InTime deadline) (call (some deadline) c) := by
  intro w
  unfold call
  rw [run_bind_ok (run_get w), run_bind_ok (run_set _ w)]
  -- no time passes while the call is recorded
  refine Leads.trans ?_ (inTime_of_eq rfl)
  cases w.page.nextTurn.1 with
  | some turn => exact inTime_special turn
  | none => exact inTime_ordinary c

theorem inTime_warn (line : String) :
    Leads (InTime deadline) (warn line : Effect Fault World Unit) :=
  leads_modify fun _ => inTime_of_eq rfl

end World

/-! ## Steps -/

namespace Step

open World (InTime)

variable {deadline : Nat}

theorem passes_inTime : Passes (some deadline) (Leads (InTime deadline)) where
  done := leads_pure
  call := World.inTime_call
  bind := leads_bind
  text _ := leads_lift _
  unmet _ := leads_throw _

theorem inTime_save (folder : DataFolder) (instruction : Option String) (data : Value)
    (format filename : Option String) :
    Leads (InTime deadline) (folder.save instruction data format filename) :=
  fun w => World.inTime_of_eq (folder.still_save instruction data format filename w).2

/-- What a script returns takes no time to be kept. -/
theorem begins_extract_inTime (scene : Scene) (script : String) (format filename : Option String) :
    Begins (some deadline) (Leads (InTime deadline))
      (extract scene (some deadline) script format filename) := by
  refine begins_call_bind fun result => ?_
  split
  · rename_i folder _ _
    refine leads_bind (leads_attempt (inTime_save folder _ _ _ _)) fun saved => ?_
    cases saved with
    | ok path => exact leads_pure _
    | error f =>
      have hwarned : ∀ line output : String, Leads (InTime deadline)
          (World.warn line >>= fun _ => pure ({ output } : StepOutcome)) :=
        fun line output => leads_bind (World.inTime_warn line) fun _ => leads_pure _
      exact leads_ite (leads_bind (leads_throw _) fun _ => hwarned _ _) (hwarned _ _)
  · exact leads_pure _

/-- A step keeps its deadline. -/
theorem inTime_perform (scene : Scene) (s : Step) (timeout : Int) :
    Leads (InTime deadline) (s.perform scene (some deadline) timeout) := by
  have hpasses : Passes (some deadline) (Leads (InTime deadline)) := passes_inTime
  have hcases := hpasses.rests_or_begins scene s timeout
    fun script format filename _ => begins_extract_inTime scene script format filename
  rcases hcases with ⟨r, hr⟩ | hbegins
  · intro w
    rw [hr.run_perform]
    exact refl_of (InTime deadline) w
  · exact hbegins.holds hpasses

end Step

/-! ## What has a number of milliseconds -/

/-- What keeps its deadlines takes no longer than the time that it is given, which is none if that
is not positive. -/
theorem World.clock_within {α : Type} {x : Option Nat → Effect Fault World α}
    (hx : ∀ deadline, Leads (InTime deadline) (x (some deadline))) (ms : Int) (w : World) :
    w.clock ≤ ((within ms x).run w).2.clock ∧
      ((within ms x).run w).2.clock ≤ w.clock + ms.toNat := by
  rcases lt_or_ge 0 ms with hpositive | hnone
  · rw [run_within hpositive]
    have hrun : InTime (w.clock + ms.toNat) w _ := hx (w.clock + ms.toNat) w
    exact ⟨hrun.later, hrun.kept (Nat.le_add_right _ _)⟩
  · have hcut : (within ms x).run w = (.error .cut, w) := by
      unfold within
      rw [if_pos hnone]
      rfl
    rw [hcut]
    exact ⟨le_rfl, Nat.le_add_right _ _⟩

end BrowserFlow
