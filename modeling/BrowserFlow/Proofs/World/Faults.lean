import BrowserFlow.Proofs.Effect
import BrowserFlow.World.Basic

/-!
# What a page fails with

A call of the page fails with what the page reports, with a limit of time, or because it was given a
value of the wrong kind (`Fault.ofPage`), and with nothing else (`World.fails_call`): neither files
nor the fields of a record have anything to do with it.
-/

namespace BrowserFlow

open Effect

/-- Whether a fault is one that comes of working with the page. -/
def Fault.ofPage : Fault → Bool
  | page _ | unmet _ | late _ | cut | kind _ | part .. => true
  | _ => false

/-! ## Answers -/

/-- A result is there, or the fault is one of the page. -/
def Fault.OnPage {α : Type} (r : Except Fault α) : Prop :=
  ∀ f, r = .error f → f.ofPage = true

namespace Page

open Fault (OnPage)

variable {α β : Type}

theorem onPage_ok (a : α) : OnPage (.ok a : Except Fault α) := by
  intro f h
  cases h

theorem onPage_error {f : Fault} (hf : f.ofPage = true) : OnPage (.error f : Except Fault α) := by
  intro g h
  cases h
  exact hf

theorem onPage_bind {r : Except Fault α} {k : α → Except Fault β} (hr : OnPage r)
    (hk : ∀ a, OnPage (k a)) : OnPage (r >>= k) := by
  cases r with
  | error f => exact onPage_error (hr f rfl)
  | ok a => exact hk a

theorem onPage_map {r : Except Fault α} (k : α → β) (hr : OnPage r) : OnPage (r.map k) := by
  cases r with
  | error f => exact onPage_error (hr f rfl)
  | ok a => exact onPage_ok (k a)

theorem onPage_lookup (t : Table α) (key : Value) : OnPage (lookup t key) := by
  unfold lookup
  split
  · exact onPage_ok _
  · split
    · exact onPage_ok _
    · exact onPage_error rfl

theorem onPage_trouble? (p : Page) (c : PageCall) : OnPage (p.trouble? c) := by
  unfold trouble?
  dsimp only
  split
  · exact onPage_bind (onPage_lookup _ _) fun _ => onPage_ok _
  · exact onPage_ok _

theorem onPage_matching (p : Page) (selector : Value) : OnPage (p.matching selector) :=
  onPage_map _ (onPage_lookup _ _)

theorem onPage_needed (p : Page) (selector : Value) : OnPage (p.needed selector) := by
  refine onPage_bind (onPage_matching p selector) fun found => ?_
  cases found with
  | nil => exact onPage_error rfl
  | cons e rest => exact onPage_ok _

theorem onPage_textOf (e : Element) : OnPage (textOf e) := by
  unfold textOf
  split
  · exact onPage_error rfl
  · exact onPage_ok _

theorem onPage_propertyOf (e : Element) (name : Value) : OnPage (propertyOf e name) := by
  unfold propertyOf
  split
  · exact onPage_ok _
  · exact onPage_map _ (onPage_lookup _ _)

theorem onPage_changing (p : Page) {changed : Except Fault Page} (h : OnPage changed) :
    OnPage (p.changing changed).1 := by
  cases changed with
  | error f => exact onPage_error (h f rfl)
  | ok q => exact onPage_ok _

theorem onPage_reading (p : Page) (selector : Value) {f : Element → Except Fault Value}
    (hf : ∀ e, OnPage (f e)) : OnPage (p.reading selector f).1 :=
  onPage_bind (onPage_needed p selector) fun found => hf found.1

theorem onPage_nextResult (p : Page) : OnPage p.nextResult.1 := by
  unfold nextResult
  split
  · exact onPage_ok _
  · exact onPage_ok _
  · exact onPage_error rfl

theorem onPage_respond (p : Page) (c : PageCall) : OnPage (p.respond c).1 := by
  have huntouched : ∀ s, OnPage (p.reading s fun _ => .ok .null).1 := fun s =>
    onPage_reading p s fun _ => onPage_ok _
  have hfilled : ∀ s text, OnPage (p.changing (p.withValue s text)).1 := fun s text =>
    onPage_changing p (onPage_bind (onPage_needed p s) fun _ => onPage_ok _)
  cases c with
  | click s => exact onPage_changing p (onPage_map _ (onPage_needed p s))
  | type s text => exact hfilled s text
  | fill s text => exact hfilled s text
  | press s => exact huntouched s
  | hover s => exact huntouched s
  | selectOption s => exact huntouched s
  | waitForSelector s => exact huntouched s
  | scrollIntoView s => exact huntouched s
  | evaluate => exact onPage_nextResult p
  | count s => exact onPage_map _ (onPage_matching p s)
  | innerText s => exact onPage_bind (onPage_needed p s) fun _ => onPage_textOf _
  | inputValue s =>
    refine onPage_reading p s fun e => ?_
    cases e.value with
    | none => exact onPage_error rfl
    | some v => exact onPage_ok v
  | readAttribute s => exact onPage_reading p s fun _ => onPage_map _ (onPage_lookup _ _)
  | readProperty s name => exact onPage_reading p s fun e => onPage_propertyOf e name
  | waitForElement s visible =>
    refine onPage_bind (onPage_matching p s) fun found => ?_
    dsimp only
    split
    · exact onPage_ok _
    · exact onPage_error rfl
  | _ => exact onPage_ok _

end Page

/-! ## Calls -/

namespace World

variable {α : Type}

/-- Whatever a computation fails with comes of working with the page. -/
abbrev FailsOnPage (x : Effect Fault World α) : Prop :=
  Fails (fun f => f.ofPage = true) x

theorem fails_pass (limit : Option Nat) (ms : Nat) : FailsOnPage (pass limit ms) := by
  intro w f u hrun
  unfold pass at hrun
  rw [run_of] at hrun
  cases limit with
  | none => cases hrun
  | some l =>
    dsimp only at hrun
    split at hrun
    · cases hrun
      rfl
    · cases hrun

theorem fails_waitInVain (limit : Option Nat) :
    FailsOnPage (waitInVain limit : Effect Fault World α) := by
  intro w f u hrun
  cases hrun
  rfl

theorem fails_meet (limit : Option Nat) (trouble : Trouble) : FailsOnPage (meet limit trouble) := by
  cases trouble with
  | hang => exact fails_waitInVain limit
  | _ => exact fails_throw rfl

theorem fails_ordinary (limit : Option Nat) (c : PageCall) : FailsOnPage (ordinary limit c) := by
  refine fails_get_bind fun w => fails_bind (fails_pass limit _) fun _ => ?_
  refine fails_get_bind fun u => ?_
  refine fails_bind (fails_lift (Page.onPage_trouble? u.page c)) fun trouble => ?_
  cases trouble with
  | some trouble => exact fails_meet limit trouble
  | none =>
    refine fails_bind (fun v f t hrun => ?_) fun answer => ?_
    · exact Page.onPage_respond v.page c f (congrArg Prod.fst hrun)
    · exact fails_bind (fails_pass limit _) fun _ => fails_pure answer

theorem fails_special (limit : Option Nat) (turn : Turn) : FailsOnPage (special limit turn) := by
  refine fails_bind (fails_modify _) fun _ => fails_bind (fails_pass limit _) fun _ => ?_
  cases turn.answer with
  | error trouble => exact fails_meet limit trouble
  | ok answer => exact fails_pure answer

theorem fails_call (limit : Option Nat) (c : PageCall) : FailsOnPage (call limit c) := by
  refine fails_get_bind fun w => ?_
  rcases w.page.nextTurn with ⟨turn, page⟩
  refine fails_bind (fails_modify _) fun _ => ?_
  cases turn with
  | some turn => exact fails_special limit turn
  | none => exact fails_ordinary limit c

end World

end BrowserFlow
