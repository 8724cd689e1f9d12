import BrowserFlow.Proofs.World.Onward

/-!
# The calls that a page records

A call is recorded before the page answers it or fails at it, and nothing that comes of it is
recorded as well. So it is known what a call adds to the calls of the page (`calls_call`), whatever
the page does.
-/

namespace BrowserFlow

open Effect

namespace World

variable {α : Type}

/-- The calls of the page so far. -/
def calls (w : World) : List PageCall :=
  w.page.calls

theorem keeps_calls_pass (limit : Option Nat) (ms : Nat) : Keeps calls (pass limit ms) := by
  intro w
  cases limit with
  | none => rfl
  | some l =>
    unfold pass
    rw [run_of]
    dsimp only
    split <;> rfl

theorem keeps_calls_meet (limit : Option Nat) (trouble : Trouble) :
    Keeps calls (meet limit trouble) := by
  cases trouble with
  | hang => exact fun _ => rfl
  | _ => exact keeps_throw _

theorem keeps_calls_ordinary (limit : Option Nat) (c : PageCall) :
    Keeps calls (ordinary limit c) := by
  refine keeps_get_bind fun w => keeps_bind (keeps_calls_pass limit _) fun _ => ?_
  refine keeps_get_bind fun w => keeps_bind (keeps_lift _) fun trouble => ?_
  cases trouble with
  | some trouble => exact keeps_calls_meet limit trouble
  | none =>
    have hrespond : Keeps calls (Effect.zoom (fun w : World => w.page)
        (fun page w => { w with page }) (.of fun p => p.respond c)) :=
      fun w => Page.calls_respond w.page c
    exact keeps_bind hrespond fun answer =>
      keeps_bind (keeps_calls_pass limit _) fun _ => keeps_pure answer

theorem keeps_calls_special (limit : Option Nat) (turn : Turn) :
    Keeps calls (special limit turn) := by
  refine keeps_bind (keeps_modify fun _ => rfl) fun _ => ?_
  refine keeps_bind (keeps_calls_pass limit _) fun _ => ?_
  cases turn.answer with
  | error trouble => exact keeps_calls_meet limit trouble
  | ok answer => exact keeps_pure answer

/-- A call of the page adds itself to the calls, whatever comes of it. -/
theorem calls_call (limit : Option Nat) (c : PageCall) (w : World) :
    ((call limit c).run w).2.calls = w.calls ++ [c] := by
  -- the call is recorded before the page does anything
  let recorded : World :=
    { w with page := { w.page.nextTurn.2 with calls := w.page.nextTurn.2.calls ++ [c] } }
  have hrecorded : recorded.calls = w.calls ++ [c] :=
    congrArg (· ++ [c]) (Page.calls_nextTurn w.page)
  unfold call
  rw [run_bind_ok (run_get w), run_bind_ok (run_set _ w), ← hrecorded]
  cases w.page.nextTurn.1 with
  | some turn => exact keeps_calls_special limit turn recorded
  | none => exact keeps_calls_ordinary limit c recorded

/-- So does a call behind which the page is not called any more. -/
theorem calls_call_bind {limit : Option Nat} {c : PageCall} {f : Value → Effect Fault World α}
    (hf : ∀ v, Keeps calls (f v)) (w : World) :
    ((call limit c >>= f).run w).2.calls = w.calls ++ [c] := by
  rw [← calls_call limit c w]
  rcases hcall : (call limit c).run w with ⟨r, u⟩
  cases r with
  | error fault => rw [run_bind_error hcall]
  | ok v =>
    rw [run_bind_ok hcall]
    exact hf v u

end World

end BrowserFlow
