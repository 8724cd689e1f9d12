import BrowserFlow.Execution.Run

/-!
# Steps whose failures can be named

The failure of a step names its target, and it can do so only if the target is a text or nothing.
Whether it is one does not change when placeholders are filled in (`isNameable_substitute`), so
that it can be seen from a document before any of it is run.
-/

namespace BrowserFlow

/-! ## Filling in placeholders -/

namespace Template

theorem isText_fill (env : Env) (v : Value) : (fill env v).isText = v.isText := by
  cases v <;> rfl

/-- A value that is no text is as true as before. -/
theorem truthy_fill {env : Env} {v : Value} (h : v.isText = false) :
    (fill env v).truthy = v.truthy := by
  cases v with
  | text s => cases h
  | list items => cases items <;> rfl
  | map entries => cases entries <;> rfl
  | _ => rfl

end Template

namespace Execution

theorem isNameable_fill (env : Env) (v : Value) :
    isNameable (Template.fill env v) = isNameable v := by
  unfold isNameable
  rw [Template.isText_fill]
  cases h : v.isText with
  | true => rfl
  | false => rw [Template.truthy_fill h]

/-- Of a value that is true no more can be named than of the value itself. -/
theorem isNameable_firstTrue_null (v : Value) :
    isNameable (Step.firstTrue v .null) = isNameable v := by
  unfold Step.firstTrue
  cases h : v.truthy with
  | true => rfl
  | false =>
    show true = (v.isText || !v.truthy)
    rw [h, Bool.not_false, Bool.or_true]

end Execution

/-! ## Targets of steps -/

namespace Step

/-- Whether a failure of the step can name its target. -/
def isNameable (s : Step) : Bool :=
  s.target?.any Execution.isNameable

/-- Whether the selectors of form fields are texts is seen from their kinds alone. -/
theorem isSome_fieldSelectors? (fields : List FormField) :
    (fieldSelectors? fields).isSome = fields.all fun f => f.selector.isText := by
  unfold fieldSelectors?
  induction fields with
  | nil => rfl
  | cons f rest ih =>
    rw [List.mapM_cons, List.all_cons, ← ih]
    obtain ⟨selector, value⟩ := f
    cases selector with
    | text s =>
      generalize List.mapM (m := Option) _ rest = selectors
      cases selectors <;> rfl
    | _ => rfl

/-- A step that fills a form can be named if the selectors are texts. -/
theorem isNameable_fillForm (fields : List FormField) (t : Option Int) :
    (fillForm fields t).isNameable = fields.all fun f => f.selector.isText := by
  rw [← isSome_fieldSelectors?]
  show ((fieldSelectors? fields).map _).any Execution.isNameable = _
  cases fieldSelectors? fields <;> rfl

/-- Filling in placeholders does not change whether a failure of the step can be named. -/
theorem isNameable_substitute (env : Env) (s : Step) :
    (s.substitute env).isNameable = s.isNameable := by
  cases s with
  | fillForm fields t =>
    unfold substitute
    rw [isNameable_fillForm, isNameable_fillForm, List.all_map]
    congr 1
    funext f
    exact Template.isText_fill env f.selector
  | waitElement selector state t =>
    show Execution.isNameable _ = Execution.isNameable _
    rw [Execution.isNameable_firstTrue_null, Execution.isNameable_firstTrue_null]
    exact Execution.isNameable_fill env selector
  | click selector => exact Execution.isNameable_fill env selector
  | typeText selector => exact Execution.isNameable_fill env selector
  | hover selector => exact Execution.isNameable_fill env selector
  | select selector => exact Execution.isNameable_fill env selector
  | assert selector => exact Execution.isNameable_fill env selector
  | scrollElement selector => exact Execution.isNameable_fill env selector
  | storeElement name selector => exact Execution.isNameable_fill env selector
  | press key selector => exact Execution.isNameable_fill env selector
  | _ => rfl

end Step

end BrowserFlow
