import BrowserFlow.Proofs.Execution.Naming
import BrowserFlow.Proofs.Registry
import BrowserFlow.Proofs.World.Onward

/-!
# What steps are aimed at

Four kinds of steps do nothing on the page unless there is something that they wait for, scroll to
or read. A document is refused if it does not say what that is. So every step of a document is
aimed at some text or at a value that is true (`isAimed_of_mem`), and fills at least one field if it
fills a form. The text may be blank, or made of placeholders only; filled in, such a step rests
exactly if nothing is left of the text (`exists_rests_iff`).
-/

namespace BrowserFlow

namespace Step

/-- What the step waits for, scrolls to or reads. -/
def aim? : Step → Option Value
  | waitElement s .. | scrollElement s | storeElement _ s .. => some s
  | waitUrl url _ => some (.text url)
  | _ => none

/-- With the placeholders filled in, nothing is left of what the step waits for, scrolls to or
reads. -/
def Vanishes (env : Env) (s : Step) : Prop :=
  ∃ text, s.aim? = some (.text text) ∧ Template.fillText env text = ""

/-- Whether the step fills some field if it fills a form, and is aimed at a text or at a value that
is true if it is aimed at anything. -/
def isAimed : Step → Bool
  | fillForm fields _ => !fields.isEmpty
  | s => s.aim?.all fun v => v.isText || v.truthy

/-! ## Reading -/

/-- Every result of the reading has a property. -/
def Gives {α : Type} (Q : α → Prop) (x : Except StepError α) : Prop :=
  ∀ a, x = .ok a → Q a

section

variable {α β : Type} {Q : α → Prop} {R : β → Prop}

theorem gives_ok {a : α} (h : Q a) : Gives Q (.ok a) := by
  rintro b ⟨⟩
  exact h

theorem gives_error (e : StepError) : Gives Q (.error e) := by
  rintro a ⟨⟩

theorem gives_bind {x : Except StepError β} {f : β → Except StepError α}
    (hf : ∀ b, Gives Q (f b)) : Gives Q (x >>= f) := by
  cases x with
  | error e => exact gives_error e
  | ok b => exact hf b

theorem gives_ite {c : Prop} [Decidable c] {x y : Except StepError α} (hx : c → Gives Q x)
    (hy : Gives Q y) : Gives Q (if c then x else y) := by
  split
  · rename_i h
    exact hx h
  · exact hy

end

/-- A reading of steps that are aimed. -/
abbrev Aims (x : Except StepError Step) : Prop :=
  Gives (fun s => s.isAimed = true) x

/-- What follows on a limit that is read last. -/
theorem aims_limit {raw : Value} {f : Option Int → Step} (hf : ∀ t, (f t).isAimed = true) :
    Aims (readLimit raw >>= fun limit => pure (f limit)) :=
  gives_bind fun t => gives_ok (hf t)

/-- A value that is true is so as a selector, or it is a text. -/
theorem isAimed_selectorOf {v : Value} (h : v.truthy = true) :
    ((selectorOf v).isText || (selectorOf v).truthy) = true := by
  cases v with
  | text s => rfl
  | _ => exact Bool.or_eq_true_iff.2 (Or.inr h)

theorem aims_readNavigate (v : Value) : Aims (readNavigate v) := by
  unfold readNavigate
  split
  · exact gives_ok rfl
  · exact gives_bind fun _ => gives_bind fun _ => aims_limit fun _ => rfl

theorem aims_readClick (v : Value) : Aims (readClick v) := by
  unfold readClick
  split
  · exact gives_ok rfl
  · exact gives_bind fun _ => gives_bind fun _ => gives_bind fun _ => aims_limit fun _ => rfl

theorem aims_readType (v : Value) : Aims (readType v) := by
  unfold readType
  split
  · exact gives_bind fun _ => gives_ok rfl
  · refine gives_bind fun _ => ?_
    dsimp only
    split
    · exact gives_error _
    · exact gives_bind fun _ => gives_bind fun _ => aims_limit fun _ => rfl

theorem aims_readWaitOptions (v : Value) : Aims (readWaitOptions v) := by
  unfold readWaitOptions
  dsimp only
  refine gives_ite (fun h => aims_limit fun _ => isAimed_selectorOf h) ?_
  refine gives_ite (fun _ => gives_bind fun _ => aims_limit fun _ => rfl) ?_
  exact gives_ite (fun _ => aims_limit fun _ => rfl) (gives_error _)

theorem aims_readWait (v : Value) : Aims (readWait v) := by
  unfold readWait
  split
  · exact gives_error _
  · exact gives_ok rfl
  · exact gives_bind fun _ => gives_ok rfl
  · exact gives_ok rfl
  · exact gives_bind fun raw => aims_readWaitOptions raw

theorem aims_readScreenshot (v : Value) : Aims (readScreenshot v) := by
  unfold readScreenshot
  split
  · exact gives_ok rfl
  · exact gives_ok rfl
  · exact gives_bind fun _ => gives_ok rfl

theorem aims_readEvaluate (v : Value) : Aims (readEvaluate v) := by
  unfold readEvaluate
  split
  · exact gives_ok rfl
  · exact gives_bind fun _ => gives_bind fun _ => gives_ok rfl

theorem aims_readHover (v : Value) : Aims (readHover v) := by
  unfold readHover
  split
  · exact gives_ok rfl
  · exact gives_bind fun _ => gives_bind fun _ => aims_limit fun _ => rfl

theorem aims_readSelect (v : Value) : Aims (readSelect v) := by
  unfold readSelect
  split
  · exact gives_bind fun _ => gives_ok rfl
  · exact gives_bind fun _ => gives_bind fun _ => gives_bind fun _ => aims_limit fun _ => rfl

theorem aims_readFill (v : Value) : Aims (readFill v) := by
  unfold readFill
  split
  · exact gives_bind fun _ => gives_ok rfl
  · refine gives_bind fun _ => ?_
    dsimp only
    split
    · exact gives_error _
    · rename_i entries hentries _
      -- a form without fields is refused
      cases entries with
      | nil => exact absurd rfl hentries
      | cons entry rest => exact aims_limit fun _ => rfl
    · refine gives_bind fun _ => ?_
      split
      · exact gives_error _
      · exact aims_limit fun _ => rfl

theorem aims_percent? {cs : List Char} {x : Except StepError Step} (h : percent? cs = some x) :
    Aims x := by
  unfold percent? at h
  dsimp only at h
  split at h
  · cases h
    cases whole (.text (String.ofList cs)) with
    | error e => exact gives_error e
    | ok n => exact gives_ok rfl
  · cases h

theorem aims_readScrollText (s : String) : Aims (readScrollText s) := by
  unfold readScrollText
  dsimp only
  refine gives_ite (fun _ => gives_ok rfl) ?_
  split
  · cases hp : percent? (Text.lower (Text.trim s)).toList.dropLast with
    | none => exact gives_ok rfl
    | some x => exact aims_percent? hp
  · exact gives_ok rfl

theorem aims_readScroll (v : Value) : Aims (readScroll v) := by
  unfold readScroll
  split
  · exact aims_readScrollText _
  · exact aims_readScrollText _
  · refine gives_bind fun _ => ?_
    refine gives_ite (fun h => gives_ok (isAimed_selectorOf h)) (gives_ite (fun _ => ?_) ?_)
    · exact gives_bind fun _ => gives_ok rfl
    · split
      · exact gives_ok rfl
      · dsimp only
        split
        · rename_i hp
          exact aims_percent? hp
        · exact gives_ok rfl

theorem aims_readAssert (v : Value) : Aims (readAssert v) := by
  unfold readAssert
  split
  · exact gives_ok rfl
  · exact gives_bind fun _ => gives_bind fun _ => aims_limit fun _ => rfl

theorem aims_readStore (v : Value) : Aims (readStore v) := by
  unfold readStore
  refine gives_bind fun _ => gives_bind fun _ => ?_
  refine gives_ite (fun h => gives_ok (isAimed_selectorOf h)) ?_
  exact gives_ite (fun _ => gives_ok rfl) (gives_error _)

theorem aims_readPress (v : Value) : Aims (readPress v) := by
  unfold readPress
  split
  · exact gives_ok rfl
  · exact gives_bind fun _ => gives_bind fun _ => gives_ok rfl

theorem aims_read (c : Command) (v : Value) : Aims (read c v) := by
  cases c with
  | navigate => exact aims_readNavigate v
  | click => exact aims_readClick v
  | typeText => exact aims_readType v
  | wait => exact aims_readWait v
  | screenshot => exact aims_readScreenshot v
  | evaluate => exact aims_readEvaluate v
  | hover => exact aims_readHover v
  | select => exact aims_readSelect v
  | fillForm => exact aims_readFill v
  | scroll => exact aims_readScroll v
  | assert => exact aims_readAssert v
  | store => exact aims_readStore v
  | press => exact aims_readPress v
  | back => exact gives_ok rfl
  | reload => exact gives_ok rfl

/-! ## Filling in -/

/-- What a text or a value that is true comes to: it is false only if nothing is left of the
text. -/
theorem truthy_fill_eq_false_iff {env : Env} {v : Value} (h : (v.isText || v.truthy) = true) :
    (Template.fill env v).truthy = false ↔
      ∃ text, v = .text text ∧ Template.fillText env text = "" := by
  cases hv : v.isText with
  | false =>
    rw [hv, Bool.false_or] at h
    refine iff_of_false ?_ ?_
    · rw [Template.truthy_fill hv, h]
      exact Bool.noConfusion
    · rintro ⟨text, rfl, -⟩
      cases hv
  | true =>
    cases v with
    | text s =>
      have htruthy : (Template.fill env (.text s)).truthy = !(Template.fillText env s).isEmpty := rfl
      simp [htruthy]
    | _ => cases hv

theorem aim?_substitute (env : Env) (s : Step) :
    (s.substitute env).aim? = s.aim?.map (Template.fill env) := by
  cases s <;> rfl

/-- A step that is aimed is aimed at a text, or at a value that is true. -/
theorem isText_or_truthy_of_aim {s : Step} {v : Value} (h : s.isAimed = true)
    (hv : s.aim? = some v) : (v.isText || v.truthy) = true := by
  cases s with
  | waitElement =>
    cases hv
    exact h
  | scrollElement =>
    cases hv
    exact h
  | storeElement =>
    cases hv
    exact h
  | waitUrl =>
    cases hv
    rfl
  | _ => cases hv

/-- The fields of a form are not lost when they are filled in. -/
theorem substitute_ne_fillForm_nil {env : Env} {s : Step} (h : s.isAimed = true) (t : Option Int) :
    s.substitute env ≠ fillForm [] t := by
  intro hs
  cases s with
  | fillForm fields =>
    injection hs with hfields
    rw [List.map_eq_nil_iff.1 hfields] at h
    cases h
  | _ => cases hs

/-- But for a form without fields, a step rests exactly if it is aimed at what is false. -/
theorem exists_rests_iff_aim {s : Step} (hform : ∀ t, s ≠ fillForm [] t) :
    (∃ r, s.Rests r) ↔ ∃ v, s.aim? = some v ∧ v.truthy = false := by
  constructor
  · rintro ⟨r, hrests⟩
    cases hrests with
    | element nothing => exact ⟨_, rfl, nothing⟩
    | url => exact ⟨_, rfl, rfl⟩
    | form => exact absurd rfl (hform _)
    | scroll nothing => exact ⟨_, rfl, nothing⟩
    | store nothing => exact ⟨_, rfl, nothing⟩
  · rintro ⟨v, hv, nothing⟩
    cases s with
    | waitElement =>
      cases hv
      exact ⟨_, .element nothing⟩
    | scrollElement =>
      cases hv
      exact ⟨_, .scroll nothing⟩
    | storeElement =>
      cases hv
      exact ⟨_, .store nothing⟩
    | waitUrl url =>
      cases hv
      have hurl : url = "" := by simpa [Value.truthy] using nothing
      subst hurl
      exact ⟨_, .url⟩
    | _ => cases hv

/-- A step that is aimed rests, with its placeholders filled in, exactly if it vanishes. -/
theorem exists_rests_iff {env : Env} {s : Step} (h : s.isAimed = true) :
    (∃ r, (s.substitute env).Rests r) ↔ s.Vanishes env := by
  rw [exists_rests_iff_aim (substitute_ne_fillForm_nil h)]
  simp only [aim?_substitute, Option.map_eq_some_iff]
  constructor
  · rintro ⟨_, ⟨v, hv, rfl⟩, nothing⟩
    obtain ⟨text, rfl, hempty⟩ :=
      (truthy_fill_eq_false_iff (isText_or_truthy_of_aim h hv)).1 nothing
    exact ⟨text, hv, hempty⟩
  · rintro ⟨text, haim, hempty⟩
    exact ⟨_, ⟨_, haim, rfl⟩, (truthy_fill_eq_false_iff rfl).2 ⟨text, rfl, hempty⟩⟩

end Step

namespace Document

/-- Every step of a document is aimed. -/
theorem isAimed_of_mem {registry : Registry} {source : Option String} {document : Value}
    {actions : List Action} (h : (read registry source document).2 = .ok actions) {a : Action}
    (ha : a ∈ actions) : a.step.isAimed = true := by
  obtain ⟨i, entry, hstep⟩ := exists_readStep_of_mem_read h ha
  obtain ⟨name, handler, argument, -, -, hread⟩ := exists_read_of_readStep hstep
  exact Step.aims_read handler.command argument a.step hread

end Document

end BrowserFlow
