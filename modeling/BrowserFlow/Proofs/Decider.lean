import BrowserFlow.Decider

/-!
# What decisions use up

A decision takes lines of the input or decisions from a list, or it is the same every time. The
number of what is there to decide with (`supply`) never grows, and it becomes less with every
decision to continue a document (`onSuccess_supply_lt`). That is why a document is continued only a
finite number of times.
-/

namespace BrowserFlow

namespace Console

theorem askText_inputs (kind : Decision.Kind) (asked : String) (lines : List String) :
    (askText kind asked lines).inputs.length ≤ lines.length := by
  induction lines with
  | nil => exact Nat.le_refl 0
  | cons line rest ih =>
    unfold askText
    dsimp only
    split
    · exact Nat.le_succ_of_le ih
    · exact Nat.le_succ rest.length

/-- An answer takes at least one line. -/
theorem choose_inputs (menu : String → Except Fault (Option Choice)) (lines : List String) :
    (choose menu lines).inputs.length ≤ lines.length ∧
      ∀ d, (choose menu lines).decision = .ok d →
        (choose menu lines).inputs.length < lines.length := by
  induction lines with
  | nil =>
    refine ⟨Nat.le_refl 0, fun d hd => ?_⟩
    cases hd
  | cons line rest ih =>
    suffices (choose menu (line :: rest)).inputs.length < (line :: rest).length from
      ⟨Nat.le_of_lt this, fun _ _ => this⟩
    rw [List.length_cons]
    apply Nat.lt_succ_of_le
    unfold choose
    dsimp only
    split
    · exact Nat.le_refl _
    · exact Nat.le_refl _
    · exact askText_inputs _ _ rest
    -- a line that is no answer is taken all the same, and the next one is asked for
    · exact ih.1

end Console

namespace Decider

theorem onFailure_supply (v : Option Verification) (inputs : List String) (d : Decider) :
    (d.onFailure v inputs).2.supply (d.onFailure v inputs).1.inputs ≤ d.supply inputs := by
  cases d with
  | auto use saveAs => exact Nat.le_refl _
  | console => exact (Console.choose_inputs _ inputs).1
  | scripted failures successes =>
    cases failures with
    | nil => exact Nat.le_refl _
    | cons d rest => exact Nat.le_refl _

theorem onSuccess_supply (inputs : List String) (d : Decider) :
    (d.onSuccess inputs).2.supply (d.onSuccess inputs).1.inputs ≤ d.supply inputs := by
  cases d with
  | auto use saveAs => exact Nat.le_refl _
  | console => exact (Console.choose_inputs _ inputs).1
  | scripted failures successes =>
    cases successes with
    | nil => exact Nat.le_refl _
    | cons d rest => exact Nat.add_le_add_left (Nat.le_succ _) _

theorem autoSuccess_kind (saveAs : Option String) :
    (autoSuccess saveAs).kind = .done ∨ (autoSuccess saveAs).kind = .save := by
  unfold autoSuccess
  split
  · exact Or.inl rfl
  · exact Or.inl rfl
  · exact Or.inr rfl

/-- A decision that is neither to have done nor to save uses something up. -/
theorem onSuccess_supply_lt {inputs : List String} {d : Decider} {decision : Decision}
    (h : (d.onSuccess inputs).1.decision = .ok decision) (hdone : decision.kind ≠ .done)
    (hsave : decision.kind ≠ .save) :
    (d.onSuccess inputs).2.supply (d.onSuccess inputs).1.inputs < d.supply inputs := by
  cases d with
  | auto use saveAs =>
    have h : (Except.ok (autoSuccess saveAs) : Except Fault Decision) = .ok decision := h
    cases h
    rcases autoSuccess_kind saveAs with hkind | hkind
    · exact absurd hkind hdone
    · exact absurd hkind hsave
  | console => exact (Console.choose_inputs _ inputs).2 decision h
  | scripted failures successes =>
    cases successes with
    | nil =>
      cases h
      exact absurd rfl hdone
    | cons d rest => exact Nat.add_lt_add_left (Nat.lt_succ_self _) _

end Decider

end BrowserFlow
