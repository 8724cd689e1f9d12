import BrowserFlow.Proofs.Registry
import Mathlib.Data.List.Induction

/-!
# What names find after registrations

Handlers are registered one after the other, each under a kind and any number of aliases, and a name
may be the kind of one and an alias of another. `reached?` says what a name should find, so that
every new handler can be reached: the last registration that used the name decides for which kind it
stands, and of that kind the handler that was registered last is found.

A registry keeps the two uses of a name apart and follows aliases first. What a name finds therefore
goes by the last use as an alias alone, its `meaning` (`get?_ofHandlers`). The two agree but for the
names that are `Shadowed`, those that stand for another kind although they were used last as the
kind of a handler (`get?_eq_reached_iff`).
-/

namespace BrowserFlow

/-- Whether a name is the kind of a handler or one of its aliases. -/
def Handler.uses (h : Handler) (name : String) : Bool :=
  h.kind == name || h.aliases.contains name

theorem Handler.uses_iff (h : Handler) (name : String) :
    h.uses name = true ↔ h.kind = name ∨ name ∈ h.aliases := by
  simp [Handler.uses]

namespace Registry

/-- The registry after some registrations in their order. -/
def ofHandlers (hs : List Handler) : Registry :=
  hs.foldl register {}

/-- The handler that was registered last under a kind. -/
def latest? (hs : List Handler) (kind : String) : Option Handler :=
  hs.reverse.find? fun h => h.kind == kind

/-- The last registration that used a name as its kind or as an alias. -/
def lastUse? (hs : List Handler) (name : String) : Option Handler :=
  hs.reverse.find? fun h => h.uses name

/-- What a name should find: the handler that was registered last under the kind for which the last
use of the name stands. -/
def reached? (hs : List Handler) (name : String) : Option Handler :=
  (lastUse? hs name).bind fun h => latest? hs h.kind

/-- The kind for which the last registration with the name among its aliases made it stand, or else
the name itself. -/
def meaning (hs : List Handler) (name : String) : String :=
  ((hs.reverse.find? fun h => h.aliases.contains name).map (·.kind)).getD name

/-- As an alias the name stands for another kind, though it was used last as the kind of a
handler. -/
def Shadowed (hs : List Handler) (name : String) : Prop :=
  meaning hs name ≠ name ∧ ∃ h, lastUse? hs name = some h ∧ name ∉ h.aliases

/-! ## One registration more -/

section

variable (hs : List Handler) (h : Handler)

theorem ofHandlers_concat : ofHandlers (hs ++ [h]) = (ofHandlers hs).register h :=
  List.foldl_append

theorem latest?_concat (kind : String) :
    latest? (hs ++ [h]) kind = if h.kind = kind then some h else latest? hs kind := by
  unfold latest?
  rw [List.reverse_concat, List.find?_cons]
  by_cases hk : h.kind = kind
  · rw [if_pos hk, beq_iff_eq.2 hk]
  · rw [if_neg hk, beq_eq_false_iff_ne.2 hk]

theorem lastUse?_concat (name : String) :
    lastUse? (hs ++ [h]) name = if h.uses name then some h else lastUse? hs name := by
  unfold lastUse?
  rw [List.reverse_concat, List.find?_cons]
  cases h.uses name <;> rfl

theorem meaning_concat (name : String) :
    meaning (hs ++ [h]) name = if name ∈ h.aliases then h.kind else meaning hs name := by
  unfold meaning
  rw [List.reverse_concat, List.find?_cons]
  by_cases hm : name ∈ h.aliases <;> simp [hm]

end

/-! ## What a registry finds -/

theorem handlers_ofHandlers (hs : List Handler) (kind : String) :
    (ofHandlers hs).handlers.get? kind = latest? hs kind := by
  induction hs using List.reverseRecOn with
  | nil => rfl
  | append_singleton hs h ih =>
    rw [ofHandlers_concat, latest?_concat, ← ih]
    exact Table.get?_put _ _ _ _

theorem resolve_ofHandlers (hs : List Handler) (name : String) :
    (ofHandlers hs).resolve name = meaning hs name := by
  induction hs using List.reverseRecOn with
  | nil => rfl
  | append_singleton hs h ih =>
    rw [ofHandlers_concat, meaning_concat, ← ih]
    show ((h.aliases.foldl (fun t a => t.put a h.kind) (ofHandlers hs).aliases).get? name).getD
      name = _
    rw [get?_foldl_put_eq]
    by_cases hm : name ∈ h.aliases
    · rw [if_pos hm, if_pos hm, Option.getD_some]
    · rw [if_neg hm, if_neg hm, resolve]

/-- A name finds the handler that was registered last under the kind for which it stands. -/
theorem get?_ofHandlers (hs : List Handler) (name : String) :
    (ofHandlers hs).get? name = latest? hs (meaning hs name) := by
  unfold get?
  rw [resolve_ofHandlers, handlers_ofHandlers]

/-- What was registered last under a kind has that kind. -/
theorem kind_of_latest? {hs : List Handler} {kind : String} {h : Handler}
    (hl : latest? hs kind = some h) : h.kind = kind :=
  eq_of_beq (List.find?_some (p := fun h : Handler => h.kind == kind) hl)

/-! ## The last use of a name -/

section

variable {hs : List Handler} {name : String}

/-- A name that was never used stands for itself, and nothing was registered under it. -/
theorem unused (hu : lastUse? hs name = none) :
    meaning hs name = name ∧ latest? hs name = none := by
  induction hs using List.reverseRecOn with
  | nil => exact ⟨rfl, rfl⟩
  | append_singleton hs h ih =>
    rw [lastUse?_concat] at hu
    split at hu
    · cases hu
    · next hn =>
      rw [Handler.uses_iff, not_or] at hn
      rw [meaning_concat, if_neg hn.2, latest?_concat, if_neg hn.1]
      exact ih hu

/-- A name that was used last as an alias stands for the kind of that registration. -/
theorem meaning_of_alias {h : Handler} (hu : lastUse? hs name = some h) (hm : name ∈ h.aliases) :
    meaning hs name = h.kind := by
  induction hs using List.reverseRecOn with
  | nil => cases hu
  | append_singleton hs g ih =>
    rw [lastUse?_concat] at hu
    split at hu
    · cases hu
      rw [meaning_concat, if_pos hm]
    · next hn =>
      rw [Handler.uses_iff, not_or] at hn
      rw [meaning_concat, if_neg hn.2]
      exact ih hu

/-- A name that was used last as no alias was used as a kind, and nothing was registered under it
since. -/
theorem latest?_of_kind {h : Handler} (hu : lastUse? hs name = some h) (hm : name ∉ h.aliases) :
    latest? hs name = some h := by
  induction hs using List.reverseRecOn with
  | nil => cases hu
  | append_singleton hs g ih =>
    rw [lastUse?_concat] at hu
    split at hu
    · next hg =>
      cases hu
      rw [latest?_concat, if_pos (((Handler.uses_iff _ _).1 hg).resolve_right hm)]
    · next hn =>
      rw [Handler.uses_iff, not_or] at hn
      rw [latest?_concat, if_neg hn.1]
      exact ih hu

/-- What is registered last under the meaning of a name is what the name should find, unless the
name is in the shadow of an alias. -/
theorem latest?_meaning_eq_iff :
    latest? hs (meaning hs name) = reached? hs name ↔ ¬ Shadowed hs name := by
  unfold reached? Shadowed
  cases hu : lastUse? hs name with
  | none =>
    obtain ⟨hm, hl⟩ := unused hu
    rw [hm, hl]
    exact iff_of_true rfl fun h => h.1 rfl
  | some h =>
    rw [Option.bind_some]
    by_cases ha : name ∈ h.aliases
    · rw [meaning_of_alias hu ha]
      refine iff_of_true rfl ?_
      rintro ⟨-, g, hg, hn⟩
      cases hg
      exact hn ha
    · have hl := latest?_of_kind hu ha
      rw [kind_of_latest? hl, hl]
      constructor
      · rintro heq ⟨hne, -⟩
        -- the handler that is found would have two kinds
        exact hne ((kind_of_latest? heq).symm.trans (kind_of_latest? hl))
      · intro hn
        have hm : meaning hs name = name := by
          by_contra hne
          exact hn ⟨hne, h, rfl, ha⟩
        rw [hm, hl]

end

/-- After any registrations a name finds what it should, the handler that was registered last under
the kind for which its last use stands, exactly if it is not in the shadow of an alias; in every
case it finds what was registered last under its meaning, and nothing if it was never used. Right
behind its registration a handler is found under each of its aliases, and under its kind exactly if
no earlier alias makes the kind stand for another one. -/
theorem get?_eq_reached_iff (hs : List Handler) (name : String) :
    ((ofHandlers hs).get? name = reached? hs name ↔ ¬ Shadowed hs name) ∧
    (ofHandlers hs).get? name = latest? hs (meaning hs name) ∧
    ((∀ h ∈ hs, h.kind ≠ name ∧ name ∉ h.aliases) → (ofHandlers hs).get? name = none) ∧
    ∀ h, (∀ a ∈ h.aliases, (ofHandlers (hs ++ [h])).get? a = some h) ∧
      ((ofHandlers (hs ++ [h])).get? h.kind = some h ↔
        h.kind ∈ h.aliases ∨ meaning hs h.kind = h.kind) := by
  refine ⟨?_, get?_ofHandlers hs name, ?_, fun h => ⟨?_, ?_⟩⟩
  · rw [get?_ofHandlers]
    exact latest?_meaning_eq_iff
  · intro hnone
    have hu : lastUse? hs name = none := by
      refine List.find?_eq_none.2 fun h hm => ?_
      rw [Handler.uses_iff, not_or]
      exact hnone h (List.mem_reverse.mp hm)
    obtain ⟨hm, hl⟩ := unused hu
    rw [get?_ofHandlers, hm, hl]
  · intro a ha
    rw [get?_ofHandlers, meaning_concat, if_pos ha, latest?_concat, if_pos rfl]
  · rw [get?_ofHandlers, meaning_concat]
    by_cases ha : h.kind ∈ h.aliases
    · rw [if_pos ha, latest?_concat, if_pos rfl]
      exact iff_of_true rfl (Or.inl ha)
    · rw [if_neg ha, or_iff_right ha]
      constructor
      · intro hl
        exact (kind_of_latest? hl).symm
      · intro hm
        rw [hm, latest?_concat, if_pos rfl]

/-- A handler that is registered as `tap` with the alias `touch` behind one with the alias `tap`:
the alias is followed, the kind is not found. -/
theorem get?_eq_reached_iff_tap :
    let tap : Handler := ⟨.click, "tap", ["touch"]⟩
    let hs : List Handler := [⟨.press, "press", ["tap"]⟩]
    (∀ h ∈ hs, h.kind ≠ "goto" ∧ "goto" ∉ h.aliases) ∧ (ofHandlers hs).get? "goto" = none ∧
      "touch" ∈ tap.aliases ∧ (ofHandlers (hs ++ [tap])).get? "touch" = some tap ∧
      (ofHandlers (hs ++ [tap])).get? "tap" ≠ some tap := by
  intro tap hs
  obtain ⟨-, -, hunused, hbehind⟩ := get?_eq_reached_iff hs "goto"
  have hgoto : ∀ h ∈ hs, h.kind ≠ "goto" ∧ "goto" ∉ h.aliases := by decide
  have htouch : "touch" ∈ tap.aliases := by decide
  refine ⟨hgoto, hunused hgoto, htouch, (hbehind tap).1 "touch" htouch, fun h => ?_⟩
  rcases (hbehind tap).2.1 h with ha | hm
  · exact absurd ha (by decide)
  · exact absurd hm (by decide)

/-- A command that is registered as `goto`, which is an alias of `navigate`, cannot be reached. -/
theorem not_reached_goto :
    ¬ ∀ (hs : List Handler) (name : String), (ofHandlers hs).get? name = reached? hs name := by
  intro h
  have hgoto := h [Command.navigate.handler, ⟨.click, "goto", []⟩] "goto"
  exact absurd hgoto (by decide)

end Registry

end BrowserFlow
