import BrowserFlow.Proofs.Document.Refusal
import BrowserFlow.Proofs.Step.Registration

/-!
# Which documents a registry reads

A registry takes a step if it finds the command of the step and the command reads the argument
(`Registry.Takes`). A text is read by a registry exactly if it is a list of steps that the registry
takes (`readable_iff`), so that two registries agree on a text unless one of them takes all of its
steps and the other does not (`readable_alike_iff`).

What a registry of registered handlers has read it can carry out: the kind of every action finds
some handler (`load_dispatched`).
-/

namespace BrowserFlow

namespace Registry

/-- The command of a step is found, and it reads the argument. -/
def Takes (r : Registry) (entry : Value) : Prop :=
  ∃ key argument others handler step, entry = .map ((key, argument) :: others) ∧
    r.get? key.plainText = some handler ∧ Step.read handler.command argument = .ok step

/-- A kind under which something was registered has something that was registered last. -/
theorem isSome_latest? {hs : List Handler} {h : Handler} (hmem : h ∈ hs) :
    (latest? hs h.kind).isSome := by
  unfold latest?
  rw [List.find?_isSome]
  exact ⟨h, List.mem_reverse.2 hmem, beq_self_eq_true h.kind⟩

/-- What a handler is found for has a handler for its kind too, even if that is an alias. -/
theorem isSome_get?_kind {hs : List Handler} {name : String} {h : Handler}
    (hfound : (ofHandlers hs).get? name = some h) : ((ofHandlers hs).get? h.kind).isSome := by
  rw [get?_ofHandlers] at hfound ⊢
  have hmem : h ∈ hs := List.mem_reverse.1 (List.mem_of_find?_eq_some hfound)
  unfold meaning
  cases halias : hs.reverse.find? fun g => g.aliases.contains h.kind with
  | none => exact isSome_latest? hmem
  | some g => exact isSome_latest? (List.mem_reverse.1 (List.mem_of_find?_eq_some halias))

end Registry

namespace Document

open Registry

variable {r r' : Registry} {text : String}

theorem readStep_ok_iff (place : Nat) {entry : Value} :
    (∃ a, readStep r place entry = .ok a) ↔ r.Takes entry := by
  constructor
  · rintro ⟨a, h⟩
    unfold readStep at h
    split at h
    · rename_i key argument others
      dsimp only at h
      cases hget : r.get? key.plainText with
      | none =>
        rw [hget] at h
        cases h
      | some handler =>
        rw [hget] at h
        dsimp only at h
        cases hread : Step.read handler.command argument with
        | error cause =>
          rw [hread] at h
          cases h
        | ok step => exact ⟨key, argument, others, handler, step, rfl, hget, hread⟩
    · cases h
  · rintro ⟨key, argument, others, handler, step, rfl, hget, hread⟩
    refine ⟨⟨handler.kind, step, place⟩, ?_⟩
    unfold readStep
    dsimp only
    rw [hget]
    dsimp only
    rw [hread]

theorem readSteps_ok_iff {entries : List Value} (place : Nat) :
    (∃ actions, (readSteps r place entries).2 = .ok actions) ↔
      ∀ entry ∈ entries, r.Takes entry := by
  induction entries generalizing place with
  | nil => exact iff_of_true ⟨[], rfl⟩ fun _ h => absurd h List.not_mem_nil
  | cons entry rest ih =>
    rw [readSteps_cons, List.forall_mem_cons, ← readStep_ok_iff place, ← ih (place + 1)]
    cases readStep r place entry with
    | error f =>
      refine iff_of_false (fun ⟨_, h⟩ => ?_) fun ⟨⟨_, h⟩, _⟩ => ?_
      · cases h
      · cases h
    | ok a =>
      cases (readSteps r (place + 1) rest).2 with
      | error f =>
        refine iff_of_false (fun ⟨_, h⟩ => ?_) fun ⟨_, _, h⟩ => ?_
        · cases h
        · cases h
      | ok actions => exact iff_of_true ⟨a :: actions, rfl⟩ ⟨⟨a, rfl⟩, actions, rfl⟩

/-- A text can be read with the commands of a registry. -/
def Readable (r : Registry) (text : String) : Prop :=
  ∃ actions, (load r text).2 = .ok actions

instance (r : Registry) (text : String) : Decidable (Readable r text) :=
  decidable_of_iff ((load r text).2.isOk = true) (by
    unfold Readable
    cases (load r text).2 with
    | ok actions => exact iff_of_true rfl ⟨actions, rfl⟩
    | error f => exact iff_of_false Bool.false_ne_true fun ⟨_, h⟩ => nomatch h)

/-- A text is read exactly if it is a list of steps that are taken. -/
theorem readable_iff (r : Registry) (text : String) :
    Readable r text ↔
      ∃ entries, Yaml.load text = .ok (.list entries) ∧ ∀ entry ∈ entries, r.Takes entry := by
  unfold Readable load
  cases hyaml : Yaml.load text with
  | error e =>
    refine iff_of_false ?_ fun ⟨_, h, _⟩ => nomatch h
    rintro ⟨actions, h⟩
    cases e <;> cases h
  | ok document =>
    dsimp only
    unfold read
    split
    · rename_i entries
      rw [readSteps_ok_iff]
      constructor
      · exact fun h => ⟨entries, rfl, h⟩
      · rintro ⟨_, h, htakes⟩
        cases h
        exact htakes
    · rename_i hnot
      refine iff_of_false (fun ⟨_, h⟩ => nomatch h) ?_
      rintro ⟨entries, h, -⟩
      exact hnot entries (Except.ok.inj h)

/-- Two registries agree on a text unless one of them takes all of its steps and the other does
not. -/
theorem readable_alike_iff :
    (Readable r text ↔ Readable r' text) ↔
      ∀ entries, Yaml.load text = .ok (.list entries) →
        ((∀ entry ∈ entries, r.Takes entry) ↔ ∀ entry ∈ entries, r'.Takes entry) := by
  rw [readable_iff, readable_iff]
  constructor
  · intro h entries hyaml
    have hsteps : ∀ {r : Registry}, (∃ steps, Yaml.load text = .ok (.list steps) ∧
        ∀ entry ∈ steps, r.Takes entry) ↔ ∀ entry ∈ entries, r.Takes entry := by
      intro r
      refine ⟨?_, fun htakes => ⟨entries, hyaml, htakes⟩⟩
      rintro ⟨steps, hsame, htakes⟩
      cases hyaml.symm.trans hsame
      exact htakes
    rw [← hsteps, ← hsteps]
    exact h
  · intro h
    refine exists_congr fun entries => and_congr_right (h entries)

/-- Whether a failure is the refusal of a document. -/
def isRefusal : Failure → Bool
  | .document _ => true
  | .action _ => false
  | .generation _ => false
  | .verification _ _ => false
  | .notFound _ => false
  | .notAccepted => false
  | .fault _ => false

/-- Whether a text is refused as a document. -/
def refuses (r : Registry) (text : String) : Bool :=
  match (load r text).2 with
  | .ok _ => false
  | .error f => isRefusal f

theorem refuses_iff (r : Registry) (text : String) :
    refuses r text = true ↔ ∃ d, (load r text).2 = .error (.document d) := by
  unfold refuses
  cases hload : (load r text).2 with
  | ok actions =>
    constructor
    · intro h
      cases h
    · rintro ⟨d, h⟩
      cases h
  | error f =>
    rcases load_error hload with ⟨d, rfl⟩ | ⟨g, rfl⟩
    · exact iff_of_true rfl ⟨d, rfl⟩
    · constructor
      · intro h
        cases h
      · rintro ⟨d, h⟩
        cases h

/-- Every action that was read with registered handlers finds a handler when it is taken. -/
theorem load_dispatched {hs : List Handler} {actions : List Action}
    (h : (load (ofHandlers hs) text).2 = .ok actions) :
    ∀ a ∈ actions, ((ofHandlers hs).get? a.kind).isSome := by
  intro a ha
  unfold load at h
  split at h
  · obtain ⟨place, entry, hread⟩ := exists_readStep_of_mem_read h ha
    obtain ⟨name, handler, argument, hget, hkind, -⟩ := exists_read_of_readStep hread
    rw [hkind]
    exact isSome_get?_kind hget
  · cases h
  · cases h

end Document

end BrowserFlow
