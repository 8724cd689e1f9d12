import BrowserFlow.Proofs.Document.Taking
import BrowserFlow.Proofs.Session.Rerun

/-!
# Whose commands count

A session runs a document with the commands that it knows itself, whereas the planner takes a
document from the model if it can be read with the standard commands. So the two agree on the
document of a reply exactly if both registries take all of its steps or neither does
(`generated_alike_iff`). Where they differ, the failure tells which of them has refused: that of the
planner keeps the reply (`generate_refused_iff`), that of the run is the refusal itself
(`executed_refused_iff`).
-/

namespace BrowserFlow

namespace Planner

open Effect Document

variable {p : Planner} {prompt raw : String} {w : World}

/-- A reply gives a document exactly if the document in it can be read with the standard commands,
and then it is that document. -/
theorem generate_ok_iff (hraw : ((p.ask prompt).run w).1 = .ok raw) (document : String) :
    ((p.generate prompt).run w).1 = .ok document ↔
      document = Reply.document raw ∧ Readable .standard (Reply.document raw) := by
  rw [generate_result hraw]
  unfold Readable
  generalize (Document.load .standard (Reply.document raw)).2 = loaded
  generalize Reply.document raw = found
  cases loaded with
  | ok actions =>
    constructor
    · exact fun h => ⟨(Except.ok.inj h).symm, actions, rfl⟩
    · rintro ⟨rfl, -⟩
      rfl
  | error f =>
    constructor
    · intro h
      cases h
    · rintro ⟨-, actions, h⟩
      cases h

/-- The refusal of a document is kept with the reply. -/
theorem generate_refused_iff (hraw : ((p.ask prompt).run w).1 = .ok raw) (d : DocumentFailure) :
    ((p.generate prompt).run w).1 =
        .error (.generation { cause := .invalid d, raw := some raw }) ↔
      (Document.load .standard (Reply.document raw)).2 = .error (.document d) := by
  rw [generate_result hraw]
  cases hload : (Document.load .standard (Reply.document raw)).2 with
  | ok actions =>
    constructor
    · intro h
      cases h
    · intro h
      cases h
  | error f =>
    rcases load_error hload with ⟨c, rfl⟩ | ⟨g, rfl⟩
    · constructor
      · intro h
        cases h
        rfl
      · intro h
        cases h
        rfl
    · constructor
      · intro h
        cases h
      · intro h
        cases h

end Planner

namespace Session

open Effect Document Registry

variable {s : Session} {hs : List Handler} {intent document : String}

/-- The result of a run is that of reading the document with the commands of the session and of
taking its actions in the world after that. -/
theorem runDocument_result (s : Session) (intent document : String) :
    ((runDocument intent document).run s).1 = (load s.registry document).2.bind fun actions =>
      (Execution.run s.executor { instruction := some intent } s.context actions
        ((Planner.read s.registry document).run s.world).2).1.1 := by
  unfold runDocument
  have hread : (inWorld (Planner.read s.registry document)).run s =
      ((load s.registry document).2,
        { s with world := ((Planner.read s.registry document).run s.world).2 }) := by
    refine Prod.ext ?_ rfl
    show ((Planner.read s.registry document).run s.world).1 = _
    rw [Planner.run_read]
  rw [run_bind_ok (run_get _)]
  cases hload : (load s.registry document).2 with
  | error f =>
    rw [hload] at hread
    rw [run_bind_error hread]
    rfl
  | ok actions =>
    rw [hload] at hread
    rw [run_bind_ok hread, run_bind_ok (run_get _)]
    rfl

/-- A run refuses a document exactly if it cannot be read with the commands of the session: what
could be read finds its commands again. -/
theorem runDocument_refused_iff (s : Session) (hregistry : s.registry = ofHandlers hs)
    (d : DocumentFailure) :
    ((runDocument intent document).run s).1 = .error (.document d) ↔
      (load s.registry document).2 = .error (.document d) := by
  rw [runDocument_result]
  cases hload : (load s.registry document).2 with
  | error f =>
    show Except.error f = _ ↔ _
    rw [Except.error.injEq, Except.error.injEq]
  | ok actions =>
    refine iff_of_false (fun h => ?_) fun h => nomatch h
    obtain ⟨g, hg, hf⟩ := Execution.run_error h
    have hhandled : ∀ a ∈ actions, (s.registry.get? a.kind).isSome := by
      rw [hregistry] at hload ⊢
      exact load_dispatched hload
    obtain ⟨m, rfl⟩ := Execution.runFrom_ended rfl hhandled hg
    rcases hf with ⟨_, hf⟩ | hf
    · cases hf
    · cases hf

/-- Entering the phases before and after a run does not change its result. -/
theorem executed_result (s : Session) (intent document : String) :
    ((executed intent document).run s).1 =
      ((runDocument intent document).run { s with phases := s.phases ++ [.execute] }).1 := by
  unfold executed
  rw [enter, run_bind_ok (run_modify _ s), run_bind]
  rcases (runDocument intent document).run { s with phases := s.phases ++ [.execute] } with
    ⟨result, t⟩
  cases result with
  | error f => rfl
  | ok report => rfl

theorem executed_refused_iff (hregistry : s.registry = ofHandlers hs) (d : DocumentFailure) :
    ((executed intent document).run s).1 = .error (.document d) ↔
      (load s.registry document).2 = .error (.document d) := by
  rw [executed_result]
  exact runDocument_refused_iff { s with phases := s.phases ++ [.execute] } hregistry d

/-- A reply gives a document if it can be read with the standard commands. So this is the same as
that the commands of a session read it exactly if both take all of its steps or neither does. The
refusals differ as well: that of the planner is one of the standard commands and keeps the reply,
that of a run is one of the commands of the session. -/
theorem generated_alike_iff (hs : List Handler) {p : Planner} {prompt raw : String} {w : World}
    (hraw : ((p.ask prompt).run w).1 = .ok raw) :
    ((∃ document, ((p.generate prompt).run w).1 = .ok document) ↔
      Readable .standard (Reply.document raw)) ∧
    (((∃ document, ((p.generate prompt).run w).1 = .ok document) ↔
        Readable (ofHandlers hs) (Reply.document raw)) ↔
      ∀ entries, Yaml.load (Reply.document raw) = .ok (.list entries) →
        ((∀ entry ∈ entries, Registry.standard.Takes entry) ↔
          ∀ entry ∈ entries, (ofHandlers hs).Takes entry)) ∧
    (∀ d, ((p.generate prompt).run w).1 =
        .error (.generation { cause := .invalid d, raw := some raw }) ↔
      (load .standard (Reply.document raw)).2 = .error (.document d)) ∧
    ∀ s : Session, s.registry = ofHandlers hs → ∀ intent document d,
      ((executed intent document).run s).1 = .error (.document d) ↔
        (load (ofHandlers hs) document).2 = .error (.document d) := by
  have hgenerated : (∃ document, ((p.generate prompt).run w).1 = .ok document) ↔
      Readable .standard (Reply.document raw) := by
    constructor
    · rintro ⟨document, h⟩
      exact ((Planner.generate_ok_iff hraw document).1 h).2
    · exact fun h => ⟨_, (Planner.generate_ok_iff hraw _).2 ⟨rfl, h⟩⟩
  refine ⟨hgenerated, ?_, Planner.generate_refused_iff hraw, ?_⟩
  · rw [hgenerated]
    exact readable_alike_iff
  · intro s hregistry intent document d
    rw [← hregistry]
    exact executed_refused_iff hregistry d

/-- A world in which the model gives one answer. -/
def answering (answer : String) : World :=
  { replies := [.content (some answer)] }

/-- A session without the command of a step refuses the document that was generated for it, and a
session with a new command can read a document that is not generated. -/
theorem generated_alike_iff_hover_tap :
    ((∃ document,
        ((Planner.generate {} "go").run (answering "- hover: '#a'")).1 = .ok document) ∧
      ∃ d, ((executed "go" "- hover: '#a'").run
        { brief with registry := ofHandlers [Command.click.handler] }).1 = .error (.document d)) ∧
    (¬ ∃ document, ((Planner.generate {} "go").run (answering "- tap: '#a'")).1 = .ok document) ∧
      Readable (ofHandlers [⟨.click, "tap", []⟩]) "- tap: '#a'" := by
  have hhover : ((Planner.ask {} "go").run (answering "- hover: '#a'")).1 = .ok "- hover: '#a'" :=
    rfl
  have htap : ((Planner.ask {} "go").run (answering "- tap: '#a'")).1 = .ok "- tap: '#a'" := rfl
  constructor
  · obtain ⟨hgenerated, -, -, hrefused⟩ := generated_alike_iff [Command.click.handler] hhover
    obtain ⟨d, hload⟩ := (refuses_iff (ofHandlers [Command.click.handler]) "- hover: '#a'").1
      (by decide +kernel)
    exact ⟨hgenerated.2 (by decide +kernel), d, (hrefused _ rfl _ _ d).2 hload⟩
  · obtain ⟨hgenerated, -⟩ := generated_alike_iff [⟨.click, "tap", []⟩] htap
    have hunread : ¬ Readable .standard (Reply.document "- tap: '#a'") := by decide +kernel
    exact ⟨fun h => hunread (hgenerated.1 h), by decide +kernel⟩

/-- A document that was generated cannot always be read with the commands of the session. -/
theorem not_generated_alike_hover : ¬ ∀ (hs : List Handler) (p : Planner) (prompt raw : String)
    (w : World), ((p.ask prompt).run w).1 = .ok raw →
      ((∃ document, ((p.generate prompt).run w).1 = .ok document) ↔
        Readable (ofHandlers hs) (Reply.document raw)) := by
  intro h
  have hraw : ((Planner.ask {} "go").run (answering "- hover: '#a'")).1 = .ok "- hover: '#a'" := rfl
  have hreads : Readable .standard (Reply.document "- hover: '#a'") := by decide +kernel
  have hrefuses : ¬ Readable (ofHandlers [Command.click.handler])
      (Reply.document "- hover: '#a'") := by
    decide +kernel
  exact hrefuses ((h _ _ _ _ _ hraw).1 ⟨_, (Planner.generate_ok_iff hraw _).2 ⟨rfl, hreads⟩⟩)

end Session

end BrowserFlow
