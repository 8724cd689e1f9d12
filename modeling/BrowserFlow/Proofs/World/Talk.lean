import BrowserFlow.Proofs.Execution.Files

/-!
# Who talks

The talk of a world is with a person and with the model: the lines that are still to be typed and
the requests that have been made. Nothing reads a line in the world itself, and nothing but the
planner makes a request. The steps of a document, looks at the page, and whatever is kept on the
disk leave the talk as it is (`World.keeps_talk`), and an answer of the model takes one request at
most, which is the prompt (`asksOnce_ask`).
-/

namespace BrowserFlow

open Effect

/-- What is quiet leaves the talk as it is. -/
theorem World.keeps_talk {ε α : Type} {x : Effect ε World α} (hx : Leads (Quiet .all) x) :
    Keeps talk x :=
  fun w => (hx w).talk

/-- The run of a document leaves the talk as it is. -/
theorem Execution.talk_run (e : Executor) (request : RunRequest) (context : Table Value)
    (actions : List Action) (w : World) : (run e request context actions w).2.talk = w.talk :=
  (quiet_run (B := .all) fun _ _ _ _ _ => DataFolder.covered_all _ _).talk

namespace Planner

/-- What is sent to the model is the prompt, once. -/
theorem send_talk (p : Planner) (prompt : String) (limit : Option Nat) (w : World) :
    ((p.send prompt limit).run w).2.talk =
      (w.inputs, w.requests ++ [⟨p.model, p.temperature, prompt⟩]) := by
  have hanswer := World.keeps_talk (quiet_answer limit)
  unfold send
  dsimp only
  rw [run_bind_ok (run_modify _ w), hanswer]
  rfl

/-- The requests hold one prompt, and it at most once. -/
def AtMostOnce (prompt : String) (asked : List ModelRequest) : Prop :=
  asked.length ≤ 1 ∧ ∀ q ∈ asked, q.prompt = prompt

theorem atMostOnce_nil (prompt : String) : AtMostOnce prompt [] :=
  ⟨Nat.zero_le 1, fun _ hq => (List.not_mem_nil hq).elim⟩

theorem atMostOnce_singleton (model : String) (temperature : Value) (prompt : String) :
    AtMostOnce prompt [⟨model, temperature, prompt⟩] :=
  ⟨Nat.le_refl 1, fun _ hq => by rw [List.mem_singleton.mp hq]⟩

/-- A computation makes at most one request, that for a prompt, and leaves the rest of the talk. -/
def AsksOnce {ε α : Type} (prompt : String) (x : Effect ε World α) : Prop :=
  ∀ w, ∃ asked, AtMostOnce prompt asked ∧ (x.run w).2.talk = (w.inputs, w.requests ++ asked)

section

variable {ε ε' α β : Type} {prompt : String} {x : Effect ε World α}

theorem AsksOnce.mapError (hx : AsksOnce prompt x) (f : ε → ε') :
    AsksOnce prompt (Effect.mapError f x) := hx

theorem AsksOnce.attempt (hx : AsksOnce prompt x) :
    AsksOnce prompt (Effect.attempt x : Effect ε' World (Except ε α)) := hx

theorem AsksOnce.bind (hx : AsksOnce prompt x) {f : α → Effect ε World β}
    (hf : ∀ a, Keeps World.talk (f a)) : AsksOnce prompt (x >>= f) := by
  intro w
  obtain ⟨asked, honce, htalk⟩ := hx w
  refine ⟨asked, honce, ?_⟩
  rw [← htalk]
  -- what follows makes no request, be it reached or not
  cases hrun : (x >>= f).run w with
  | mk r u =>
    rcases bind_cases hrun with ⟨e, he, -⟩ | ⟨a, v, hv, hu⟩
    · rw [he]
    · rw [hv]
      exact (hf a).of_run hu

end

/-- An answer takes one request, or none if there is no time for it. -/
theorem asksOnce_ask (p : Planner) (prompt : String) : AsksOnce prompt (p.ask prompt) := by
  intro w
  unfold ask
  split
  · exact ⟨_, atMostOnce_singleton _ _ prompt, send_talk p prompt none w⟩
  · rename_i ms _
    unfold World.within
    by_cases hms : ms ≤ 0
    -- the time is over before anything is sent
    · rw [if_pos hms]
      refine ⟨[], atMostOnce_nil prompt, ?_⟩
      rw [List.append_nil]
      rfl
    · rw [if_neg hms]
      exact ⟨_, atMostOnce_singleton _ _ prompt, send_talk p prompt _ w⟩

/-- So does a document. -/
theorem asksOnce_generate (p : Planner) (prompt : String) :
    AsksOnce prompt (p.generate prompt) :=
  ((asksOnce_ask p prompt).mapError _).bind fun _ =>
    keeps_bind (keeps_mapError (World.keeps_talk (quiet_read _ _))) fun _ => keeps_pure _

/-- And so does a judgement. -/
theorem asksOnce_judge (p : Planner) (prompt : String) : AsksOnce prompt (p.judge prompt) :=
  ((asksOnce_ask p prompt).mapError _).bind fun _ => keeps_lift _

end Planner

end BrowserFlow
