import BrowserFlow.Proofs.World.Frame
import BrowserFlow.Proofs.World.Link
import BrowserFlow.Session.Run

/-!
# Worlds beside one another

Nothing that the program does in the world reads what has been printed, what has been warned of or
what the model has been asked. Two worlds are beside one another if they are the same but for these,
and if all that the model has been asked since then has been asked in both. Everything that is done
in the world comes to the same in worlds beside one another, and leaves them beside one another.
That goes for a question to the model also if it is put in other words, as the model gives the
replies that it has.
-/

namespace BrowserFlow

open Effect

/-- Two worlds are the same but for what has been printed and warned of, and behind the requests `p`
and `p'` there are the same requests in them, which `f` puts in other words in the second. -/
structure World.Beside (p p' : List ModelRequest) (f : ModelRequest → ModelRequest)
    (w w' : World) : Prop where
  clock : w.clock = w'.clock
  drawn : w.drawn = w'.drawn
  disk : w.disk = w'.disk
  page : w.page = w'.page
  replies : w.replies = w'.replies
  inputs : w.inputs = w'.inputs
  requests : ∃ q, w.requests = p ++ q ∧ w'.requests = p' ++ q.map f

variable {p p' : List ModelRequest} {f : ModelRequest → ModelRequest} {w w' : World} {α : Type}

namespace World

/-- From now on other requests are compared. -/
theorem Beside.anew (h : Beside p p' f w w') (g : ModelRequest → ModelRequest) :
    Beside w.requests w'.requests g w w' :=
  { h with requests := ⟨[], (List.append_nil _).symm, (List.append_nil _).symm⟩ }

theorem link_beside : Link 0 0 (Beside p p' f) where
  page h := h.page
  clock h := congrArg (· + 0) h.clock
  turned _ h := { h with page := rfl }
  passed hc h := { h with clock := hc }
  said _ _ _ _ h := { h with }

theorem beside_onDisk {ε : Type} (x : Effect ε Disk α) :
    Parallel (Beside p p' f) Eq (onDisk x) (onDisk x) :=
  parallel_zoom (parallel_self x) (fun _ _ h => h.disk) fun _ _ _ _ h hdisk =>
    { h with disk := hdisk }

theorem beside_draw {ε : Type} : Parallel (Beside p p' f) Eq (draw : Effect ε World Nat) draw := by
  intro w w' h
  have hdrawn : w.drawn + 1 = w'.drawn + 1 := congrArg (· + 1) h.drawn
  exact ⟨.ok hdrawn, { h with drawn := hdrawn }⟩

theorem beside_now {ε : Type} : Parallel (Beside p p' f) Eq (now : Effect ε World String) now :=
  fun _ _ h => ⟨.ok (congrArg Clock.iso h.clock), h⟩

theorem beside_call {limit limit' : Option Nat} (hlimit : SameLimit 0 0 limit limit')
    (c : PageCall) : Parallel (Beside p p' f) Eq (call limit c) (call limit' c) :=
  link_beside.parallel_call hlimit c

end World

open World (Beside)

/-! ## Steps -/

namespace DataFolder

theorem beside_fileName (format : DataFormat) :
    Parallel (Beside p p' f) Eq (fileName format) (fileName format) := by
  refine parallel_get_bind fun w w' h => ?_
  rw [h.clock]
  exact parallel_bind_eq World.beside_draw fun _ => parallel_pure rfl

theorem beside_save (folder : DataFolder) (instruction : Option String) (data : Value)
    (format filename : Option String) :
    Parallel (Beside p p' f) Eq (folder.save instruction data format filename)
      (folder.save instruction data format filename) := by
  have hprint : ∀ line : String, Parallel (Beside p p' f) Eq
      (World.print line : Effect Fault World Unit) (World.print line) :=
    fun line => World.link_beside.parallel_print line line
  have hname : ∀ format, Parallel (Beside p p' f) Eq (nameFor format filename)
      (nameFor format filename) := by
    intro format
    unfold nameFor
    split
    · exact beside_fileName format
    · exact beside_fileName format
    · exact parallel_pure rfl
  have hput : ∀ content shown name, Parallel (Beside p p' f) Eq (folder.put content shown name)
      (folder.put content shown name) := by
    intro content shown name
    refine parallel_bind_eq (World.beside_onDisk _) fun _ => ?_
    refine parallel_ite ?_ (parallel_pure rfl)
    refine parallel_bind_eq (hprint _) fun _ => ?_
    refine parallel_bind_eq (hprint _) fun _ => ?_
    refine parallel_bind_eq (hprint _) fun _ => ?_
    refine parallel_bind_eq (hprint _) fun _ => ?_
    exact parallel_bind_eq (hprint _) fun _ => parallel_pure rfl
  rw [save_eq]
  refine parallel_ite ?_ (parallel_throw _)
  refine parallel_bind_eq (World.beside_onDisk _) fun _ => ?_
  exact parallel_bind_eq (hname _) fun name => hput _ _ name

end DataFolder

namespace Execution

open World (SameLimit)

theorem beside_extract {limit limit' : Option Nat} (scene : Scene)
    (hlimit : SameLimit 0 0 limit limit') (script : String) (format filename : Option String) :
    Parallel (Beside p p' f) Eq (Step.extract scene limit script format filename)
      (Step.extract scene limit' script format filename) := by
  refine World.link_beside.parallel_call_bind hlimit fun result => ?_
  dsimp only
  split
  · rename_i folder _ _
    refine parallel_bind_eq (parallel_attempt_eq (folder.beside_save _ _ _ _)) fun saved => ?_
    cases saved with
    | ok path => exact parallel_pure rfl
    | error g =>
      refine parallel_ite (parallel_bind_eq (parallel_throw _) fun _ => ?_) ?_
      · exact parallel_bind_eq (World.link_beside.parallel_warn _ _) fun _ => parallel_pure rfl
      · exact parallel_bind_eq (World.link_beside.parallel_warn _ _) fun _ => parallel_pure rfl
  · exact parallel_pure rfl

theorem beside_report (e : Executor) (instruction : Option String) (total number : Nat)
    (action : Action) :
    Parallel (Beside p p' f) Eq (report e instruction total number action)
      (report e instruction total number action) := by
  have htake : Parallel (Beside p p' f) Eq (take e instruction number action)
      (take e instruction number action) :=
    World.link_beside.parallel_take number action rfl rfl (fun _ => rfl)
      fun hlimit script format filename _ => beside_extract _ hlimit script format filename
  refine parallel_get_bind fun w w' h => ?_
  rw [h.clock]
  refine parallel_bind_eq (parallel_attempt_eq htake) fun outcome => ?_
  refine parallel_get_bind fun u u' hu => ?_
  rw [hu.clock]
  refine parallel_bind_eq (parallel_lift_eq _) fun taken => ?_
  exact parallel_bind_eq (World.link_beside.parallel_print _ _) fun _ => parallel_pure rfl

theorem beside_pause (e : Executor) (total number : Nat) (h : Beside p p' f w w') :
    Beside p p' f (pause e total number w) (pause e total number w') := by
  unfold pause
  split
  · exact { h with clock := congrArg (· + e.delayMs.toNat) h.clock }
  · exact h

theorem beside_runFrom (e : Executor) (request : RunRequest) (total number : Nat)
    (context : Table Value) (actions : List Action) (h : Beside p p' f w w') :
    (runFrom e request total number context actions w).1 =
        (runFrom e request total number context actions w').1 ∧
      Beside p p' f (runFrom e request total number context actions w).2
        (runFrom e request total number context actions w').2 := by
  induction actions generalizing number context w w' with
  | nil => exact ⟨rfl, h⟩
  | cons a rest ih =>
    obtain ⟨hresult, hstate⟩ :=
      beside_report e request.instruction total number (fill request context a) w w' h
    unfold runFrom
    generalize (report e request.instruction total number (fill request context a)).run w = r
      at hresult hstate ⊢
    generalize (report e request.instruction total number (fill request context a)).run w' = r'
      at hresult hstate ⊢
    obtain ⟨r, u⟩ := r
    obtain ⟨r', u'⟩ := r'
    obtain rfl : r = r' := hresult.eq
    cases r with
    | error g => exact ⟨rfl, hstate⟩
    | ok taken =>
      dsimp only at hstate ⊢
      split
      · exact ⟨rfl, hstate⟩
      · obtain ⟨hlater, hafter⟩ := ih (number + 1) (keep context taken.stored)
          (beside_pause e total number hstate)
        exact ⟨by rw [hlater], hafter⟩

/-- A document comes to the same in worlds beside one another. -/
theorem beside_run (e : Executor) (request : RunRequest) (context : Table Value)
    (actions : List Action) (h : Beside p p' f w w') :
    (run e request context actions w).1 = (run e request context actions w').1 ∧
      Beside p p' f (run e request context actions w).2 (run e request context actions w').2 := by
  obtain ⟨hprogress, hafter⟩ := beside_runFrom e request actions.length 1 context actions h
  unfold run
  dsimp only
  rw [h.clock]
  generalize runFrom e request actions.length 1 context actions w = r at hprogress hafter ⊢
  generalize runFrom e request actions.length 1 context actions w' = r' at hprogress hafter ⊢
  obtain ⟨progress, u⟩ := r
  obtain ⟨_, u'⟩ := r'
  obtain rfl := hprogress
  dsimp only at hafter ⊢
  have helapsed : (u.clock : Int) - w'.clock = u'.clock - w'.clock := by rw [hafter.clock]
  rw [helapsed]
  split
  · exact ⟨rfl, hafter⟩
  · exact ⟨rfl, hafter⟩
  · refine ⟨rfl, ?_⟩
    dsimp only
    split
    · exact hafter
    · exact World.link_beside.said _ _ u.warnings u'.warnings hafter

end Execution

/-! ## Looks at the page -/

theorem Perception.beside_look (limits : Digest.Limits) (m : Memory) (force : Bool) :
    Parallel (Beside p p' f) Eq (look limits m force) (look limits m force) := by
  have hsample : ∀ url, Parallel (Beside p p' f) Eq (sample limits url) (sample limits url) := by
    intro url
    refine parallel_bind_eq (World.beside_call .none _) fun raw => ?_
    refine parallel_get_bind fun w w' h => ?_
    rw [h.clock]
    exact parallel_lift_eq _
  refine parallel_get_bind fun w w' h => ?_
  rw [h.page]
  dsimp only
  split
  · exact parallel_pure rfl
  · exact parallel_bind_eq (hsample _) fun _ => parallel_pure rfl

namespace Ranking

theorem beside_readTexts (selector : String) (places : List Nat) :
    Parallel (Beside p p' f) Eq (readTexts selector places) (readTexts selector places) := by
  induction places with
  | nil => exact parallel_pure rfl
  | cons index rest ih =>
    exact parallel_bind_eq (parallel_attempt_eq (World.beside_call .none _)) fun _ =>
      parallel_bind_eq ih fun _ => parallel_pure rfl

theorem beside_probe (sampleSize : Int) (selector : String) :
    Parallel (Beside p p' f) Eq (probe sampleSize selector) (probe sampleSize selector) := by
  refine parallel_bind_eq (parallel_attempt_eq (World.beside_call .none _)) fun answer => ?_
  split
  · exact parallel_bind_eq (beside_readTexts selector _) fun _ => parallel_pure rfl
  · exact parallel_pure rfl

theorem beside_tryAll (sampleSize : Int) (bulk : Bool) (candidates : List Value)
    (seen : List String) :
    Parallel (Beside p p' f) Eq (tryAll sampleSize bulk seen candidates)
      (tryAll sampleSize bulk seen candidates) := by
  induction candidates generalizing seen with
  | nil => exact parallel_pure rfl
  | cons candidate rest ih =>
    refine parallel_bind_eq (parallel_lift_eq _) fun selector => parallel_ite (ih seen) ?_
    refine parallel_bind_eq ?_ fun _ => parallel_bind_eq (ih _) fun _ => parallel_pure rfl
    exact parallel_bind_eq (beside_probe sampleSize selector) fun _ => parallel_pure rfl

theorem beside_suggest (sampleSize : Int) (digest : Option Digest) (failed : Option String)
    (bulk : Bool) (limit : Int) :
    Parallel (Beside p p' f) Eq (suggest sampleSize digest failed bulk limit)
      (suggest sampleSize digest failed bulk limit) :=
  parallel_map (beside_tryAll sampleSize bulk _ []) fun _ _ h => congrArg Candidate.sort h

end Ranking

/-! ## Records on the disk -/

theorem Journal.beside_create (folder : String) (r : Report) (url : Value)
    (digest : Option Digest) (workflowId analysis : Value) :
    Parallel (Beside p p' f) Eq (create folder r url digest workflowId analysis)
      (create folder r url digest workflowId analysis) := by
  refine parallel_bind_eq World.beside_draw fun n => parallel_get_bind fun w w' h => ?_
  rw [h.clock]
  refine parallel_bind_eq (parallel_attempt_eq (World.beside_onDisk _)) fun added => ?_
  have hwarned : ∀ (line : String) (e : Entry), Parallel (Beside p p' f) Eq
      (World.warn line >>= fun _ => pure e : Effect Fault World Entry)
      (World.warn line >>= fun _ => pure e) :=
    fun line e => parallel_bind_eq (World.link_beside.parallel_warn line line) fun _ =>
      parallel_pure rfl
  cases added with
  | ok _ => exact parallel_pure rfl
  | error g =>
    exact parallel_ite (parallel_bind_eq (parallel_throw _) fun _ => hwarned _ _) (hwarned _ _)

theorem Library.beside_save (folder : String) (draft : Draft) :
    Parallel (Beside p p' f) Eq (save folder draft) (save folder draft) :=
  parallel_bind_eq (World.beside_onDisk _) fun _ => parallel_bind_eq World.beside_now fun _ =>
    parallel_bind_eq World.beside_draw fun _ => parallel_bind_eq (parallel_lift_eq _) fun _ =>
      parallel_bind_eq (World.beside_onDisk _) fun _ => parallel_pure rfl

/-! ## The model -/

namespace Planner

open World (SameLimit)

theorem beside_read (registry : Registry) (document : String) :
    Parallel (Beside p p' f) Eq (read registry document) (read registry document) := by
  have hwarned : ∀ warnings : List String, Parallel (Beside p p' f) Eq
      (warnAll warnings : Effect Failure World Unit) (warnAll warnings) := by
    intro warnings
    induction warnings with
    | nil => exact parallel_pure rfl
    | cons s rest ih => exact parallel_bind_eq (World.link_beside.parallel_warn s s) fun _ => ih
  exact parallel_bind_eq (hwarned _) fun _ => parallel_lift_eq _

theorem beside_receive {limit limit' : Option Nat} (hlimit : SameLimit 0 0 limit limit')
    (reply : Option ModelReply) :
    Parallel (Beside p p' f) Eq (receive limit reply) (receive limit' reply) := by
  rcases reply with _ | reply
  · exact parallel_throw _
  · cases reply with
    | error m => exact parallel_throw _
    | content text => exact parallel_pure rfl
    | delayed ms text =>
      exact parallel_bind_eq (World.link_beside.parallel_pass hlimit ms) fun _ => parallel_pure rfl

theorem beside_nextReply : Parallel (Beside p p' f) Eq nextReply nextReply := by
  refine parallel_get_bind fun w w' h => ?_
  rw [h.replies]
  refine parallel_bind_eq (fun u u' _ => ⟨.ok rfl, ?_⟩) fun _ => parallel_pure rfl
  exact { h with replies := rfl }

/-- A question in other words gets the same answer. -/
theorem beside_ask (m : Planner) {prompt prompt' : String}
    (hf : f ⟨m.model, m.temperature, prompt⟩ = ⟨m.model, m.temperature, prompt'⟩) :
    Parallel (Beside p p' f) Eq (m.ask prompt) (m.ask prompt') := by
  have hsend : ∀ limit limit', SameLimit 0 0 limit limit' →
      Parallel (Beside p p' f) Eq (m.send prompt limit) (m.send prompt' limit') := by
    intro limit limit' hlimit
    refine parallel_bind_eq (parallel_modify fun w w' h => ?_) fun _ =>
      parallel_bind_eq beside_nextReply fun reply =>
        parallel_bind_eq (beside_receive hlimit reply) fun _ => parallel_pure rfl
    obtain ⟨q, hq, hq'⟩ := h.requests
    refine { h with requests := ⟨q ++ [⟨m.model, m.temperature, prompt⟩], ?_, ?_⟩ }
    · rw [hq, List.append_assoc]
    · rw [hq', List.map_append, List.map_singleton, hf, List.append_assoc]
  unfold ask
  split
  · exact hsend none none .none
  · exact World.link_beside.parallel_within hsend

theorem beside_generate (m : Planner) (prompt : String) :
    Parallel (Beside p p' id) Eq (m.generate prompt) (m.generate prompt) :=
  parallel_bind_eq (parallel_mapError (beside_ask m rfl) _) fun _ =>
    parallel_bind_eq (parallel_mapError (beside_read _ _) _) fun _ => parallel_pure rfl

theorem beside_judge (m : Planner) {prompt prompt' : String}
    (hf : f ⟨m.model, m.temperature, prompt⟩ = ⟨m.model, m.temperature, prompt'⟩) :
    Parallel (Beside p p' f) Eq (m.judge prompt) (m.judge prompt') :=
  parallel_bind_eq (parallel_mapError (beside_ask m hf) _) fun _ => parallel_lift_eq _

end Planner

end BrowserFlow
