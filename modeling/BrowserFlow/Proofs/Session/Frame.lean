import BrowserFlow.Proofs.Session.Call
import BrowserFlow.Proofs.Session.Folders

/-!
# What a session does to the disk

A session keeps its settings, and nothing that it does puts files outside the three folders of these
but the scripts of a document whose data is kept under a name that leads elsewhere. So the parts of
a round stay within any bounds that allow what they put: `stays_obtain` for the document,
`stays_executed` for the run, `stays_judged` for the judgement, and `stays_after` for what comes
behind them.
-/

namespace BrowserFlow.Session

open Effect Planner

variable {α : Type} {S : Settings} {B : Disk.Bounds} {s t : Session}

/-- A session with some settings keeps them, and its world is confined. -/
def Stays (S : Settings) (B : Disk.Bounds) (s t : Session) : Prop :=
  s.settings = S → t.settings = S ∧ World.Confined B s.world t.world

instance : IsPreorder Session (Stays S B) where
  refl s hs := ⟨hs, refl_of _ s.world⟩
  trans _ _ _ hst htu hs :=
    have ht := hst hs
    have hu := htu ht.1
    ⟨hu.1, trans_of _ ht.2 hu.2⟩

/-- What changes neither the settings nor the world. -/
theorem Stays.of_eq (hsettings : t.settings = s.settings) (hworld : t.world = s.world) :
    Stays S B s t :=
  fun hs => ⟨hsettings.trans hs, hworld.symm ▸ refl_of (World.Confined B) s.world⟩

theorem stays_inWorld {x : Effect Failure World α} (hx : Leads (World.Confined B) x) :
    Leads (Stays S B) (inWorld x) :=
  leads_zoom hx fun _ _ hworld hs => ⟨hs, hworld⟩

theorem stays_quiet {x : Effect Failure World α} (hx : Leads (World.Quiet B) x) :
    Leads (Stays S B) (inWorld x) :=
  stays_inWorld (hx.mono fun _ _ h => h.toConfined)

theorem stays_byWorld {x : Effect Fault World α} (hx : Leads (World.Quiet B) x) :
    Leads (Stays S B) (byWorld x) :=
  stays_quiet (leads_mapError hx)

theorem stays_say (line : String) : Leads (Stays S B) (say line) :=
  stays_quiet (World.quiet_print line)

theorem stays_enter (p : Phase) : Leads (Stays S B) (enter p) :=
  leads_modify fun _ => .of_eq rfl rfl

theorem stays_consult (ask : List String → Decider → Ruling × Decider) :
    Leads (Stays S B) (consult ask) :=
  fun s hs => ⟨hs, ⟨refl_of (Disk.Confined B) s.world.disk, Nat.le_refl _⟩⟩

/-! ## The parts of a round -/

theorem stays_obtain (task : Task) : Leads (Stays S B) task.obtain := by
  have hdocument : ∀ (p : Planner) (prompt said : String), Leads (Stays S B) (do
      let document ← inWorld (p.generate prompt)
      say (said ++ document)
      return document) := fun p prompt said =>
    leads_bind (stays_inWorld (confined_generate p prompt)) fun _ =>
      leads_bind (stays_say _) fun _ => leads_pure _
  cases task with
  | fresh number intent document =>
    have hannounce : Leads (Stays S B) (announce number) :=
      leads_bind (stays_say _) fun _ => leads_get_bind fun _ => leads_bind (stays_say _) fun _ =>
        stays_say _
    refine leads_bind hannounce fun _ => ?_
    cases document with
    | some document => exact leads_pure document
    | none => exact leads_bind (stays_enter _) fun _ => leads_get_bind fun s => hdocument _ _ _
  | further existing followUp history =>
    exact leads_bind (stays_enter _) fun _ => leads_get_bind fun s => hdocument _ _ _

/-- The run of a document, by the files that its steps name for their data. -/
theorem stays_executed {intent document : String} {r : Report}
    (hdata : B.Covers S.data) (hgiven : ∀ st ∈ r.steps, ∀ name ∈ st.filename?, name ≠ "" →
      Disk.pathOf (Disk.trail (pathIn S.data name)) ∈ B.files)
    (h : (executed intent document).run s = (.ok r, t)) : Stays S B s t := by
  unfold executed at h
  obtain ⟨_, u, hu, h⟩ := bind_ok h
  obtain ⟨report, v, hv, h⟩ := bind_ok h
  obtain ⟨_, x, hx, h⟩ := bind_ok h
  cases h
  have hrun : Stays S B u v := by
    intro hsettings
    unfold runDocument at hv
    rw [run_bind_ok (run_get u)] at hv
    obtain ⟨actions, y, hy, hv⟩ := bind_ok hv
    obtain ⟨hset, hworld⟩ := (stays_quiet (S := S) (B := B) (quiet_read _ _)).of_run hy hsettings
    rw [run_bind_ok (run_get y)] at hv
    cases hran :
        Execution.run y.executor { instruction := some intent } y.context actions y.world with
    | mk p w =>
      obtain ⟨result, context⟩ := p
      rw [hran] at hv
      dsimp only at hv
      rw [run_bind_ok (run_set _ y), run_lift] at hv
      obtain ⟨rfl, rfl⟩ := Prod.mk.inj hv
      refine ⟨hset, trans_of _ hworld ?_⟩
      refine (Execution.quiet_run_ok hran fun st hst folder hfolder => ?_).toConfined
      -- the data is kept in the folder of the settings
      have hpath : folder = { path := S.data } := by
        rw [← hset]
        exact (Option.some.inj hfolder).symm
      rw [hpath]
      exact ⟨hdata, hgiven st hst⟩
  refine trans_of _ ((stays_enter _).of_run hu) (trans_of _ hrun ((stays_enter _).of_run hx))

theorem stays_look : Leads (Stays S B) look := by
  refine leads_get_bind fun s => ?_
  refine leads_bind (stays_quiet (leads_attempt (Perception.quiet_look _ _ _))) fun seen => ?_
  cases seen with
  | ok found => exact leads_bind (leads_modify fun _ => .of_eq rfl rfl) fun _ => leads_pure _
  | error f => exact leads_pure _

theorem stays_enriched (a : Attempt) (r : Report) : Leads (Stays S B) (enriched a r) := by
  refine leads_bind stays_look fun seen => ?_
  cases seen with
  | error f => exact leads_bind (stays_quiet (World.quiet_warn _)) fun _ => leads_pure _
  | ok digest =>
    exact leads_bind (stays_byWorld (Ranking.quiet_suggest _ _ _ _ _)) fun _ => leads_pure _

theorem stays_judge (intent document : String) (r : Report) :
    Leads (Stays S B) (judge intent document r) := by
  refine leads_get_bind fun s => ?_
  refine leads_bind (stays_inWorld (leads_attempt (confined_judge _ _))) fun answer => ?_
  cases answer with
  | ok v => exact leads_pure v
  | error f =>
    cases f with
    | verification reason raw =>
      exact leads_bind (stays_quiet (World.quiet_warn _)) fun _ => leads_pure _
    | _ => exact leads_throw _

theorem stays_judged (a : Attempt) (r : Report) : Leads (Stays S B) (judged a r) := by
  unfold judged
  split
  · exact leads_bind (stays_say _) fun _ => leads_bind (stays_enriched a r) fun _ => leads_pure _
  · exact leads_bind (stays_judge _ _ _) fun _ => leads_pure _

theorem stays_abandon (reason : String) : Leads (Stays S B) (abandon reason) :=
  leads_bind (stays_enter _) fun _ => leads_bind (stays_say _) fun _ =>
    leads_get_bind fun _ => leads_pure _

theorem stays_saveAs (h : B.Covers S.library) (intent document : String) (name : Option String) :
    Leads (Stays S B) (saveAs intent document name) := by
  intro s hs
  unfold saveAs
  rw [run_bind_ok (run_get s)]
  have hsave : ∀ draft : Draft, Leads (Stays S B) (do
      let w ← byWorld (Library.save s.settings.library draft)
      say s!"✓ 已保存工作流 {w.name.plainText} ({w.id.plainText})"
      return w) := by
    intro draft
    rw [hs]
    exact leads_bind (stays_byWorld (Library.quiet_save h draft)) fun _ =>
      leads_bind (stays_say _) fun _ => leads_pure _
  exact hsave _ s hs

theorem stays_settle (h : B.Covers S.library) (intent document : String) (v : Verification)
    (d : Decision) : Leads (Stays S B) (settle intent document v d) := by
  have haccepting : ∀ saved, Leads (Stays S B) (accepting document v d saved) := fun saved =>
    leads_get_bind fun s => leads_bind (leads_modify fun _ => .of_eq rfl rfl) fun _ =>
      leads_bind (stays_say _) fun _ => leads_pure _
  rw [settle_eq]
  refine leads_ite ?_ (haccepting none)
  exact leads_bind (leads_map (stays_saveAs h intent document d.text)) haccepting

/-! ## What comes behind a judgement -/

theorem stays_afterSuccess (h : B.Covers S.library) (isLast : Bool) (intent : String) (a : Attempt)
    (v : Verification) : Leads (Stays S B) (afterSuccess isLast intent a v) := by
  have hsettle : ∀ d, Leads (Stays S B)
      (settle intent a.document v d >>= fun e => pure (Next.ended e)) := fun d =>
    leads_bind (stays_settle h intent a.document v d) fun _ => leads_pure _
  refine leads_bind (stays_enter _) fun _ => leads_bind (stays_consult _) fun d => ?_
  dsimp only
  split
  · refine leads_get_bind fun s => leads_bind (stays_say _) fun _ => hsettle _
  · split
    · refine leads_bind (stays_enter _) fun _ => ?_
      split
      · exact leads_pure _
      · exact leads_pure _
    · exact hsettle d

theorem stays_afterFailure (isLast : Bool) (intent : String) (a : Attempt) (v : Verification) :
    Leads (Stays S B) (afterFailure isLast intent a v) := by
  have habandon : ∀ reason, Leads (Stays S B)
      (abandon reason >>= fun e => pure (Next.ended e)) := fun reason =>
    leads_bind (stays_abandon reason) fun _ => leads_pure _
  have hagain : ∀ next : String, Leads (Stays S B)
      (say ("↻ 重试，指令: " ++ next) >>= fun _ => pure (Next.again next none)) := fun next =>
    leads_bind (stays_say _) fun _ => leads_pure _
  unfold afterFailure
  dsimp only
  split
  · exact leads_get_bind fun s => habandon _
  · refine leads_bind (stays_consult _) fun d => ?_
    split
    · exact habandon _
    · refine leads_bind (stays_enter _) fun _ => ?_
      split
      · exact leads_bind (leads_modify fun _ => .of_eq rfl rfl) fun _ => hagain _
      · exact hagain _
      · exact hagain _
      · exact hagain _

theorem stays_acceptSteps (h : B.Covers S.library) (existing followUp : String) (a : Attempt)
    (v : Verification) : Leads (Stays S B) (acceptSteps existing followUp a v) := by
  refine leads_bind (stays_enter _) fun _ => leads_bind (leads_lift _) fun joined => ?_
  refine leads_bind (stays_consult _) fun d => ?_
  dsimp only
  split
  · exact leads_bind (stays_say _) fun _ => leads_get_bind fun s => stays_settle h _ _ _ _
  · exact leads_get_bind fun s => stays_settle h _ _ _ _

theorem stays_afterFailedSteps (isLast : Bool) (followUp : String) (history : List Attempt)
    (a : Attempt) (v : Verification) :
    Leads (Stays S B) (afterFailedSteps isLast followUp history a v) := by
  have habandon : ∀ reason, Leads (Stays S B)
      (abandon reason >>= fun e => pure (NextStep.ended e)) := fun reason =>
    leads_bind (stays_abandon reason) fun _ => leads_pure _
  have hagain : ∀ (followUp : String) (history : List Attempt), Leads (Stays S B)
      (enter .retry >>= fun _ => pure (NextStep.again followUp history)) := fun followUp history =>
    leads_bind (stays_enter _) fun _ => leads_pure _
  unfold afterFailedSteps
  split
  · exact leads_get_bind fun s => habandon _
  · refine leads_bind (stays_consult _) fun d => ?_
    split
    · exact habandon _
    · exact hagain _ _
    · exact hagain _ _
    · exact hagain _ _
    · exact hagain _ _

theorem stays_after (h : B.Covers S.library) (isLast : Bool) (a : Attempt) (v : Verification)
    (task : Task) : Leads (Stays S B) (task.after isLast a v) := by
  cases task with
  | fresh number intent document =>
    refine leads_map (leads_ite (stays_afterSuccess h _ _ _ _) (stays_afterFailure _ _ _ _))
  | further existing followUp history =>
    exact leads_map (leads_ite (leads_map (stays_acceptSteps h _ _ _ _))
      (stays_afterFailedSteps _ _ _ _ _))

end BrowserFlow.Session
