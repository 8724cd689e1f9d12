import BrowserFlow.Execution.Perform
import BrowserFlow.Perception
import BrowserFlow.Planner
import BrowserFlow.Proofs.Disk.Bounds
import BrowserFlow.Proofs.Effect
import BrowserFlow.Proofs.Library.Shelf
import BrowserFlow.Proofs.World.Identifier
import BrowserFlow.Proofs.World.Onward
import BrowserFlow.Ranking
import BrowserFlow.World.Keeping

/-!
# What the world keeps

Most of what is done in a world lets time pass, asks the page, prints and warns. It leaves alone the
talk with a person and with the model, and on the disk it keeps to bounds (`World.Quiet`). The only
step that puts files is a script whose data is kept, and it puts them where `DataFolder.Covered`
says. Entries of the journal and saved workflows are put in their folders.
-/

namespace BrowserFlow

open Effect

variable {B : Disk.Bounds}

namespace World

/-- The lines that are still to be typed, and the requests so far. -/
def talk (w : World) : List String × List ModelRequest :=
  (w.inputs, w.requests)

/-- From one world to another the disk has changed within some bounds only, and the numbers that
have been drawn since are new. -/
structure Confined (B : Disk.Bounds) (w w' : World) : Prop where
  disk : Disk.Confined B w.disk w'.disk
  drawn : w.drawn ≤ w'.drawn

/-- So it is, and there has been no talk. -/
structure Quiet (B : Disk.Bounds) (w w' : World) : Prop extends Confined B w w' where
  talk : w'.talk = w.talk

instance : IsPreorder World (Confined B) where
  refl w := ⟨refl_of _ w.disk, Nat.le_refl _⟩
  trans _ _ _ huv hvw := ⟨trans_of _ huv.disk hvw.disk, Nat.le_trans huv.drawn hvw.drawn⟩

instance : IsPreorder World (Quiet B) where
  refl w := ⟨refl_of _ w, rfl⟩
  trans _ _ _ huv hvw :=
    ⟨trans_of _ huv.toConfined hvw.toConfined, hvw.talk.trans huv.talk⟩

/-- What changes neither the disk nor the talk, and draws no number. -/
theorem Quiet.of_eq {w w' : World} (hdisk : w'.disk = w.disk) (hdrawn : w'.drawn = w.drawn)
    (htalk : w'.talk = w.talk) : Quiet B w w' :=
  ⟨⟨hdisk.symm ▸ refl_of (Disk.Confined B) w.disk, Nat.le_of_eq hdrawn.symm⟩, htalk⟩

variable {ε α : Type}

theorem quiet_onward : Onward (Quiet B) where
  turned _ := .of_eq rfl rfl rfl
  passed _ := .of_eq rfl rfl rfl
  said _ _ _ := .of_eq rfl rfl rfl

theorem quiet_print (s : String) : Leads (Quiet B) (print s : Effect ε World Unit) :=
  quiet_onward.leads_print s

theorem quiet_warn (s : String) : Leads (Quiet B) (warn s : Effect ε World Unit) :=
  quiet_onward.leads_warn s

theorem quiet_call (limit : Option Nat) (c : PageCall) : Leads (Quiet B) (call limit c) :=
  quiet_onward.leads_call limit c

theorem quiet_draw : Leads (Quiet B) (draw : Effect ε World Nat) :=
  leads_bind (leads_modify fun w => ⟨⟨refl_of _ w.disk, Nat.le_succ _⟩, rfl⟩) fun _ =>
    leads_get_bind fun w => leads_pure w.drawn

theorem quiet_now : Leads (Quiet B) (now : Effect ε World String) :=
  leads_get_bind fun w => leads_pure (Clock.iso w.clock)

theorem quiet_onDisk {x : Effect ε Disk α} (hx : Leads (Disk.Confined B) x) :
    Leads (Quiet B) (onDisk x) :=
  leads_zoom hx fun _ _ hdisk => ⟨⟨hdisk, Nat.le_refl _⟩, rfl⟩

end World

/-! ## Steps -/

namespace DataFolder

/-- The bounds allow what is done to keep data: the folder is made, and a file is put into it under
a name that is made, or under the name that is given, which may lead elsewhere. -/
structure Covered (B : Disk.Bounds) (folder : DataFolder) (filename : Option String) : Prop where
  covers : B.Covers folder.path
  given : ∀ name ∈ filename, name ≠ "" →
    Disk.pathOf (Disk.trail (pathIn folder.path name)) ∈ B.files

theorem covered_all (folder : DataFolder) (filename : Option String) :
    folder.Covered .all filename :=
  ⟨Disk.Bounds.covers_all _, fun _ _ _ => Set.mem_univ _⟩

theorem quiet_fileName (format : DataFormat) : Leads (World.Quiet B) (fileName format) :=
  leads_get_bind fun _ => leads_bind World.quiet_draw fun _ => leads_pure _

/-- The name that is made is one. -/
theorem isName_fileName {format : DataFormat} {name : String} {w w' : World}
    (h : (fileName format).run w = (.ok name, w')) : Disk.IsName name := by
  have hname : name = "data-" ++ Clock.stamp w.clock ++ "-" ++ World.figures (w.drawn + 1) ++ "." ++
      format.name := by
    cases h
    rfl
  have hlength : 5 ≤ name.length := by
    rw [hname]
    simp only [String.length_append]
    have hdata : "data-".length = 5 := rfl
    omega
  have hformat : '/' ∉ format.name.toList := by
    cases format <;> decide
  refine ⟨?_, ?_, ?_, ?_⟩
  · rintro rfl
    exact absurd hlength (by decide)
  · rintro rfl
    exact absurd hlength (by decide)
  · rintro rfl
    exact absurd hlength (by decide)
  · rw [hname]
    simp only [String.toList_append, List.mem_append, not_or]
    exact ⟨⟨⟨⟨⟨by decide, Clock.no_slash_stamp _⟩, by decide⟩, World.no_slash_figures _⟩,
      by decide⟩, hformat⟩

/-- The name under which data is kept. -/
def nameFor (format : DataFormat) : Option String → Effect Fault World String
  | none | some "" => fileName format
  | some name => pure name

/-- Puts data under a name and shows it. -/
def put (folder : DataFolder) (content shown name : String) : Effect Fault World String := do
  let path := pathIn folder.path name
  World.onDisk (Disk.write path (.text content))
  if folder.display then
    World.print "\n📊 提取到的数据:"
    World.print rule
    World.print shown
    World.print rule
    World.print ("💾 数据已保存到: " ++ path)
  return path

/-- Keeps data in three parts: the folder, the name, and the file. -/
def keep (folder : DataFolder) (instruction : Option String) (data : Value)
    (format filename : Option String) : Effect Fault World String :=
  let format := Extraction.formatFor instruction format data
  World.onDisk (Disk.makeFolder folder.path) >>= fun _ => nameFor format filename >>=
    folder.put (Extraction.render format data).1 (Extraction.render format data).2

/-- Data is kept unless the name that is given for it can be part of no path. -/
theorem save_eq (folder : DataFolder) (instruction : Option String) (data : Value)
    (format filename : Option String) :
    folder.save instruction data format filename =
      if folder.accepts filename then folder.keep instruction data format filename
      else throw noPath := by
  have hkeep : folder.accepts filename = true →
      folder.save instruction data format filename =
        folder.keep instruction data format filename := by
    intro haccepts
    unfold save keep
    dsimp only
    rw [if_neg (by rw [haccepts]; decide)]
    split
    · rfl
    · rfl
    · rename_i name hname
      have hgiven : ∀ format, nameFor format (some name) = pure name := by
        intro format
        unfold nameFor
        split
        · rename_i h
          cases h
        · rename_i h
          exact absurd (Option.some.inj h) hname
        · rename_i h
          rw [Option.some.inj h]
      rw [hgiven]
      rfl
  cases haccepts : folder.accepts filename with
  | true => exact hkeep haccepts
  | false =>
    unfold save
    dsimp only
    rw [if_pos (by rw [haccepts]; decide)]
    rfl

theorem quiet_nameFor (format : DataFormat) (filename : Option String) :
    Leads (World.Quiet B) (nameFor format filename) := by
  unfold nameFor
  split
  · exact quiet_fileName format
  · exact quiet_fileName format
  · exact leads_pure _

variable {folder : DataFolder} {filename : Option String}

/-- The bounds allow the file under the name under which data is kept. -/
theorem Covered.allows (h : folder.Covered B filename) {format : DataFormat} {name : String}
    {w w' : World} (hname : (nameFor format filename).run w = (.ok name, w')) :
    Disk.pathOf (Disk.trail (pathIn folder.path name)) ∈ B.files := by
  have hmade : (fileName format).run w = (.ok name, w') →
      Disk.pathOf (Disk.trail (pathIn folder.path name)) ∈ B.files := by
    intro hname
    rw [Disk.trail_pathIn (isName_fileName hname)]
    exact h.covers.inside name (isName_fileName hname)
  unfold nameFor at hname
  split at hname
  · exact hmade hname
  · exact hmade hname
  · rename_i given hne
    cases hname
    exact h.given name rfl fun hempty => hne (by rw [hempty])

theorem Covered.quiet_save (h : folder.Covered B filename) (instruction : Option String)
    (data : Value) (format : Option String) :
    Leads (World.Quiet B) (folder.save instruction data format filename) := by
  have hput : ∀ content shown name, Disk.pathOf (Disk.trail (pathIn folder.path name)) ∈ B.files →
      Leads (World.Quiet B) (folder.put content shown name) := by
    intro content shown name hname
    refine leads_bind (World.quiet_onDisk (Disk.confined_write hname _)) fun _ => ?_
    refine leads_ite ?_ (leads_pure _)
    refine leads_bind (World.quiet_print _) fun _ => ?_
    refine leads_bind (World.quiet_print _) fun _ => ?_
    refine leads_bind (World.quiet_print _) fun _ => ?_
    refine leads_bind (World.quiet_print _) fun _ => ?_
    exact leads_bind (World.quiet_print _) fun _ => leads_pure _
  rw [save_eq]
  refine leads_ite ?_ (leads_throw _)
  refine leads_bind (World.quiet_onDisk (Disk.confined_makeFolder h.covers.stations)) fun _ w => ?_
  cases hrun : (nameFor (Extraction.formatFor instruction format data) filename).run w with
  | mk r w' =>
    have hnamed := (quiet_nameFor (B := B) _ _).of_run hrun
    cases r with
    | error f =>
      rw [run_bind_error hrun]
      exact hnamed
    | ok name =>
      rw [run_bind_ok hrun]
      exact (hput _ _ name (h.allows hrun)).trans hnamed

end DataFolder

namespace Step

/-- The file that a step names for its data. -/
def filename? : Step → Option String
  | evaluate _ _ filename => filename
  | _ => none

end Step

/-! ## Looks at the page -/

theorem Perception.quiet_look (limits : Digest.Limits) (m : Memory) (force : Bool) :
    Leads (World.Quiet B) (look limits m force) := by
  have hsample : ∀ url, Leads (World.Quiet B) (sample limits url) := fun url =>
    leads_bind (World.quiet_call _ _) fun _ => leads_get_bind fun _ => leads_lift _
  refine leads_get_bind fun w => ?_
  dsimp only
  split
  · exact leads_pure _
  · exact leads_bind (hsample _) fun _ => leads_pure _

namespace Ranking

theorem quiet_readTexts (selector : String) (places : List Nat) :
    Leads (World.Quiet B) (readTexts selector places) := by
  induction places with
  | nil => exact leads_pure _
  | cons index rest ih =>
    exact leads_bind (leads_attempt (World.quiet_call _ _)) fun _ =>
      leads_bind ih fun _ => leads_pure _

theorem quiet_probe (sampleSize : Int) (selector : String) :
    Leads (World.Quiet B) (probe sampleSize selector) := by
  refine leads_bind (leads_attempt (World.quiet_call _ _)) fun answer => ?_
  split
  · exact leads_bind (quiet_readTexts selector _) fun _ => leads_pure _
  · exact leads_pure _

theorem quiet_tryAll (sampleSize : Int) (bulk : Bool) (candidates : List Value)
    (seen : List String) : Leads (World.Quiet B) (tryAll sampleSize bulk seen candidates) := by
  induction candidates generalizing seen with
  | nil => exact leads_pure _
  | cons candidate rest ih =>
    refine leads_bind (leads_lift _) fun selector => leads_ite (ih seen) ?_
    refine leads_bind ?_ fun _ => leads_bind (ih _) fun _ => leads_pure _
    exact leads_bind (quiet_probe sampleSize selector) fun _ => leads_pure _

theorem quiet_suggest (sampleSize : Int) (digest : Option Digest) (failed : Option String)
    (bulk : Bool) (limit : Int) :
    Leads (World.Quiet B) (suggest sampleSize digest failed bulk limit) :=
  leads_map (quiet_tryAll sampleSize bulk _ [])

end Ranking

/-! ## Records on the disk -/

/-- An entry of the journal is put into its folder. -/
theorem Journal.quiet_create {folder : String} (h : B.Covers folder) (r : Report) (url : Value)
    (digest : Option Digest) (workflowId analysis : Value) :
    Leads (World.Quiet B) (create folder r url digest workflowId analysis) := by
  have hname : ∀ n, Disk.IsName (Library.fileName (World.identifier n)) := fun n =>
    Library.isName_fileName (World.no_slash_identifier n)
  have hadd : ∀ (n : Nat) (e : Entry), e.id = .text (World.identifier n) →
      Leads (Disk.Confined B) (add folder e) := by
    intro n e hid
    refine leads_bind (Disk.confined_makeFolder h.stations) fun _ => ?_
    refine Disk.confined_writeJson ?_ _ _
    rw [hid]
    show Disk.pathOf (Disk.trail (pathIn folder (Library.fileName (World.identifier n)))) ∈ B.files
    rw [Disk.trail_pathIn (hname n)]
    exact h.inside _ (hname n)
  refine leads_bind World.quiet_draw fun n => leads_get_bind fun w => ?_
  refine leads_bind (leads_attempt (World.quiet_onDisk (hadd n _ rfl))) fun added => ?_
  cases added with
  | ok _ => exact leads_pure _
  | error f =>
    dsimp only
    split
    · refine leads_bind (leads_throw _) fun _ => ?_
      exact leads_bind (World.quiet_warn _) fun _ => leads_pure _
    · exact leads_bind (World.quiet_warn _) fun _ => leads_pure _

namespace Library

theorem confined_prepare {folder : String} (h : B.Covers folder) :
    Leads (Disk.Confined B) (prepare folder) := by
  have hindex : Disk.pathOf (Disk.trail (indexPath folder)) ∈ B.files := by
    unfold indexPath
    rw [Disk.trail_pathIn isName_index]
    exact h.inside _ isName_index
  refine leads_bind (Disk.confined_makeFolder h.stations) fun _ => leads_get_bind fun d => ?_
  exact leads_ite (Disk.confined_writeJson hindex _ _) (leads_pure _)

theorem confined_index (folder : String) : Leads (Disk.Confined B) (index folder) := by
  refine leads_get_bind fun d => ?_
  split
  · exact leads_pure _
  · refine leads_bind (Disk.confined_read _) fun content => ?_
    split
    · exact leads_pure _
    · exact leads_lift _

/-- A draft can be refused for its tags; the workflow of one that is not is what it says. -/
theorem ofDraft_ok {draft : Draft} {id now : String} {v : Workflow}
    (h : ofDraft draft id now = .ok v) :
    v.id = .text id ∧ v.intent = draft.intent ∧ v.document = draft.document := by
  unfold ofDraft at h
  by_cases htags : draft.tags.truthy = true
  · rw [if_pos htags] at h
    cases hmembers : draft.tags.members with
    | error f =>
      rw [hmembers] at h
      cases h
    | ok tags =>
      rw [hmembers] at h
      cases h
      exact ⟨rfl, rfl, rfl⟩
  · rw [if_neg htags] at h
    cases h
    exact ⟨rfl, rfl, rfl⟩

/-- A new workflow is put into the folder of the library. -/
theorem quiet_save {folder : String} (h : B.Covers folder) (draft : Draft) :
    Leads (World.Quiet B) (save folder draft) := by
  have hfile : ∀ n, Disk.IsName n → Disk.pathOf (Disk.trail (pathIn folder n)) ∈ B.files := by
    intro n hn
    rw [Disk.trail_pathIn hn]
    exact h.inside n hn
  have hadd : ∀ (n : Nat) (v : Workflow), v.id = .text (World.identifier n) →
      Leads (Disk.Confined B) (add folder v) := by
    intro n v hid
    have hwrite : Leads (Disk.Confined B) (write folder v) := by
      refine Disk.confined_writeJson ?_ _ _
      rw [hid]
      exact hfile _ (isName_fileName (World.no_slash_identifier n))
    refine leads_bind hwrite fun _ => leads_bind (confined_index folder) fun i => ?_
    refine leads_bind (leads_lift _) fun updated => ?_
    exact Disk.confined_writeJson (hfile _ isName_index) _ _
  refine leads_bind (World.quiet_onDisk (confined_prepare h)) fun _ => ?_
  refine leads_bind World.quiet_now fun now => leads_bind World.quiet_draw fun n => ?_
  dsimp only
  cases hdraft : ofDraft draft (World.identifier n) now with
  | error f => exact leads_throw f
  | ok v =>
    show Leads _ (World.onDisk (add folder v) >>= fun _ => pure v)
    exact leads_bind (World.quiet_onDisk (hadd n v (ofDraft_ok hdraft).1)) fun _ => leads_pure v

end Library

/-! ## The model -/

namespace Planner

theorem quiet_warnAll {ε : Type} (warnings : List String) :
    Leads (World.Quiet B) (warnAll warnings : Effect ε World Unit) := by
  induction warnings with
  | nil => exact leads_pure _
  | cons s rest ih => exact leads_bind (World.quiet_warn s) fun _ => ih

theorem quiet_read (registry : Registry) (document : String) :
    Leads (World.Quiet B) (read registry document) :=
  leads_bind (quiet_warnAll _) fun _ => leads_lift _

theorem quiet_receive (limit : Option Nat) (reply : Option ModelReply) :
    Leads (World.Quiet B) (receive limit reply) := by
  rcases reply with _ | reply
  · exact leads_throw _
  · cases reply with
    | error m => exact leads_throw _
    | content text => exact leads_pure _
    | delayed ms text =>
      exact leads_bind (World.quiet_onward.leads_pass limit ms) fun _ => leads_pure _

theorem quiet_nextReply : Leads (World.Quiet B) nextReply := by
  intro w
  unfold nextReply
  rw [run_bind_ok (run_get w)]
  exact .of_eq rfl rfl rfl

/-- An answer to what has been sent. -/
theorem quiet_answer (limit : Option Nat) :
    Leads (World.Quiet B) (do
      let text ← receive limit (← nextReply)
      return Text.trim (text.getD "")) :=
  leads_bind quiet_nextReply fun reply => leads_bind (quiet_receive limit reply) fun _ =>
    leads_pure _

/-- A question to the model is talk, but it does nothing to the disk. -/
theorem confined_ask (p : Planner) (prompt : String) :
    Leads (World.Confined B) (p.ask prompt) := by
  have hsend : ∀ limit, Leads (World.Confined B) (p.send prompt limit) := fun limit =>
    leads_bind (leads_modify fun w => ⟨refl_of _ w.disk, Nat.le_refl _⟩) fun _ =>
      (quiet_answer limit).mono fun _ _ h => h.toConfined
  unfold ask World.within
  split
  · exact hsend none
  · dsimp only
    split
    · exact leads_bind (leads_throw _) fun _ => leads_get_bind fun w => hsend _
    · exact leads_get_bind fun w => hsend _

theorem confined_generate (p : Planner) (prompt : String) :
    Leads (World.Confined B) (p.generate prompt) := by
  refine leads_bind (leads_mapError (confined_ask p prompt)) fun raw => ?_
  exact leads_bind (leads_mapError ((quiet_read _ _).mono fun _ _ h => h.toConfined)) fun _ =>
    leads_pure _

theorem confined_judge (p : Planner) (prompt : String) :
    Leads (World.Confined B) (p.judge prompt) :=
  leads_bind (leads_mapError (confined_ask p prompt)) fun _ => leads_lift _

end Planner

end BrowserFlow
