import BrowserFlow.Proofs.Disk.Inside
import BrowserFlow.Proofs.Execution.Found

/-!
# The files that a run writes

The one thing that puts a file while a document is run is a script whose data is kept, and it puts
one file, under the name that it gives or under one that is made (`DataFolder.save_wrote`). So the
files after a run are those before it with the kept ones put in turn (`files_runFrom`). They all lie
inside the folder for data exactly if every name that a script gives for kept data stays inside
(`written_inside_iff`). Two dots lead out of it.
-/

namespace BrowserFlow

open Effect
open Disk (Inside IsName StaysIn pathOf trail)

theorem World.files_onward : Onward (Same fun w : World => w.disk.files) where
  turned _ := rfl
  passed _ := rfl
  said _ _ _ := rfl

/-! ## Keeping data -/

namespace DataFolder

variable (folder : DataFolder) (instruction : Option String) (data : Value)
  (format filename : Option String)

/-- The name of a file is the one that is given for it, or else one that is made. -/
inductive Named : Option String → String → Prop
  | given {name : String} (h : name ≠ "") : Named (some name) name
  | made {filename : Option String} {name : String} (h : ∀ given ∈ filename, given = "")
      (isName : IsName name) : Named filename name

/-- Puts the file of a path. -/
def putFile (files : Table Content) (p : String × String) : Table Content :=
  files.put (pathOf (trail p.1)) (.text p.2)

/-- What keeping data does to the files: it puts one under the path that it gives, or none. -/
inductive Wrote (folder : DataFolder) (filename : Option String) (files : Table Content) :
    Except Fault String → Table Content → Prop
  | kept {name : String} (text : String) (named : Named filename name) :
      Wrote folder filename files (.ok (pathIn folder.path name))
        (putFile files (pathIn folder.path name, text))
  | failed (f : Fault) : Wrote folder filename files (.error f) files

theorem keeps_files_makeFolder (path : String) :
    Keeps (fun w : World => w.disk.files) (World.onDisk (Disk.makeFolder path)) := by
  intro w
  show ((Disk.makeFolder path).run w.disk).2.files = w.disk.files
  rcases Journal.makeFolder_cases path w.disk with ⟨made, hrun, hmade⟩ | hrun
  · rw [hrun]
    exact hmade
  · rw [hrun]

theorem named_of_nameFor {format : DataFormat} {name : String} {w w' : World}
    (h : (nameFor format filename).run w = (.ok name, w')) : Named filename name := by
  unfold nameFor at h
  split at h
  · exact .made (by rintro given ⟨⟩) (isName_fileName h)
  · exact .made (by rintro given ⟨⟩; rfl) (isName_fileName h)
  · rename_i given hne
    cases h
    exact .given fun hempty => hne (by rw [hempty])

theorem keeps_files_nameFor (format : DataFormat) :
    Keeps (fun w : World => w.disk.files) (nameFor format filename) := by
  have hmade : Keeps (fun w : World => w.disk.files) (fileName format) :=
    keeps_get_bind fun _ => keeps_bind (fun _ => rfl) fun _ => keeps_pure _
  unfold nameFor
  split
  · exact hmade
  · exact hmade
  · exact keeps_pure _

theorem put_wrote (content shown : String) {name : String} (hname : Named filename name)
    (w : World) : Wrote folder filename w.disk.files ((folder.put content shown name).run w).1
      ((folder.put content shown name).run w).2.disk.files := by
  rcases Disk.write_cases w.disk (pathIn folder.path name) (.text content) with
    ⟨k, hk, hrun⟩ | ⟨-, f, -, hrun⟩
  · have hwrite : (World.onDisk (Disk.write (pathIn folder.path name) (.text content))).run w =
        (.ok (), { w with
          disk := { w.disk with files := w.disk.files.put k (.text content) } }) := by
      unfold World.onDisk
      rw [run_zoom, hrun]
    unfold put
    dsimp only
    rw [run_bind_ok hwrite]
    obtain rfl := hk.eq_trail
    split
    · exact .kept content hname
    · exact .kept content hname
  · have hwrite : (World.onDisk (Disk.write (pathIn folder.path name) (.text content))).run w =
        (.error f, w) := by
      unfold World.onDisk
      rw [run_zoom, hrun]
    unfold put
    dsimp only
    rw [run_bind_error hwrite]
    exact .failed f

theorem save_wrote (w : World) : Wrote folder filename w.disk.files
    ((folder.save instruction data format filename).run w).1
    ((folder.save instruction data format filename).run w).2.disk.files := by
  rw [save_eq]
  split
  · rcases hrun : (folder.keep instruction data format filename).run w with ⟨r, u⟩
    unfold keep at hrun
    dsimp only at hrun
    rcases bind_cases hrun with ⟨f, hf, rfl⟩ | ⟨_, v, hv, hname⟩
    · rw [(keeps_files_makeFolder folder.path).of_run hf]
      exact .failed f
    · have hfiles := (keeps_files_makeFolder folder.path).of_run hv
      rcases bind_cases hname with ⟨f, hf, rfl⟩ | ⟨name, t, ht, hput⟩
      · rw [← hfiles, (keeps_files_nameFor filename _).of_run hf]
        exact .failed f
      · rw [← hfiles, ← (keeps_files_nameFor filename _).of_run ht, ← hput]
        exact folder.put_wrote filename _ _ (named_of_nameFor filename ht) t
  · exact .failed noPath

end DataFolder

namespace Execution

open DataFolder (Named Wrote putFile)

variable {e : Executor} {request : RunRequest} {instruction : Option String} {total number : Nat}
  {context : Table Value} {actions : List Action} {w : World}

/-! ## One step -/

theorem Saves.path_eq {a : Action} {x : World} {v v' : Value} {path path' : String}
    (h : Saves e instruction a x v path) (h' : Saves e instruction a x v' path') :
    path' = path := by
  obtain ⟨folder, hfolder, format, filename, u, hreturned, -, hsave⟩ := h
  obtain rfl := h'.value_eq hreturned
  obtain ⟨folder', hfolder', -, hsave'⟩ := (hreturned.saves_iff path').1 h'
  cases hfolder.symm.trans hfolder'
  rw [hsave] at hsave'
  exact (Except.ok.inj hsave').symm

/-- Data is kept in a folder under the name that the action gives, or under one that is made. -/
theorem Saves.named {a : Action} {x : World} {v : Value} {path : String}
    (h : Saves e instruction a x v path) : ∃ folder ∈ e.data, ∃ name,
      Named a.step.filename? name ∧ path = pathIn folder.path name := by
  obtain ⟨folder, hfolder, format, filename, u, ⟨script, hstep, -⟩, -, hsave⟩ := h
  have hwrote := folder.save_wrote instruction v format filename u
  rw [hsave] at hwrote
  generalize ((folder.save instruction v format filename).run u).2.disk.files = files at hwrote
  cases hwrote with
  | @kept name text named =>
    refine ⟨folder, hfolder, name, ?_, rfl⟩
    rw [hstep]
    exact named

/-- What an action does to the files: some are put, which are those of the paths under which it
keeps data. -/
def Puts (files files' : Table Content) (kept : String → Prop) : Prop :=
  ∃ puts : List (String × String), files' = puts.foldl putFile files ∧
    ∀ path, path ∈ puts.map Prod.fst ↔ kept path

theorem puts_nothing {files : Table Content} {kept : String → Prop} (h : ∀ path, ¬ kept path) :
    Puts files files kept :=
  ⟨[], rfl, fun path => iff_of_false (by simp) (h path)⟩

theorem Puts.append {files files' files'' : Table Content} {kept kept' : String → Prop}
    (h : Puts files files' kept) (h' : Puts files' files'' kept') :
    Puts files files'' fun path => kept path ∨ kept' path := by
  obtain ⟨puts, rfl, hputs⟩ := h
  obtain ⟨puts', rfl, hputs'⟩ := h'
  refine ⟨puts ++ puts', (List.foldl_append ..).symm, fun path => ?_⟩
  rw [List.map_append, List.mem_append, hputs, hputs']

theorem Puts.congr {files files' : Table Content} {kept kept' : String → Prop}
    (h : Puts files files' kept) (heq : ∀ path, kept path ↔ kept' path) :
    Puts files files' kept' := by
  obtain ⟨puts, hfiles, hputs⟩ := h
  exact ⟨puts, hfiles, fun path => (hputs path).trans (heq path)⟩

theorem keeps_files_evaluation (e : Executor) (script : String) :
    Keeps (fun w : World => w.disk.files) (evaluation e script) := by
  have hcall : Keeps (fun w : World => w.disk.files) (reading e (.evaluate script none)) :=
    keeps_iff.2 (Onward.leads_within fun limit => World.files_onward.leads_call limit _)
  unfold evaluation
  split
  · exact keeps_bind (keeps_throw _) fun _ => hcall
  · exact hcall

/-- What is made of a value that a script returned puts the file of the path under which it is
kept. -/
theorem puts_returned {a : Action} {x u : World} {format filename : Option String} {v : Value}
    (h : Returned e a x format filename v u) (instruction : Option String) :
    Puts u.disk.files ((act e instruction a).run x).2.disk.files
      fun path => ∃ v, Saves e instruction a x v path := by
  have hkept : ∀ path, (∃ v', Saves e instruction a x v' path) ↔ ∃ folder ∈ e.data,
      Extraction.isData v = true ∧
        ((folder.save instruction v format filename).run u).1 = .ok path := by
    intro path
    rw [← h.saves_iff]
    exact ⟨fun ⟨v', hsaves⟩ => hsaves.value_eq h ▸ hsaves, fun hsaves => ⟨v, hsaves⟩⟩
  have hwrote : ∀ folder : DataFolder, Wrote folder filename u.disk.files
      ((folder.save instruction v format filename).run u).1
      ((folder.save instruction v format filename).run u).2.disk.files :=
    fun folder => folder.save_wrote instruction v format filename u
  have hsettled := h.settled instruction
  generalize (act e instruction a).run x = q at hsettled
  cases hsettled with
  | told hnone =>
    refine puts_nothing fun path hsaves => ?_
    obtain ⟨folder, hfolder, hdata, -⟩ := (hkept path).1 hsaves
    rw [hnone folder hfolder] at hdata
    cases hdata
  | @saved folder path u' hfolder hdata hsave =>
    have hput := hwrote folder
    rw [hsave] at hput
    dsimp only at hput ⊢
    generalize u'.disk.files = files at hput ⊢
    cases hput with
    | kept text named =>
      refine ⟨[(_, text)], rfl, fun path => ?_⟩
      refine Iff.trans ?_ (hkept path).symm
      rw [List.map_singleton, List.mem_singleton]
      constructor
      · rintro rfl
        exact ⟨folder, hfolder, hdata, congrArg Prod.fst hsave⟩
      · rintro ⟨folder', hfolder', -, hsave'⟩
        cases hfolder.symm.trans hfolder'
        rw [hsave] at hsave'
        exact (Except.ok.inj hsave').symm
  | @lost folder f u' hfolder hdata hsave hdisk =>
    have hput := hwrote folder
    rw [hsave] at hput
    dsimp only at hput ⊢
    generalize u'.disk.files = files at hput ⊢
    cases hput with
    | failed =>
      refine puts_nothing fun path hsaves => ?_
      obtain ⟨folder', hfolder', -, hsave'⟩ := (hkept path).1 hsaves
      cases hfolder.symm.trans hfolder'
      rw [hsave] at hsave'
      cases hsave'
  | @refused folder hfolder hdata haccepts =>
    refine puts_nothing fun path hsaves => ?_
    obtain ⟨folder', hfolder', -, hsave'⟩ := (hkept path).1 hsaves
    cases hfolder.symm.trans hfolder'
    rw [DataFolder.save_eq, if_neg (by rw [haccepts]; decide)] at hsave'
    cases hsave'

theorem puts_act (e : Executor) (instruction : Option String) (a : Action) (x : World) :
    Puts x.disk.files ((act e instruction a).run x).2.disk.files
      fun path => ∃ v, Saves e instruction a x v path := by
  by_cases hreturns : ∃ format filename v u, Returned e a x format filename v u
  · obtain ⟨format, filename, v, u, hreturned⟩ := hreturns
    have hu : u.disk.files = x.disk.files := by
      obtain ⟨script, -, hrun⟩ := hreturned
      exact (keeps_files_evaluation e script).of_run hrun
    rw [← hu]
    exact puts_returned hreturned instruction
  · have hnone : ∀ path, ¬ ∃ v, Saves e instruction a x v path := by
      rintro path ⟨v, folder, -, format, filename, u, hreturned, -⟩
      exact hreturns ⟨format, filename, v, u, hreturned⟩
    have hsame : ((act e instruction a).run x).2.disk.files = x.disk.files := by
      by_cases hscript : ∃ script format filename, a.step = .evaluate script format filename
      · obtain ⟨script, format, filename, hstep⟩ := hscript
        rw [act_evaluate hstep]
        rcases hrun : (evaluation e script).run x with ⟨f | v, u⟩
        · rw [run_bind_error hrun]
          exact (keeps_files_evaluation e script).of_run hrun
        · exact absurd ⟨format, filename, v, u, script, hstep, hrun⟩ hreturns
      · exact World.files_onward.leads_act (fun _ script format filename hstep =>
          absurd ⟨script, format, filename, hstep⟩ hscript) x
    rw [hsame]
    exact puts_nothing hnone

/-- An action that is taken keeps data under a path. An action that nobody handles is not. -/
def Deposits (e : Executor) (instruction : Option String) (a : Action) (x : World) (path : String) :
    Prop :=
  (e.registry.get? a.kind).isSome ∧ ∃ v, Saves e instruction a x v path

theorem puts_report (e : Executor) (instruction : Option String) (total number : Nat) (a : Action)
    (x : World) : Puts x.disk.files ((report e instruction total number a).run x).2.disk.files
      (Deposits e instruction a x) := by
  have htake : ((report e instruction total number a).run x).2.disk =
      ((take e instruction number a).run x).2.disk := by
    rw [report_eq]
    generalize (take e instruction number a).run x = taken
    obtain ⟨r, u⟩ := taken
    cases r with
    | ok o => rfl
    | error f => cases f <;> rfl
  rw [htake]
  by_cases hhandled : (e.registry.get? a.kind).isSome
  · have hact := puts_act e instruction a x
    rw [take_eq hhandled]
    generalize (act e instruction a).run x = done at hact
    exact hact.congr fun path => (and_iff_right hhandled).symm
  · rw [take_unhandled hhandled]
    exact puts_nothing fun path hdeposits => hhandled hdeposits.1

/-! ## All steps -/

/-- A run keeps data under a path. -/
def Deposited (e : Executor) (request : RunRequest) (total number : Nat) (context : Table Value)
    (actions : List Action) (w : World) (path : String) : Prop :=
  ∃ a x, Takes e request total number context actions w a x ∧
    Deposits e request.instruction a x path

theorem puts_runFrom (e : Executor) (request : RunRequest) (total number : Nat)
    (context : Table Value) (actions : List Action) (w : World) :
    Puts w.disk.files (runFrom e request total number context actions w).2.disk.files
      (Deposited e request total number context actions w) := by
  induction actions generalizing number context w with
  | nil => exact puts_nothing fun path ⟨a, x, htakes, _⟩ => not_takes_nil htakes
  | cons a rest ih =>
    have hfirst := puts_report e request.instruction total number (fill request context a) w
    rcases hrep : (report e request.instruction total number (fill request context a)).run w with
      ⟨f | t, u⟩
    · rw [hrep] at hfirst
      rw [runFrom_cons_error hrep]
      refine hfirst.congr fun path => ?_
      simp only [Deposited, takes_cons_error_iff hrep, and_assoc, exists_and_left, exists_eq_left]
    · rw [hrep] at hfirst
      rcases goesOn_or_failed request t with hgoesOn | ⟨hstrict, f, hfailure⟩
      · rw [runFrom_cons_ok hgoesOn hrep]
        have hpause : (pause e total number u).disk = u.disk := by
          unfold pause
          split <;> rfl
        have hlater := ih (number + 1) (keep context t.stored) (pause e total number u)
        rw [hpause] at hlater
        refine (hfirst.append hlater).congr fun path => ?_
        simp only [Deposited, takes_cons_iff hrep hgoesOn, or_and_right, exists_or, and_assoc,
          exists_and_left, exists_eq_left]
      · rw [runFrom_cons_failed hstrict hfailure hrep]
        have hfailed : t.failure ≠ none := by
          rw [hfailure]
          exact Option.some_ne_none f
        refine hfirst.congr fun path => ?_
        simp only [Deposited, takes_cons_failed_iff hrep hstrict hfailed, and_assoc,
          exists_and_left, exists_eq_left]

/-- The name that a script gives for data leads out of the folder, if it does, and a name that is
made never does. -/
theorem Saves.inside_iff {a : Action} {x : World} {v : Value} {path : String} {folder : DataFolder}
    (hfolder : folder ∈ e.data) (h : Saves e instruction a x v path) :
    Inside folder.path path ↔
      ∀ name ∈ a.step.filename?, name ≠ "" → StaysIn folder.path name := by
  obtain ⟨folder', hfolder', name, hnamed, rfl⟩ := h.named
  cases hfolder.symm.trans hfolder'
  generalize a.step.filename? = filename at hnamed
  cases hnamed with
  | given hne =>
    rw [Disk.inside_pathIn_iff]
    constructor
    · rintro hstays _ ⟨⟩ -
      exact hstays
    · intro hall
      exact hall name rfl hne
  | made hnone isName =>
    refine iff_of_true (Disk.inside_of_isName isName folder.path) fun given hgiven hne => ?_
    exact absurd (hnone given hgiven) hne

/-- The files after a run of a document are those before it with others put, namely those of the
paths under which its scripts keep data. All of these are inside the folder for data exactly if each
name that a script gives for what it keeps, with its placeholders filled in, stays inside. -/
theorem written_inside_iff (e : Executor) (request : RunRequest) (context : Table Value)
    (actions : List Action) (w : World) {folder : DataFolder} (hfolder : folder ∈ e.data) :
    ∃ puts : List (String × String),
      (run e request context actions w).2.disk.files = puts.foldl putFile w.disk.files ∧
      (∀ path, path ∈ puts.map Prod.fst ↔
        Deposited e request actions.length 1 context actions w path) ∧
      ((∀ path ∈ puts.map Prod.fst, Inside folder.path path) ↔
        ∀ a x path, Takes e request actions.length 1 context actions w a x →
          Deposits e request.instruction a x path →
            ∀ name ∈ a.step.filename?, name ≠ "" → StaysIn folder.path name) := by
  obtain ⟨puts, hfiles, hputs⟩ := puts_runFrom e request actions.length 1 context actions w
  refine ⟨puts, ?_, hputs, ?_⟩
  · rw [world_run]
    exact hfiles
  · constructor
    · rintro hall a x path htakes hdeposits
      obtain ⟨v, hsaves⟩ := hdeposits.2
      exact (hsaves.inside_iff hfolder).1 (hall path ((hputs path).2 ⟨a, x, htakes, hdeposits⟩))
    · intro hall path hpath
      obtain ⟨a, x, htakes, hdeposits⟩ := (hputs path).1 hpath
      obtain ⟨v, hsaves⟩ := hdeposits.2
      exact (hsaves.inside_iff hfolder).2 (hall a x path htakes hdeposits)

/-- Data that is kept under a plain name is in the folder. -/
theorem written_inside_iff_plain : ∃ puts : List (String × String),
    (run silently {} [] [keptAs "n"] listing).2.disk.files = puts.foldl putFile [] ∧
      (run silently {} [] [keptAs "n"] listing).2.disk.files.keys = ["d/n"] ∧
        ∀ path ∈ puts.map Prod.fst, Inside "d" path := by
  obtain ⟨puts, hfiles, -, hinside⟩ :=
    written_inside_iff silently {} [] [keptAs "n"] listing (Option.mem_some_self _)
  refine ⟨puts, hfiles, by decide +kernel, hinside.2 fun a x path htakes _ name hname _ => ?_⟩
  cases htakes with
  | here =>
    have hfilled : Template.fillText (Table.overlay [] []) "n" = "n" :=
      Template.fillText_of_not_mem (by decide)
    obtain rfl : "n" = name := hfilled.symm.trans (Option.some.inj hname)
    exact (Disk.inside_pathIn_iff "d" "n").1 (Disk.inside_of_isName (by decide) "d")
  | later _ _ htakes => cases htakes

/-- A name with two dots leads out of the folder. -/
theorem not_inside_climbing : ¬ ∀ (e : Executor) (folder : DataFolder) (actions : List Action)
    (w : World) (key : String), folder ∈ e.data →
      (run e {} [] actions w).2.disk.files.get? key ≠ w.disk.files.get? key →
        ∃ path, Inside folder.path path ∧ key = pathOf (trail path) := by
  intro h
  have hput : (run silently {} [] [keptAs "../x"] listing).2.disk.files.keys = ["x"] := by
    decide +kernel
  have hchanged : (run silently {} [] [keptAs "../x"] listing).2.disk.files.get? "x" ≠
      listing.disk.files.get? "x" := by
    intro hsame
    have hmem : "x" ∈ (run silently {} [] [keptAs "../x"] listing).2.disk.files.keys := by
      rw [hput]
      exact List.mem_singleton_self _
    rw [Table.mem_keys_iff, hsame] at hmem
    cases hmem
  obtain ⟨path, ⟨more, hmore, -, htrail⟩, hkey⟩ :=
    h silently _ [keptAs "../x"] listing "x" (Option.mem_some_self _) hchanged
  have hfolder : trail "d" = ["d"] := by decide
  have hbegins : pathOf (more ++ ["d"]) = "d" ++ "/" ++ "/".intercalate more.reverse := by
    unfold pathOf
    rw [List.reverse_append, List.reverse_singleton,
      String.intercalate_append_of_ne_nil (List.cons_ne_nil _ _) (by simpa using hmore),
      String.intercalate_singleton]
  rw [htrail, hfolder, hbegins] at hkey
  have hchars := congrArg String.toList hkey
  simp at hchars

end Execution

end BrowserFlow
