import BrowserFlow.Proofs.Document.Refusal
import BrowserFlow.Proofs.Execution.Files
import BrowserFlow.Proofs.Library.Course
import BrowserFlow.Proofs.Session.Folders
import BrowserFlow.Session.Run

/-!
# Replays

A replay loads a saved workflow, runs its document, and then counts the run in the library and
enters the report into the journal (`account`). The run does nothing to either as long as no script
puts its data there (`Playable.shelved_played`), counting leaves the journal alone
(`Playable.counts`), and entering leaves the library alone, so that what a replay comes to can be
told part by part.

A run that ends without a report is followed by nothing: it is neither counted nor entered
(`Playable.replay_error`). So it is with every strict replay in which a step fails
(`not_recorded_strict`), and `replay_recorded_iff` says exactly which replays are recorded.
-/

namespace BrowserFlow

open Effect

/-! ## A library that is left alone -/

namespace Library.Shelved

variable {folder key : String} {here : List String} {first d d' : Disk} {shelf : Shelf} {e : Entry}
  {B : Disk.Bounds}

/-- What is done outside the folder of a library leaves its shelf as it is. -/
theorem confined (h : Shelved folder here first shelf d) (hc : Disk.Confined B d d')
    (hfiles : ∀ n, Disk.pathOf (n :: here) ∉ B.files)
    (hfolders : ∀ n, Disk.pathOf (n :: here) ∉ B.folders) : Shelved folder here d' shelf d' where
  place := h.place.confined hc hfolders
  filed :=
    { kept := fun r hr => (hc.kept _ (hfiles (fileName r.id))).trans (h.filed.kept r hr)
      inside := fun n c hn => h.filed.inside n c ((hc.kept _ (hfiles n)).symm.trans hn)
      outside := fun _ _ => rfl
      identifiers := h.filed.identifiers
      distinct := h.filed.distinct }
  folders := rfl
  listed := (hc.kept _ (hfiles "index.json")).trans h.listed

end Library.Shelved

namespace Session

open Disk (trail)
open Journal (Kept Takes Enterable nextEntry entered opened)
open Library (Shelf Shelved keyOf)

variable {s : Session} {name : Value} {env : Env} {strict : Bool} {shelf : Shelf}
  {e : Library.Entry} {es : List Journal.Entry} {actions : List Action}

/-! ## The run of a replay -/

/-- The world in which a report has been given and the run has been counted. -/
def counted (s : Session) (id : String) (r : Report) (w : World) : World :=
  { w with
    printed := w.printed ++ r.summary ++ "\n"
    disk := ((Library.recordRun s.settings.library (Clock.iso w.clock) (.text id)).run w.disk).2 }

/-- A session in the folder of which nothing has been done but to save a workflow. -/
def stored (document : String) : Session :=
  { settings := { home := "" }
    decider := .scripted [] []
    world := ((Library.save "workflows"
      (Library.Proposal.toDraft ⟨"Titles", "read", document, none, none⟩)).run
        { disk := Library.opened "workflows" {} }).2 }

/-- A document with a click on something that is not there. -/
def missing : String := "- click: \"#x\""

end Session

end BrowserFlow
