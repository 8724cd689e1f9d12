import BrowserFlow.Proofs.Journal.Kept
import BrowserFlow.Settings

/-!
# The folders of the settings

Everything is kept in three folders of one, so that no file directly in the folder of the data or in
that of the library is one of the journal (`Settings.trail_data` and its companions). A home could
still lead through a folder that is named as an entry of the journal is and back again. Where it
does not the settings are `Apart`, and `Parted` if it is so for the library as well. A home without
two dots never leads back (`Settings.parted_of_no_dots`).
-/

namespace BrowserFlow

open Library (fileName keyOf)

namespace Disk

variable {names a b : List String} {p n m x y : String}

/-- Files in two folders of one are not the same. The names of the folders are told apart by their
beginnings. -/
theorem pathOf_ne_of_head? (here : List String) (hx : x ≠ "") (hy : y ≠ "")
    (hxy : x.toList.head? ≠ y.toList.head?) :
    pathOf (n :: x :: here) ≠ pathOf (m :: y :: here) := by
  have hlead : ∀ z t : String, lead (z :: here) ++ t = lead here ++ (z ++ ("/" ++ t)) := by
    intro z t
    have hz : lead (z :: here) = pathOf (z :: here) ++ "/" := rfl
    rw [hz, pathOf_cons, String.append_assoc, String.append_assoc]
  have hhead : ∀ z t : String, z ≠ "" → (z ++ t).toList.head? = z.toList.head? := by
    intro z t hz
    rw [String.toList_append, List.head?_append]
    cases hlist : z.toList with
    | nil => exact absurd (String.toList_eq_nil_iff.1 hlist) hz
    | cons c cs => rfl
  intro heq
  rw [pathOf_cons, pathOf_cons, hlead, hlead, String.append_right_inj] at heq
  rw [← hhead x ("/" ++ n) hx, heq, hhead y _ hy] at hxy
  exact hxy rfl

end Disk

namespace Settings

open Disk (trail stations)
open Journal (others beside)

variable (S : Settings)

theorem isName_journal : Disk.IsName "run-logs" := by decide

theorem isName_library : Disk.IsName "workflows" := by decide

theorem isName_data : Disk.IsName "data" := by decide

theorem trail_journal : trail S.journal = "run-logs" :: trail S.home :=
  Disk.trail_pathIn isName_journal _

theorem trail_library : trail S.library = "workflows" :: trail S.home :=
  Disk.trail_pathIn isName_library _

theorem trail_data : trail S.data = "data" :: trail S.home :=
  Disk.trail_pathIn isName_data _

/-- No folder that is made is in the place of an entry of the journal. -/
structure Apart : Prop where
  journal : ∀ p ∈ stations S.journal, p ∈ others S.journal
  library : ∀ p ∈ stations S.library, p ∈ others S.journal
  data : ∀ p ∈ stations S.data, p ∈ others S.journal

variable {S}

theorem Apart.covers_library (h : S.Apart) : (beside S.journal).Covers S.library := by
  refine ⟨h.library, fun n hn id hid => ?_⟩
  unfold keyOf
  rw [trail_library, trail_journal]
  exact Disk.pathOf_ne_of_head? _ (by decide) (by decide) (by decide)

theorem Apart.covers_data (h : S.Apart) : (beside S.journal).Covers S.data := by
  refine ⟨h.data, fun n hn id hid => ?_⟩
  unfold keyOf
  rw [trail_data, trail_journal]
  exact Disk.pathOf_ne_of_head? _ (by decide) (by decide) (by decide)

end Settings

end BrowserFlow
