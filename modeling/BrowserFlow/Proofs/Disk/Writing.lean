import BrowserFlow.Proofs.Disk.Place
import Mathlib.Tactic.Tauto

/-!
# Writing on any disk

Writing puts the file that can be opened, and where none can be opened the disk is left as it is and
a fault of the disk comes of it (`write_cases`). A JSON file is emptied before it is known whether
the value has a JSON text, so that a value without one leaves an empty file behind
(`writeJson_cases`).
-/

namespace BrowserFlow

namespace Table

variable {α : Type}

theorem mem_keys_put {t : Table α} {key k : String} {value : α} :
    k ∈ (t.put key value).keys ↔ k = key ∨ k ∈ t.keys := by
  unfold keys
  induction t with
  | nil => simp [put]
  | cons e rest ih =>
    obtain ⟨k', v⟩ := e
    by_cases h : k' = key
    · simp [put, h]
    · simp only [put, if_neg h, List.map_cons, List.mem_cons, ih]
      tauto

end Table

namespace Disk

variable {d : Disk}

/-- The text of a file. -/
def textAt (d : Disk) (key : String) : Option String :=
  (d.files.get? key).map Content.toText

/-- Writing puts the file that is opened, or fails and leaves the disk. -/
theorem write_cases (d : Disk) (p : String) (c : Content) :
    (∃ k, Opens p k d ∧ (write p c).run d = (.ok (), { d with files := d.files.put k c })) ∨
      (∀ k, ¬ Opens p k d) ∧ ∃ f, f.ofDisk = true ∧ (write p c).run d = (.error f, d) := by
  by_cases hopens : ∃ k, Opens p k d
  · obtain ⟨k, hk⟩ := hopens
    exact Or.inl ⟨k, hk, hk.run_write c⟩
  refine Or.inr ⟨fun k hk => hopens ⟨k, hk⟩, ?_⟩
  unfold write
  rw [Effect.run_of]
  cases hnames : d.names? p with
  | none => exact ⟨.noFile, rfl, rfl⟩
  | some names =>
    dsimp only
    split
    · exact ⟨.folder, rfl, rfl⟩
    · rename_i hfree
      split
      · exact ⟨.noFile, rfl, rfl⟩
      · rename_i haround
        have hplace : endsInName p = true ∧ d.leadsToFolder (names.drop 1) = true := by
          simpa using haround
        exact absurd ⟨_, hplace.1, names, hnames, by simpa using hfree, hplace.2, rfl⟩ hopens

/-- Writing JSON puts the file that is opened, be it emptied only, or fails and leaves the disk. -/
theorem writeJson_cases (d : Disk) (foreign : Bool) (p : String) (v : Value) :
    (∃ k, Opens p k d ∧ (writeJson foreign p v).run d =
        (if Json.writable foreign v then .ok () else .error notSerializable,
          { d with files := d.files.put k (jsonLeft foreign v) })) ∨
      (∀ k, ¬ Opens p k d) ∧
        ∃ f, f.ofDisk = true ∧ (writeJson foreign p v).run d = (.error f, d) := by
  rcases write_cases d p (.text "") with ⟨k, hk, -⟩ | ⟨hnone, f, hf, hrun⟩
  · exact Or.inl ⟨k, hk, hk.run_writeJson foreign v⟩
  · refine Or.inr ⟨hnone, f, hf, ?_⟩
    unfold writeJson
    rw [Effect.run_bind_error hrun]

/-- Reading leaves the disk. -/
theorem keeps_read {γ : Type} {view : Disk → γ} (p : String) : Effect.Keeps view (read p) := by
  intro d
  rw [run_read]

theorem run_remove (d : Disk) (p : String) :
    (remove p).run d =
      if d.isFolder p then (.error .folder, d)
      else match d.resolve? p with
        | none => (.error .noFile, d)
        | some k =>
          if (d.files.get? k).isSome then (.ok (), { d with files := d.files.erase k })
          else (.error .noFile, d) := by
  unfold remove
  rw [Effect.run_bind, run_read]
  cases d.isFolder p with
  | true => rfl
  | false =>
    unfold file?
    cases hresolve : d.resolve? p with
    | none => rfl
    | some k =>
      cases hget : d.files.get? k with
      | none => simp [hget]
      | some c => simp [hget, hresolve]

end Disk

end BrowserFlow
