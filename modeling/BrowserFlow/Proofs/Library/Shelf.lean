import BrowserFlow.Proofs.Disk.Place
import BrowserFlow.Proofs.Library.Record
import Mathlib.Data.List.Nodup

/-!
# What a library holds

A shelf lists the workflows of a library in the order in which they were saved. Each entry is the
record in the file of the workflow and the number of runs that the index tells of it, which is all
in which the index can lag behind (`Entry.item`).

`Shelved` says that a disk holds a shelf: the folder is in its place, each record is in its file and
there is nothing else in the folder but the index (`Filed`), which lists the entries. Outside the
folder the disk is what it was at first. On such a disk the library need not be prepared any more
(`Shelved.run_prepare`).
-/

namespace BrowserFlow

namespace Library

/-! ## Shelves -/

/-- A workflow of the library, and the number of runs of which the index tells. -/
structure Entry where
  record : Record
  told : Nat
  deriving DecidableEq

/-- The workflows of a library, in the order in which they were saved. -/
abbrev Shelf := List Entry

def Entry.id (e : Entry) : String := e.record.id

/-- The item of the index. -/
def Entry.item (e : Entry) : Value :=
  .record { e.record with executions := e.told }.toWorkflow.indexItem

namespace Shelf

/-- The entry with an identifier. -/
def get? (shelf : Shelf) (id : String) : Option Entry :=
  shelf.find? fun e => e.id = id

/-- The first entry with a name, whatever the case of its letters. -/
def named? (shelf : Shelf) (name : String) : Option Entry :=
  shelf.find? fun e => Text.lower e.record.name == Text.lower name

/-- The shelf with the entry of an identifier changed. -/
def alter (id : String) (f : Entry → Entry) (shelf : Shelf) : Shelf :=
  shelf.map fun e => if e.id = id then f e else e

/-- The shelf without the entry of an identifier. -/
def without (id : String) (shelf : Shelf) : Shelf :=
  shelf.filter fun e => e.id ≠ id

def ids (shelf : Shelf) : List String :=
  shelf.map Entry.id

theorem get?_cons (e : Entry) (shelf : Shelf) (id : String) :
    Shelf.get? (e :: shelf) id = if e.id = id then some e else shelf.get? id := by
  unfold get?
  by_cases h : e.id = id
  · simp [h]
  · simp [h]

/-- What is found of a list of identifiers, if the shelf is in its order. -/
theorem filterMap_get? {ids : List String} {shelf : Shelf} (h : shelf.ids.Sublist ids)
    (hnodup : ids.Nodup) : ids.filterMap shelf.get? = shelf := by
  induction ids generalizing shelf with
  | nil => rw [List.filterMap_nil, List.map_eq_nil_iff.1 (List.sublist_nil.1 h)]
  | cons id ids ih =>
    obtain ⟨hid, hnodup⟩ := List.nodup_cons.1 hnodup
    cases shelf with
    | nil => exact List.filterMap_eq_nil_iff.2 fun _ _ => rfl
    | cons e rest =>
      by_cases heq : e.id = id
      · -- the first entry is found, and no later identifier finds it again
        have hrest : (Shelf.ids rest).Sublist ids := by
          have h' : (e.id :: Shelf.ids rest).Sublist (id :: ids) := h
          rw [heq] at h'
          exact List.cons_sublist_cons.1 h'
        have hcongr : ids.filterMap (Shelf.get? (e :: rest)) = ids.filterMap (Shelf.get? rest) := by
          refine List.filterMap_congr fun i hi => ?_
          rw [get?_cons, if_neg]
          rw [heq]
          rintro rfl
          exact hid hi
        rw [List.filterMap_cons_some (by rw [get?_cons, if_pos heq]), hcongr, ih hrest hnodup]
      · have hskip : (e.id :: Shelf.ids rest).Sublist ids := by
          rcases List.sublist_cons_iff.1 h with hskip | ⟨r, hr, -⟩
          · exact hskip
          · exact absurd (List.cons.inj hr).1 heq
        have hnone : Shelf.get? (e :: rest) id = none := by
          refine List.find?_eq_none.2 fun e' he' => ?_
          rw [decide_eq_true_iff]
          rintro rfl
          exact hid (hskip.subset (List.mem_map_of_mem he'))
        rw [List.filterMap_cons_none hnone]
        exact ih hskip hnodup

end Shelf

/-- An identifier names a file in the folder of the library, and that is not the index. -/
structure IsIdentifier (id : String) : Prop where
  no_slash : '/' ∉ id.toList
  ne_index : id ≠ "index"

instance (id : String) : Decidable (IsIdentifier id) :=
  decidable_of_iff ('/' ∉ id.toList ∧ id ≠ "index")
    ⟨fun h => ⟨h.1, h.2⟩, fun h => ⟨h.no_slash, h.ne_index⟩⟩

/-- The file of an identifier. -/
def fileName (id : String) : String :=
  id ++ ".json"

theorem fileName_inj {id other : String} : fileName id = fileName other ↔ id = other :=
  String.append_left_inj _

theorem isName_fileName {id : String} (h : '/' ∉ id.toList) : Disk.IsName (fileName id) := by
  have hlength : 5 ≤ (fileName id).length := by
    show 5 ≤ (id ++ ".json").length
    rw [String.length_append]
    exact Nat.le_add_left 5 id.length
  refine ⟨?_, ?_, ?_, ?_⟩
  · intro hempty
    rw [hempty] at hlength
    exact absurd hlength (by decide)
  · intro hdot
    rw [hdot] at hlength
    exact absurd hlength (by decide)
  · intro hdots
    rw [hdots] at hlength
    exact absurd hlength (by decide)
  · show '/' ∉ (id ++ ".json").toList
    rw [String.toList_append, List.mem_append, not_or]
    exact ⟨h, by decide⟩

theorem IsIdentifier.isName {id : String} (h : IsIdentifier id) : Disk.IsName (fileName id) :=
  isName_fileName h.no_slash

theorem isName_index : Disk.IsName "index.json" :=
  @isName_fileName "index" (by decide)

theorem IsIdentifier.fileName_ne {id : String} (h : IsIdentifier id) :
    fileName id ≠ "index.json" :=
  fun heq => h.ne_index ((@fileName_inj id "index").1 heq)

/-! ## Records in files -/

/-- The key of the file of an identifier. -/
def keyOf (here : List String) (id : String) : String :=
  Disk.pathOf (fileName id :: here)

/-- The key of the file of the index. -/
def indexKey (here : List String) : String :=
  Disk.pathOf ("index.json" :: here)

theorem keyOf_inj {here : List String} {id other : String} :
    keyOf here id = keyOf here other ↔ id = other :=
  Disk.pathOf_cons_inj.trans fileName_inj

theorem IsIdentifier.keyOf_ne {id : String} (h : IsIdentifier id) (here : List String) :
    keyOf here id ≠ indexKey here :=
  fun heq => h.fileName_ne (Disk.pathOf_cons_inj.1 heq)

/-- What the file of a record holds. -/
def Record.content (r : Record) : Content :=
  .json r.toWorkflow.toValue

/-- Each of some records is in its file, next to these files there may be an index and nothing else,
and outside the folder the files are what they were at first. -/
structure Filed (first : Table Content) (here : List String) (records : List Record)
    (files : Table Content) : Prop where
  kept : ∀ r ∈ records, files.get? (keyOf here r.id) = some r.content
  inside : ∀ n c, files.get? (Disk.pathOf (n :: here)) = some c →
    n = "index.json" ∨ ∃ r ∈ records, n = fileName r.id
  outside : ∀ k, (∀ n, Disk.pathOf (n :: here) ≠ k) → files.get? k = first.get? k
  identifiers : ∀ r ∈ records, IsIdentifier r.id
  distinct : (records.map Record.id).Nodup

namespace Filed

variable {first files : Table Content} {here : List String} {records others : List Record}

/-- There is no file of an identifier that no record has. -/
theorem get?_keyOf (h : Filed first here records files) {id : String} (hid : IsIdentifier id)
    (hnone : ∀ r ∈ records, r.id ≠ id) : files.get? (keyOf here id) = none := by
  cases hget : files.get? (keyOf here id) with
  | none => rfl
  | some c =>
    rcases h.inside _ c hget with hindex | ⟨r, hr, hname⟩
    · exact absurd hindex hid.fileName_ne
    · exact absurd (fileName_inj.1 hname).symm (hnone r hr)

/-- A record is put into its file, be it new or in the place of an earlier one. -/
theorem put (h : Filed first here records files) {r : Record} (hid : IsIdentifier r.id)
    (hmem : ∀ x, x ∈ others ↔ x = r ∨ x ∈ records ∧ x.id ≠ r.id)
    (hdistinct : (others.map Record.id).Nodup) :
    Filed first here others (files.put (keyOf here r.id) r.content) where
  kept := by
    intro x hx
    rw [Table.get?_put]
    rcases (hmem x).1 hx with rfl | ⟨hold, hne⟩
    · rw [if_pos rfl]
    · rw [if_neg fun heq => hne (keyOf_inj.1 heq).symm]
      exact h.kept x hold
  inside := by
    intro n c hc
    rw [Table.get?_put] at hc
    split at hc
    · rename_i hkey
      exact Or.inr ⟨r, (hmem r).2 (Or.inl rfl), (Disk.pathOf_cons_inj.1 hkey).symm⟩
    · rename_i hkey
      rcases h.inside n c hc with hindex | ⟨x, hx, hname⟩
      · exact Or.inl hindex
      · have hne : x.id ≠ r.id := fun heq => hkey (by rw [hname, heq]; rfl)
        exact Or.inr ⟨x, (hmem x).2 (Or.inr ⟨hx, hne⟩), hname⟩
  outside := by
    intro k hk
    have hne : keyOf here r.id ≠ k := hk (fileName r.id)
    rw [Table.get?_put, if_neg hne]
    exact h.outside k hk
  identifiers := by
    intro x hx
    rcases (hmem x).1 hx with rfl | ⟨hold, -⟩
    · exact hid
    · exact h.identifiers x hold
  distinct := hdistinct

/-- The file of a record is removed. -/
theorem erase (h : Filed first here records files) {id : String}
    (hmem : ∀ x, x ∈ others ↔ x ∈ records ∧ x.id ≠ id)
    (hdistinct : (others.map Record.id).Nodup) :
    Filed first here others (files.erase (keyOf here id)) where
  kept := by
    intro x hx
    obtain ⟨hold, hne⟩ := (hmem x).1 hx
    rw [Table.get?_erase, if_neg fun heq => hne (keyOf_inj.1 heq)]
    exact h.kept x hold
  inside := by
    intro n c hc
    rw [Table.get?_erase] at hc
    split at hc
    · cases hc
    · rename_i hkey
      rcases h.inside n c hc with hindex | ⟨x, hx, hname⟩
      · exact Or.inl hindex
      · have hne : x.id ≠ id := fun heq => hkey (by rw [hname, heq]; rfl)
        exact Or.inr ⟨x, (hmem x).2 ⟨hx, hne⟩, hname⟩
  outside := by
    intro k hk
    rw [Table.get?_erase, if_neg fun heq => hk (fileName id) heq.symm]
    exact h.outside k hk
  identifiers := fun x hx => h.identifiers x ((hmem x).1 hx).1
  distinct := hdistinct

theorem put_index (h : Filed first here records files) (content : Content) :
    Filed first here records (files.put (indexKey here) content) where
  kept := by
    intro r hr
    rw [Table.get?_put, if_neg fun heq => (h.identifiers r hr).keyOf_ne here heq.symm]
    exact h.kept r hr
  inside := by
    intro n c hc
    rw [Table.get?_put] at hc
    split at hc
    · rename_i hkey
      exact Or.inl (Disk.pathOf_cons_inj.1 hkey).symm
    · exact h.inside n c hc
  outside := by
    intro k hk
    have hne : indexKey here ≠ k := hk "index.json"
    rw [Table.get?_put, if_neg hne]
    exact h.outside k hk
  identifiers := h.identifiers
  distinct := h.distinct

end Filed

/-! ## Disks that hold a shelf -/

/-- A disk on which the folder of the library has the files of some records, and on which all else
is as it was on the first disk. -/
structure Stocked (folder : String) (here : List String) (first : Disk) (records : List Record)
    (d : Disk) : Prop where
  place : Disk.Place folder here d
  filed : Filed first.files here records d.files
  folders : d.folders = first.folders

/-- A disk on which the library holds a shelf: next to the files of the records the index lists the
entries. -/
structure Shelved (folder : String) (here : List String) (first : Disk) (shelf : Shelf) (d : Disk)
    extends Stocked folder here first (shelf.map Entry.record) d where
  listed : d.files.get? (indexKey here) = some (.json (.list (shelf.map Entry.item)))

theorem Entry.lasting_item (e : Entry) : Json.Lasting e.item :=
  Record.lasting_indexItem _

theorem lasting_items (shelf : Shelf) : Json.Lasting (.list (shelf.map Entry.item)) := by
  refine Json.lasting_list fun v hv => ?_
  obtain ⟨e, -, rfl⟩ := List.mem_map.1 hv
  exact e.lasting_item

theorem run_index_of_listed {folder : String} {here : List String} {d : Disk} {shelf : Shelf}
    (hplace : Disk.Place folder here d)
    (hlisted : d.files.get? (indexKey here) = some (.json (.list (shelf.map Entry.item)))) :
    (index folder).run d = (.ok (.list (shelf.map Entry.item)), d) := by
  have hthere : d.has (indexPath folder) = true := by
    unfold indexPath
    rw [hplace.has_name isName_index]
    exact congrArg Option.isSome hlisted
  have hread : (Disk.read (indexPath folder)).run d = (.ok (.json (.list (shelf.map Entry.item))), d) :=
    hplace.run_read isName_index hlisted
  unfold index
  rw [Effect.run_bind_ok (Effect.run_get d), hthere]
  show Effect.run (Disk.read (indexPath folder) >>= _) d = _
  rw [Effect.run_bind_ok hread]
  show Effect.run (Effect.lift (Content.json (.list (shelf.map Entry.item))).value) d = _
  rw [(lasting_items shelf).value, Effect.run_lift]

namespace Shelved

variable {folder : String} {here : List String} {first d : Disk} {shelf : Shelf} {e : Entry}
  (h : Shelved folder here first shelf d)

include h

theorem isIdentifier (he : e ∈ shelf) : IsIdentifier e.id :=
  h.filed.identifiers e.record (List.mem_map_of_mem he)

theorem nodup_ids : shelf.ids.Nodup := by
  have := h.filed.distinct
  rwa [List.map_map] at this

theorem get?_entry (he : e ∈ shelf) : d.files.get? (keyOf here e.id) = some e.record.content :=
  h.filed.kept e.record (List.mem_map_of_mem he)

/-- Entries with one identifier are one entry. -/
theorem eq_of_id {e' : Entry} (he : e ∈ shelf) (he' : e' ∈ shelf) (hid : e.id = e'.id) : e = e' :=
  List.inj_on_of_nodup_map h.nodup_ids he he' hid

theorem get?_eq_some {id : String} : shelf.get? id = some e ↔ e ∈ shelf ∧ e.id = id := by
  constructor
  · intro hget
    exact ⟨List.mem_of_find?_eq_some hget, by simpa using List.find?_some hget⟩
  · rintro ⟨he, rfl⟩
    cases hget : shelf.get? e.id with
    | none => simpa using List.find?_eq_none.1 hget e he
    | some e' =>
      have hid : e'.id = e.id := by simpa using List.find?_some hget
      rw [h.eq_of_id (List.mem_of_find?_eq_some hget) he hid]

theorem has_index : d.has (indexPath folder) = true := by
  unfold indexPath
  rw [h.place.has_name isName_index]
  exact congrArg Option.isSome h.listed

/-- Later changes can be told from any disk with a shelf. -/
theorem anew : Shelved folder here d shelf d where
  place := h.place
  filed := { h.filed with outside := fun _ _ => rfl }
  folders := rfl
  listed := h.listed

theorem run_prepare : (prepare folder).run d = (.ok (), d) := by
  unfold prepare
  rw [Effect.run_bind_ok h.place.run_makeFolder, Effect.run_bind_ok (Effect.run_get d), h.has_index]
  rfl

theorem run_index : (index folder).run d = (.ok (.list (shelf.map Entry.item)), d) :=
  run_index_of_listed h.place h.listed

end Shelved

end Library

end BrowserFlow
