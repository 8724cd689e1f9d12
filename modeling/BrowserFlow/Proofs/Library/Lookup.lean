import BrowserFlow.Proofs.Library.Shelf

/-!
# Looking up a workflow

A text is first taken for the name of a file and only then for the name of a workflow. So on a disk
that holds a shelf the looking up ends in one of three ways (`Shelved.load_cases`): there is
nothing at the path of the text, and the first workflow of that name is taken; the path is that
of a workflow on the shelf, which is taken; or there is something else, be it the index, a folder
or a file outside, and a fault comes of it, unless a workflow from outside was read (`Strays`).

An identifier can only end in the first two ways (`Shelved.run_load_identifier`).
-/

namespace BrowserFlow

/-- The workflow that is read from a file. -/
def Content.workflow? (c : Content) : Except Fault Workflow :=
  c.value >>= Workflow.ofValue

namespace Library

/-- Two texts are taken for one and the same path. -/
def SamePath (folder : String) (d : Disk) (key other : String) : Prop :=
  d.resolve? (path folder (.text key)) = d.resolve? (path folder (.text other))

/-- The path of a text is that of a file which is read as a workflow. -/
def Strays (folder : String) (d : Disk) (key : String) : Prop :=
  ∃ c w, d.file? (path folder (.text key)) = some c ∧ c.workflow? = .ok w

/-- The first workflow of a name. -/
def Shelf.byName (shelf : Shelf) (name : String) : Except Failure Workflow :=
  match shelf.named? name with
  | some e => .ok e.record.toWorkflow
  | none => .error (.notFound name)

theorem workflow?_content (r : Record) : r.content.workflow? = .ok r.toWorkflow := by
  unfold Content.workflow? Record.content
  rw [r.lasting.value]
  exact Workflow.ofValue_toValue r.toWorkflow

theorem workflow?_list (items : List Value) :
    ∃ f, (Content.json (.list items)).workflow? = .error f :=
  ⟨_, rfl⟩

theorem members_list (items : List Value) : (Value.list items).members = .ok items := rfl

theorem findNamed_items (lowered : String) (shelf : Shelf) :
    findNamed lowered (shelf.map Entry.item) =
      .ok ((shelf.find? fun e => Text.lower e.record.name == lowered).map Entry.item) := by
  induction shelf with
  | nil => rfl
  | cons e shelf ih =>
    show (if Text.lower e.record.name == lowered then .ok (some e.item)
      else findNamed lowered (shelf.map Entry.item)) = _
    rw [ih, List.find?_cons]
    cases Text.lower e.record.name == lowered with
    | true => rfl
    | false => rfl

/-- The path of a file of the library does not lead upwards. -/
theorem pathOf_ne_keyOf {here names : List String} {id : String}
    (hnames : names.all (· == "..") = true) : Disk.pathOf names ≠ keyOf here id := by
  intro heq
  have hlast : (keyOf here id).toList.getLast? = some 'n' := by
    unfold keyOf fileName
    rw [Disk.pathOf_cons]
    simp
  rw [← heq] at hlast
  cases names with
  | nil => cases hlast
  | cons name rest =>
    rw [List.all_cons, Bool.and_eq_true, beq_iff_eq] at hnames
    rw [hnames.1, Disk.pathOf_cons] at hlast
    simp at hlast

theorem run_locate_there {folder key : String} {d : Disk}
    (hthere : d.has (path folder (.text key)) = true) :
    (locate folder (.text key)).run d = (.ok (path folder (.text key)), d) := by
  unfold locate
  rw [Effect.run_bind_ok (Effect.run_get d), hthere]
  rfl

section

variable {folder p : String} {name : Value} {d : Disk}

/-- Looking up, once it is known that a file is at the path that has been found. -/
theorem run_load_of_content {c : Content} (hprepare : (prepare folder).run d = (.ok (), d))
    (hlocate : (locate folder name).run d = (.ok p, d))
    (hread : (Disk.read p).run d = (.ok c, d)) :
    (load folder name).run d = (c.workflow?.mapError .fault, d) := by
  unfold load Content.workflow?
  simp only [Effect.run_bind, Effect.run_mapError, hprepare, Effect.mapError_ok, hlocate, hread]
  cases hvalue : c.value with
  | error f => rfl
  | ok v => rfl

/-- Looking up, once it is known that nothing can be read at the path that has been found. -/
theorem run_load_of_fault {f : Fault} (hprepare : (prepare folder).run d = (.ok (), d))
    (hlocate : (locate folder name).run d = (.ok p, d))
    (hread : (Disk.read p).run d = (.error f, d)) :
    (load folder name).run d = (.error (.fault f), d) := by
  unfold load
  simp only [Effect.run_bind, Effect.run_mapError, hprepare, Effect.mapError_ok,
    Effect.mapError_error, hlocate, hread]

/-- Looking up what cannot be located. -/
theorem run_load_of_locate_error {f : Failure} (hprepare : (prepare folder).run d = (.ok (), d))
    (hlocate : (locate folder name).run d = (.error f, d)) :
    (load folder name).run d = (.error f, d) := by
  unfold load
  simp only [Effect.run_bind, Effect.run_mapError, hprepare, Effect.mapError_ok, hlocate]

end

namespace Shelved

variable {folder key id : String} {here : List String} {first d : Disk} {shelf : Shelf} {e : Entry}
  (h : Shelved folder here first shelf d)

include h

/-! ## Paths and files -/

theorem run_read_entry (he : e ∈ shelf) :
    (Disk.read (path folder (.text e.id))).run d = (.ok e.record.content, d) :=
  h.place.run_read (h.isIdentifier he).isName (h.get?_entry he)

theorem resolve?_identifier (hid : IsIdentifier id) :
    d.resolve? (path folder (.text id)) = some (keyOf here id) := by
  have hnames : d.names? (path folder (.text id)) = some (fileName id :: here) :=
    h.place.names?_name hid.isName
  unfold Disk.resolve?
  rw [hnames]
  rfl

theorem samePath_identifier (hid : IsIdentifier id) :
    SamePath folder d key id ↔ d.resolve? (path folder (.text key)) = some (keyOf here id) := by
  unfold SamePath
  rw [h.resolve?_identifier hid]

/-- There is a file of an identifier exactly if the shelf has it. -/
theorem file?_identifier (hid : IsIdentifier id) :
    d.file? (path folder (.text id)) = (shelf.get? id).map fun e => e.record.content := by
  have hfile : d.file? (path folder (.text id)) = d.files.get? (keyOf here id) :=
    h.place.file?_name hid.isName
  rw [hfile]
  cases hget : shelf.get? id with
  | some e =>
    obtain ⟨he, rfl⟩ := h.get?_eq_some.1 hget
    exact h.get?_entry he
  | none =>
    refine h.filed.get?_keyOf hid fun r hr => ?_
    obtain ⟨e, he, rfl⟩ := List.mem_map.1 hr
    intro heq
    rw [h.get?_eq_some.2 ⟨he, heq⟩] at hget
    cases hget

theorem not_isFolder_identifier (hid : IsIdentifier id) :
    d.isFolder (path folder (.text id)) = false :=
  h.place.not_isFolder hid.isName

theorem has_identifier (hid : IsIdentifier id) :
    d.has (path folder (.text id)) = (shelf.get? id).isSome := by
  unfold Disk.has
  rw [h.not_isFolder_identifier hid, h.file?_identifier hid, Option.isSome_map, Bool.false_or]

/-- Where a path leads depends on folders alone, and these are what they were at first. -/
theorem names?_first (p : String) : first.names? p = d.names? p := by
  have hd : { first with files := d.files } = d := by rw [← h.folders]
  rw [← Disk.names?_files first d.files p, hd]

/-- What is a file of the shelf for some text is no folder. -/
theorem not_isFolder_of_samePath (he : e ∈ shelf) (hsame : SamePath folder d key e.id) :
    d.isFolder (path folder (.text key)) = false := by
  rw [h.samePath_identifier (h.isIdentifier he)] at hsame
  unfold Disk.resolve? at hsame
  obtain ⟨names, hnames, hkey⟩ := Option.map_eq_some_iff.1 hsame
  have hcontains : d.folders.contains (Disk.pathOf names) = false := by
    rw [hkey, Bool.eq_false_iff]
    exact fun hc => h.place.flat _ (List.contains_iff_mem.1 hc)
  have hall : names.all (· == "..") = false :=
    Bool.eq_false_iff.2 fun hdots => pathOf_ne_keyOf hdots hkey
  unfold Disk.isFolder Disk.leadsToFolder
  rw [hnames, Option.any_some, hcontains, hall, Bool.false_or]

/-! ## What looking up comes to -/

theorem run_locate_absent (habsent : d.has (path folder (.text key)) = false) :
    (locate folder (.text key)).run d =
      (match shelf.named? key with
        | some e => .ok (path folder (.text e.id))
        | none => .error (.notFound key), d) := by
  unfold locate
  rw [Effect.run_bind_ok (Effect.run_get d), habsent]
  simp only [Bool.false_eq_true, if_false, pure_bind, Effect.run_bind, Effect.run_mapError,
    h.run_index, Effect.run_lift, members_list, findNamed_items]
  unfold Shelf.named?
  cases shelf.find? fun e => Text.lower e.record.name == Text.lower key with
  | none => rfl
  | some e => rfl

/-- Where nothing is, the name decides. -/
theorem run_load_absent (habsent : d.has (path folder (.text key)) = false) :
    (load folder (.text key)).run d = (shelf.byName key, d) := by
  have hlocate := h.run_locate_absent habsent
  unfold Shelf.byName
  cases hnamed : shelf.named? key with
  | some e =>
    rw [hnamed] at hlocate
    have he : e ∈ shelf := List.mem_of_find?_eq_some hnamed
    rw [run_load_of_content h.run_prepare hlocate (h.run_read_entry he), workflow?_content]
    rfl
  | none =>
    rw [hnamed] at hlocate
    exact run_load_of_locate_error h.run_prepare hlocate

theorem file?_of_samePath (he : e ∈ shelf) (hsame : SamePath folder d key e.id) :
    d.file? (path folder (.text key)) = some e.record.content := by
  unfold Disk.file?
  rw [(h.samePath_identifier (h.isIdentifier he)).1 hsame]
  exact h.get?_entry he

theorem has_of_samePath (he : e ∈ shelf) (hsame : SamePath folder d key e.id) :
    d.has (path folder (.text key)) = true := by
  unfold Disk.has
  rw [h.file?_of_samePath he hsame, Option.isSome_some, Bool.or_true]

/-- Where the file of a workflow is, this is taken. -/
theorem run_load_samePath (he : e ∈ shelf) (hsame : SamePath folder d key e.id) :
    (load folder (.text key)).run d = (.ok e.record.toWorkflow, d) := by
  have hread : (Disk.read (path folder (.text key))).run d = (.ok e.record.content, d) := by
    rw [Disk.run_read, h.not_isFolder_of_samePath he hsame, h.file?_of_samePath he hsame]
    rfl
  rw [run_load_of_content h.run_prepare (run_locate_there (h.has_of_samePath he hsame)) hread,
    workflow?_content]
  rfl

/-- What is read where there is something else is no workflow, unless it is one from outside. -/
theorem workflow?_else {c : Content} (hfile : d.file? (path folder (.text key)) = some c)
    (helse : ∀ e ∈ shelf, ¬ SamePath folder d key e.id) (hstrays : ¬ Strays folder first key) :
    ∃ f, c.workflow? = .error f := by
  unfold Disk.file? at hfile
  obtain ⟨k, hk, hget⟩ := Option.bind_eq_some_iff.1 hfile
  -- in the folder there are the index and the files of the shelf; outside all is as it was at first
  by_cases hin : ∃ n, Disk.pathOf (n :: here) = k
  · obtain ⟨n, rfl⟩ := hin
    rcases h.filed.inside n c hget with rfl | ⟨r, hr, rfl⟩
    · have hlisted := h.listed
      unfold indexKey at hlisted
      rw [hlisted] at hget
      cases hget
      exact workflow?_list _
    · obtain ⟨e, he, rfl⟩ := List.mem_map.1 hr
      exact absurd ((h.samePath_identifier (h.isIdentifier he)).2 hk) (helse e he)
  · have hfirst : first.file? (path folder (.text key)) = some c := by
      unfold Disk.file? Disk.resolve?
      rw [h.names?_first]
      unfold Disk.resolve? at hk
      rw [hk, Option.bind_some, ← h.filed.outside k fun n heq => hin ⟨n, heq⟩]
      exact hget
    cases hread : c.workflow? with
    | error f => exact ⟨f, rfl⟩
    | ok w => exact absurd ⟨c, w, hfirst, hread⟩ hstrays

/-- Where something else is, a fault comes of it. -/
theorem run_load_else (hthere : d.has (path folder (.text key)) = true)
    (helse : ∀ e ∈ shelf, ¬ SamePath folder d key e.id) (hstrays : ¬ Strays folder first key) :
    ∃ f, (load folder (.text key)).run d = (.error (.fault f), d) := by
  have hlocate := run_locate_there hthere
  have hread := Disk.run_read d (path folder (.text key))
  unfold Disk.has at hthere
  cases hfolder : d.isFolder (path folder (.text key)) with
  | true =>
    rw [hfolder, if_pos rfl] at hread
    exact ⟨.folder, run_load_of_fault h.run_prepare hlocate hread⟩
  | false =>
    rw [hfolder, Bool.false_or] at hthere
    obtain ⟨c, hfile⟩ := Option.isSome_iff_exists.1 hthere
    obtain ⟨f, hf⟩ := h.workflow?_else hfile helse hstrays
    rw [hfolder, hfile] at hread
    refine ⟨f, ?_⟩
    rw [run_load_of_content h.run_prepare hlocate hread, hf]
    rfl

/-- The three ways in which looking up ends. -/
theorem load_cases (hstrays : ¬ Strays folder first key) :
    (d.has (path folder (.text key)) = false ∧
        (load folder (.text key)).run d = (shelf.byName key, d)) ∨
      (∃ e ∈ shelf, SamePath folder d key e.id ∧
        (load folder (.text key)).run d = (.ok e.record.toWorkflow, d)) ∨
      d.has (path folder (.text key)) = true ∧ (∀ e ∈ shelf, ¬ SamePath folder d key e.id) ∧
        ∃ f, (load folder (.text key)).run d = (.error (.fault f), d) := by
  cases hthere : d.has (path folder (.text key)) with
  | false => exact Or.inl ⟨rfl, h.run_load_absent hthere⟩
  | true =>
    by_cases hsame : ∃ e ∈ shelf, SamePath folder d key e.id
    · obtain ⟨e, he, hsame⟩ := hsame
      exact Or.inr (Or.inl ⟨e, he, hsame, h.run_load_samePath he hsame⟩)
    · have helse : ∀ e ∈ shelf, ¬ SamePath folder d key e.id :=
        fun e he hs => hsame ⟨e, he, hs⟩
      exact Or.inr (Or.inr ⟨rfl, helse, h.run_load_else hthere helse hstrays⟩)

/-- Looking up finds a workflow of the shelf or none, and leaves the disk. -/
theorem load_ok_or_error (hstrays : ¬ Strays folder first key) :
    (∃ e ∈ shelf, (load folder (.text key)).run d = (.ok e.record.toWorkflow, d)) ∨
      ∃ f, (load folder (.text key)).run d = (.error f, d) := by
  rcases h.load_cases hstrays with ⟨-, hrun⟩ | ⟨e, he, -, hrun⟩ | ⟨-, -, f, hrun⟩
  · unfold Shelf.byName at hrun
    cases hnamed : shelf.named? key with
    | some e =>
      rw [hnamed] at hrun
      exact Or.inl ⟨e, List.mem_of_find?_eq_some hnamed, hrun⟩
    | none =>
      rw [hnamed] at hrun
      exact Or.inr ⟨_, hrun⟩
  · exact Or.inl ⟨e, he, hrun⟩
  · exact Or.inr ⟨_, hrun⟩

/-- An identifier finds its own workflow; without one it is looked up as a name. -/
theorem run_load_identifier (hid : IsIdentifier id) :
    (load folder (.text id)).run d =
      (match shelf.get? id with
        | some e => .ok e.record.toWorkflow
        | none => shelf.byName id, d) := by
  cases hget : shelf.get? id with
  | some e =>
    obtain ⟨he, rfl⟩ := h.get?_eq_some.1 hget
    exact h.run_load_samePath he rfl
  | none =>
    refine h.run_load_absent ?_
    rw [h.has_identifier hid, hget]
    rfl

end Shelved

end Library

end BrowserFlow
