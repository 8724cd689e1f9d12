import BrowserFlow.Proofs.Library.Operations
import Mathlib.Data.List.Induction

/-!
# Courses of calls

A library is opened in a folder that is empty (`Vacant`) and is then called any number of times,
whatever comes of each call. What the calls made of its shelf can be told from the calls and from
what each text found (`course`), and the disk holds that shelf all the time (`Vacant.shelved`), as
long as no identifier is given twice and no text leads to a workflow that is not in the library
(`Orderly`).

The workflows that are kept can then be read off the files, one by one in the order in which they
were saved (`kept_eq`).
-/

namespace BrowserFlow

namespace Library

/-! ## Calls -/

/-- A call of the library, with the time and the identifier that it gets. -/
inductive Call
  | save (id now : String) (p : Proposal)
  | update (now key : String) (c : Revision)
  | recordRun (now key : String)
  | delete (key : String)
  | load (key : String)
  | list (tags : Option (List String))

/-- What a call gives. -/
inductive Answer
  | workflow (w : Workflow)
  | items (v : Value)
  | nothing

namespace Call

def run (folder : String) : Call → Effect Failure Disk Answer
  | save id now p => .workflow <$> Effect.mapError .fault (enter folder id now p.toDraft)
  | update now key c => .workflow <$> Library.update folder now (.text key) c.toChanges
  | recordRun now key => .workflow <$> Library.recordRun folder now (.text key)
  | delete key => (fun _ => .nothing) <$> Library.delete folder (.text key)
  | load key => .workflow <$> Library.load folder (.text key)
  | list tags => .items <$> Effect.mapError .fault (Library.list folder (.ofOption .texts tags))

/-- The disk after a call. -/
def next (folder : String) (d : Disk) (c : Call) : Disk :=
  ((c.run folder).run d).2

/-- The identifier under which a workflow is saved. -/
def saved? : Call → Option String
  | save id _ _ => some id
  | _ => none

/-- The text that is looked up. -/
def key? : Call → Option String
  | update _ key _ | recordRun _ key | delete key | load key => some key
  | save _ _ _ | list _ => none

/-- What becomes of the shelf, if it is known which identifier a text finds. -/
def turn (found : String → Option String) (shelf : Shelf) : Call → Shelf
  | save id now p => shelf ++ [.fresh p id now]
  | update now key c =>
    match found key with
    | some id => shelf.alter id (.revised now c)
    | none => shelf
  | recordRun now key =>
    match found key with
    | some id => shelf.alter id (.counted now)
    | none => shelf
  | delete key =>
    match found key with
    | some id => shelf.without id
    | none => shelf
  | load _ | list _ => shelf

end Call

/-- The identifiers under which workflows are saved. -/
def saved (calls : List Call) : List String :=
  calls.filterMap Call.saved?

/-- The texts that are looked up. -/
def asked (calls : List Call) : List String :=
  calls.filterMap Call.key?

/-- The disk after the library has been opened. -/
def opened (folder : String) (d : Disk) : Disk :=
  ((prepare folder).run d).2

/-- The disk after the library has been opened and called. -/
def after (folder : String) (d : Disk) (calls : List Call) : Disk :=
  calls.foldl (Call.next folder) (opened folder d)

/-- The identifier of the workflow that a text finds. -/
def found? (folder : String) (d : Disk) (key : String) : Option String :=
  match ((load folder (.text key)).run d).1 with
  | .ok w => some w.id.plainText
  | .error _ => none

/-- A disk and its shelf after a call. -/
def advance (folder : String) (s : Disk × Shelf) (c : Call) : Disk × Shelf :=
  (c.next folder s.1, c.turn (found? folder s.1) s.2)

/-- The disk after the library has been opened and called, and the shelf to which the calls come. -/
def course (folder : String) (d : Disk) (calls : List Call) : Disk × Shelf :=
  calls.foldl (advance folder) (opened folder d, [])

namespace Call

/-- What is on the next shelf has been saved just now, or comes of what was on the last one. -/
theorem mem_turn {found : String → Option String} {shelf : Shelf} {c : Call} {x : Entry}
    (h : x ∈ c.turn found shelf) :
    (∃ id now p, c = save id now p ∧ x = .fresh p id now) ∨
      ∃ e ∈ shelf, x = e ∨ (∃ now key r, c = update now key r ∧ x = e.revised now r) ∨
        ∃ now key, c = recordRun now key ∧ x = e.counted now := by
  cases c with
  | save id now p =>
    rcases List.mem_append.1 h with hx | hx
    · exact Or.inr ⟨x, hx, Or.inl rfl⟩
    · exact Or.inl ⟨id, now, p, rfl, List.mem_singleton.1 hx⟩
  | update now key r =>
    unfold turn at h
    dsimp only at h
    split at h
    · rcases Shelf.mem_alter.1 h with ⟨e, he, -, rfl⟩ | ⟨hx, -⟩
      · exact Or.inr ⟨e, he, Or.inr (Or.inl ⟨now, key, r, rfl, rfl⟩)⟩
      · exact Or.inr ⟨x, hx, Or.inl rfl⟩
    · exact Or.inr ⟨x, h, Or.inl rfl⟩
  | recordRun now key =>
    unfold turn at h
    dsimp only at h
    split at h
    · rcases Shelf.mem_alter.1 h with ⟨e, he, -, rfl⟩ | ⟨hx, -⟩
      · exact Or.inr ⟨e, he, Or.inr (Or.inr ⟨now, key, rfl, rfl⟩)⟩
      · exact Or.inr ⟨x, hx, Or.inl rfl⟩
    · exact Or.inr ⟨x, h, Or.inl rfl⟩
  | delete key =>
    unfold turn at h
    dsimp only at h
    split at h
    · exact Or.inr ⟨x, (Shelf.mem_without.1 h).1, Or.inl rfl⟩
    · exact Or.inr ⟨x, h, Or.inl rfl⟩
  | load key => exact Or.inr ⟨x, h, Or.inl rfl⟩
  | list tags => exact Or.inr ⟨x, h, Or.inl rfl⟩

/-- The identifiers on the next shelf are those of before, less one or and the new one. -/
theorem ids_turn (found : String → Option String) (shelf : Shelf) (c : Call) :
    (c.turn found shelf).ids.Sublist (shelf.ids ++ saved [c]) := by
  have hkeep : shelf.ids.Sublist (shelf.ids ++ saved [c]) := List.sublist_append_left _ _
  cases c with
  | save id now p =>
    unfold Call.turn Shelf.ids
    rw [List.map_append]
    exact List.Sublist.refl _
  | update now key c =>
    unfold Call.turn
    dsimp only
    split
    · rw [Shelf.ids_alter (Entry.id_revised now c)]
      exact hkeep
    · exact hkeep
  | recordRun now key =>
    unfold Call.turn
    dsimp only
    split
    · rw [Shelf.ids_alter (Entry.id_counted now)]
      exact hkeep
    · exact hkeep
  | delete key =>
    unfold Call.turn
    dsimp only
    split
    · rw [Shelf.ids_without]
      exact List.filter_sublist.trans hkeep
    · exact hkeep
  | load key => exact hkeep
  | list tags => exact hkeep

end Call

/-- No identifier is given twice, each names a file, and no text is the path of a workflow that was
on the disk before. -/
structure Orderly (folder : String) (first : Disk) (calls : List Call) : Prop where
  identifiers : ∀ id ∈ saved calls, IsIdentifier id
  distinct : (saved calls).Nodup
  within : ∀ key ∈ asked calls, ¬ Strays folder first key

section

variable {folder key : String} {d : Disk} {e : Entry}

theorem found?_of_ok (hload : (load folder (.text key)).run d = (.ok e.record.toWorkflow, d)) :
    found? folder d key = some e.id := by
  unfold found?
  rw [hload]
  rfl

theorem found?_of_error {f : Failure} (hload : (load folder (.text key)).run d = (.error f, d)) :
    found? folder d key = none := by
  unfold found?
  rw [hload]

end

namespace Shelved

variable {folder key : String} {here : List String} {first d : Disk} {shelf : Shelf} {e : Entry}
  (h : Shelved folder here first shelf d)

include h

/-- What is found is on the shelf. -/
theorem mem_of_found? {id : String} (hstrays : ¬ Strays folder first key)
    (hfound : found? folder d key = some id) : id ∈ shelf.ids := by
  rcases h.load_ok_or_error hstrays with ⟨e, he, hload⟩ | ⟨f, hload⟩
  · rw [found?_of_ok hload] at hfound
    cases hfound
    exact List.mem_map_of_mem he
  · rw [found?_of_error hload] at hfound
    cases hfound

/-- Any call takes a disk with a shelf to a disk with the next one. -/
theorem next (c : Call) (hsave : ∀ id, c.saved? = some id → IsIdentifier id ∧ id ∉ shelf.ids)
    (hkey : ∀ key, c.key? = some key → ¬ Strays folder first key) :
    Shelved folder here first (c.turn (found? folder d) shelf) (c.next folder d) := by
  cases c with
  | save id now p =>
    obtain ⟨hid, hnew⟩ := hsave id rfl
    obtain ⟨d', hrun, hshelved⟩ := h.run_enter hid hnew now p
    unfold Call.next Call.run
    rw [Effect.run_map, Effect.run_mapError, hrun]
    exact hshelved
  | update now key c =>
    rcases h.load_ok_or_error (hkey key rfl) with ⟨e, he, hload⟩ | ⟨f, hload⟩
    · obtain ⟨d', hrun, hshelved⟩ := h.run_update he hload now c
      unfold Call.next Call.run Call.turn
      rw [Effect.run_map, hrun]
      dsimp only
      rw [found?_of_ok hload]
      exact hshelved
    · unfold Call.next Call.run Call.turn
      rw [Effect.run_map, run_update_error hload]
      dsimp only
      rw [found?_of_error hload]
      exact h
  | recordRun now key =>
    rcases h.load_ok_or_error (hkey key rfl) with ⟨e, he, hload⟩ | ⟨f, hload⟩
    · obtain ⟨d', hrun, hshelved⟩ := h.run_recordRun he hload now
      unfold Call.next Call.run Call.turn
      rw [Effect.run_map, hrun]
      dsimp only
      rw [found?_of_ok hload]
      exact hshelved
    · unfold Call.next Call.run Call.turn
      rw [Effect.run_map, run_recordRun_error hload]
      dsimp only
      rw [found?_of_error hload]
      exact h
  | delete key =>
    rcases h.load_ok_or_error (hkey key rfl) with ⟨e, he, hload⟩ | ⟨f, hload⟩
    · obtain ⟨d', hrun, hshelved⟩ := h.run_delete he hload
      unfold Call.next Call.run Call.turn
      rw [Effect.run_map, hrun]
      dsimp only
      rw [found?_of_ok hload]
      exact hshelved
    · unfold Call.next Call.run Call.turn
      rw [Effect.run_map, run_delete_error hload]
      dsimp only
      rw [found?_of_error hload]
      exact h
  | load key =>
    have hdisk : ((load folder (.text key)).run d).2 = d := by
      rcases h.load_ok_or_error (hkey key rfl) with ⟨e, -, hload⟩ | ⟨f, hload⟩
      · rw [hload]
      · rw [hload]
    unfold Call.next Call.run Call.turn
    rw [Effect.run_map]
    dsimp only
    rw [hdisk]
    exact h
  | list tags =>
    unfold Call.next Call.run Call.turn
    rw [Effect.run_map, Effect.run_mapError, h.run_list]
    exact h

end Shelved

/-! ## From an empty folder on -/

/-- A folder that can be made and is empty. Once it has been made its path leads to the names
`here`. -/
structure Vacant (folder : String) (here : List String) (d : Disk) : Prop where
  makes : ((Disk.makeFolder folder).run d).1 = .ok ()
  names : ((Disk.makeFolder folder).run d).2.names? folder = some here
  leads : ((Disk.makeFolder folder).run d).2.leadsToFolder here = true
  flat : ∀ n, Disk.pathOf (n :: here) ∉ ((Disk.makeFolder folder).run d).2.folders
  empty : ∀ n, d.files.get? (Disk.pathOf (n :: here)) = none

section

variable {folder : String} {here : List String} {d : Disk} {calls : List Call}

theorem after_concat (c : Call) :
    after folder d (calls ++ [c]) = c.next folder (after folder d calls) := by
  unfold after
  rw [List.foldl_concat]

theorem course_concat (c : Call) :
    course folder d (calls ++ [c]) = advance folder (course folder d calls) c := by
  unfold course
  rw [List.foldl_concat]

theorem course_fst : (course folder d calls).1 = after folder d calls := by
  induction calls using List.reverseRecOn with
  | nil => rfl
  | append_singleton calls c ih =>
    rw [course_concat, after_concat, ← ih]
    rfl

theorem saved_append (calls more : List Call) : saved (calls ++ more) = saved calls ++ saved more :=
  List.filterMap_append

theorem asked_append (calls more : List Call) : asked (calls ++ more) = asked calls ++ asked more :=
  List.filterMap_append

theorem saved_concat (calls : List Call) (c : Call) :
    saved (calls ++ [c]) = saved calls ++ c.saved?.toList := by
  rw [saved_append]
  unfold saved
  cases h : c.saved? with
  | none => rw [List.filterMap_cons_none h, List.filterMap_nil, Option.toList_none]
  | some id => rw [List.filterMap_cons_some h, List.filterMap_nil, Option.toList_some]

theorem asked_concat (calls : List Call) (c : Call) :
    asked (calls ++ [c]) = asked calls ++ c.key?.toList := by
  rw [asked_append]
  unfold asked
  cases h : c.key? with
  | none => rw [List.filterMap_cons_none h, List.filterMap_nil, Option.toList_none]
  | some key => rw [List.filterMap_cons_some h, List.filterMap_nil, Option.toList_some]

section

variable {first : Disk} {c : Call}

theorem Orderly.before {more : List Call} (h : Orderly folder first (calls ++ more)) :
    Orderly folder first calls where
  identifiers := fun id hid => h.identifiers id (by
    rw [saved_append]
    exact List.mem_append_left _ hid)
  distinct := by
    have := h.distinct
    rw [saved_append] at this
    exact this.sublist (List.sublist_append_left _ _)
  within := fun key hkey => h.within key (by
    rw [asked_append]
    exact List.mem_append_left _ hkey)

/-- What can be told of the last call. -/
theorem Orderly.last (h : Orderly folder first (calls ++ [c])) :
    (∀ id, c.saved? = some id → IsIdentifier id ∧ id ∉ saved calls) ∧
      ∀ key, c.key? = some key → ¬ Strays folder first key := by
  obtain ⟨hall, hdistinct, hwithin⟩ := h
  rw [saved_concat] at hall hdistinct
  rw [asked_concat] at hwithin
  refine ⟨fun id hid => ?_, fun key hkey => ?_⟩
  · have hmem : id ∈ c.saved?.toList := Option.mem_toList.2 hid
    exact ⟨hall id (List.mem_append_right _ hmem),
      fun hold => (List.nodup_append.1 hdistinct).2.2 id hold id hmem rfl⟩
  · exact hwithin key (List.mem_append_right _ (Option.mem_toList.2 hkey))

theorem Orderly.concat (h : Orderly folder first calls)
    (hsave : ∀ id, c.saved? = some id → IsIdentifier id ∧ id ∉ saved calls)
    (hkey : ∀ key, c.key? = some key → ¬ Strays folder first key) :
    Orderly folder first (calls ++ [c]) where
  identifiers := by
    intro i hi
    rw [saved_concat] at hi
    rcases List.mem_append.1 hi with hi | hi
    · exact h.identifiers i hi
    · exact (hsave i (Option.mem_toList.1 hi)).1
  distinct := by
    rw [saved_concat]
    refine List.nodup_append.2 ⟨h.distinct, ?_, fun i hi j hj => ?_⟩
    · cases c.saved? with
      | none => exact List.nodup_nil
      | some id => exact List.nodup_singleton id
    · rintro rfl
      exact (hsave i (Option.mem_toList.1 hj)).2 hi
  within := by
    intro key hk
    rw [asked_concat] at hk
    rcases List.mem_append.1 hk with hk | hk
    · exact h.within key hk
    · exact hkey key (Option.mem_toList.1 hk)

end

/-- An empty folder becomes an empty library. -/
theorem Vacant.prepared (h : Vacant folder here d) :
    ∃ d', (prepare folder).run d = (.ok (), d') ∧ Filed d.files here [] d'.files ∧
      Shelved folder here d' [] d' := by
  obtain ⟨made, hmade⟩ : ∃ made, (Disk.makeFolder folder).run d = (.ok (), made) :=
    ⟨_, Prod.ext h.makes rfl⟩
  have hfrom := Disk.run_makeFolder.1 hmade
  obtain ⟨hfiles, -⟩ := Disk.makeFrom_grows hfrom
  have hplace : Disk.Place folder here made := by
    refine ⟨?_, ?_, ?_, ?_⟩
    · refine Disk.makeFrom_again hfrom (fun _ hp => hp) fun p _ hp => ?_
      rwa [← hfiles]
    · have := h.names
      rwa [hmade] at this
    · have := h.leads
      rwa [hmade] at this
    · have := h.flat
      rwa [hmade] at this
  have hstock : Stocked folder here made (List.map Entry.record []) made := by
    refine ⟨hplace, ⟨?_, ?_, fun _ _ => rfl, ?_, List.nodup_nil⟩, rfl⟩
    · exact fun r hr => absurd hr List.not_mem_nil
    · intro n c hc
      rw [hfiles, h.empty n] at hc
      cases hc
    · exact fun r hr => absurd hr List.not_mem_nil
  -- the folder is empty, so an index is put there
  have hhas : made.has (indexPath folder) = false := by
    have hnone : made.files.get? (indexKey here) = none := hfiles ▸ h.empty "index.json"
    unfold indexPath
    rw [hplace.has_name isName_index]
    exact congrArg Option.isSome hnone
  obtain ⟨d', hrelist, hshelved⟩ := hstock.run_relist
  refine ⟨d', ?_, hfiles ▸ hshelved.filed, hshelved.anew⟩
  unfold prepare
  rw [Effect.run_bind_ok hmade, Effect.run_bind_ok (Effect.run_get made), hhas]
  exact hrelist

theorem Vacant.shelved_opened (h : Vacant folder here d) :
    Shelved folder here (opened folder d) [] (opened folder d) := by
  obtain ⟨d', hrun, -, hshelved⟩ := h.prepared
  unfold opened
  rw [hrun]
  exact hshelved

/-- Where no workflow is, no text leads to one. -/
theorem Vacant.not_strays (h : Vacant folder here d)
    (hnone : ∀ k c, d.files.get? k = some c → ∃ f, c.workflow? = .error f) (key : String) :
    ¬ Strays folder (opened folder d) key := by
  rintro ⟨c, w, hfile, hw⟩
  unfold Disk.file? at hfile
  obtain ⟨k, -, hget⟩ := Option.bind_eq_some_iff.1 hfile
  obtain ⟨d', hrun, hfiled, -⟩ := h.prepared
  have hopened : opened folder d = d' := congrArg Prod.snd hrun
  obtain ⟨f, hf⟩ : ∃ f, c.workflow? = .error f := by
    by_cases hin : ∃ n, Disk.pathOf (n :: here) = k
    · obtain ⟨n, rfl⟩ := hin
      have hlisted := h.shelved_opened.listed
      rcases h.shelved_opened.filed.inside n c hget with rfl | ⟨r, hr, -⟩
      · unfold indexKey at hlisted
        rw [hlisted] at hget
        cases hget
        exact workflow?_list _
      · exact absurd hr List.not_mem_nil
    · refine hnone k c ?_
      rw [← hfiled.outside k fun n heq => hin ⟨n, heq⟩, ← hopened]
      exact hget
  rw [hf] at hw
  cases hw

/-- No identifier leads to a workflow from outside. -/
theorem Vacant.not_strays_identifier (h : Vacant folder here d) {id : String}
    (hid : IsIdentifier id) : ¬ Strays folder (opened folder d) id := by
  rintro ⟨c, w, hfile, -⟩
  rw [h.shelved_opened.file?_identifier hid] at hfile
  cases hfile

/-- On a disk on which the library has not been opened a call opens it. -/
theorem Vacant.run_opened (h : Vacant folder here d) (c : Call) :
    (c.run folder).run d = (c.run folder).run (opened folder d) := by
  have hprepare : (prepare folder).run d = (prepare folder).run (opened folder d) := by
    obtain ⟨d', hrun, -, -⟩ := h.prepared
    rw [h.shelved_opened.run_prepare]
    unfold opened
    rw [hrun]
  have hload : ∀ key, (load folder (.text key)).run d =
      (load folder (.text key)).run (opened folder d) := by
    intro key
    refine Effect.run_bind_congr ?_ _
    rw [Effect.run_mapError, Effect.run_mapError, hprepare]
  cases c with
  | save id now p =>
    have henter := Effect.run_bind_congr hprepare fun _ => do
      let w ← Effect.lift (ofDraft p.toDraft id now)
      add folder w
      return w
    unfold Call.run
    rw [Effect.run_map, Effect.run_map, Effect.run_mapError, Effect.run_mapError]
    unfold enter
    rw [henter]
  | update now key c =>
    unfold Call.run Library.update
    rw [Effect.run_map, Effect.run_map, Effect.run_bind_congr (hload key)]
  | recordRun now key =>
    unfold Call.run Library.recordRun
    rw [Effect.run_map, Effect.run_map, Effect.run_bind_congr (hload key)]
  | delete key =>
    unfold Call.run Library.delete
    rw [Effect.run_map, Effect.run_map, Effect.run_bind_congr (hload key)]
  | load key =>
    unfold Call.run
    rw [Effect.run_map, Effect.run_map, hload]
  | list tags =>
    unfold Call.run Library.list
    rw [Effect.run_map, Effect.run_map, Effect.run_mapError, Effect.run_mapError,
      Effect.run_bind_congr hprepare]

/-- So the library need not be opened before it is called. -/
theorem Vacant.after_eq (h : Vacant folder here d) (c : Call) (calls : List Call) :
    (c :: calls).foldl (Call.next folder) d = after folder d (c :: calls) := by
  have hnext : c.next folder d = c.next folder (opened folder d) := by
    unfold Call.next
    rw [h.run_opened c]
  unfold after
  rw [List.foldl_cons, List.foldl_cons, hnext]

/-- The calls of a library take the disk from shelf to shelf. -/
theorem Vacant.shelved (hv : Vacant folder here d) (hc : Orderly folder (opened folder d) calls) :
    Shelved folder here (opened folder d) (course folder d calls).2 (after folder d calls) ∧
      (course folder d calls).2.ids.Sublist (saved calls) := by
  -- by the last call: that the shelf is in the order of saving shows that an identifier is new
  induction calls using List.reverseRecOn with
  | nil => exact ⟨hv.shelved_opened, List.nil_sublist _⟩
  | append_singleton calls c ih =>
    obtain ⟨hshelved, hids⟩ := ih hc.before
    rw [course_concat, after_concat, saved_append]
    unfold advance
    rw [course_fst]
    obtain ⟨hsave, hkey⟩ := hc.last
    refine ⟨hshelved.next c (fun id hid => ?_) hkey, ?_⟩
    · exact ⟨(hsave id hid).1, fun hold => (hsave id hid).2 (hids.subset hold)⟩
    · exact (c.ids_turn _ _).trans (hids.append (List.Sublist.refl _))

/-! ## What is kept -/

/-- The workflow in the file of an identifier. -/
def workflowOf? (folder : String) (d : Disk) (id : String) : Option Workflow :=
  (d.file? (path folder (.text id))).bind fun c => c.workflow?.toOption

/-- The workflows that are kept, in the order of their identifiers. -/
def stored (folder : String) (d : Disk) (ids : List String) : List Workflow :=
  ids.filterMap (workflowOf? folder d)

/-- The workflows that are kept after some calls, in the order in which they were saved. -/
def kept (folder : String) (d : Disk) (calls : List Call) : List Workflow :=
  stored folder (after folder d calls) (saved calls)

theorem Shelved.workflowOf?_eq {first : Disk} {shelf : Shelf} (h : Shelved folder here first shelf d)
    {id : String} (hid : IsIdentifier id) :
    workflowOf? folder d id = (shelf.get? id).map fun e => e.record.toWorkflow := by
  unfold workflowOf?
  rw [h.file?_identifier hid]
  cases shelf.get? id with
  | none => rfl
  | some e =>
    rw [Option.map_some, Option.bind_some, workflow?_content]
    rfl

/-- The workflows in the files are those of the shelf. -/
theorem Vacant.kept_eq (hv : Vacant folder here d) (hc : Orderly folder (opened folder d) calls) :
    kept folder d calls = (course folder d calls).2.map fun e => e.record.toWorkflow := by
  obtain ⟨hshelved, hids⟩ := hv.shelved hc
  have hall : kept folder d calls =
      (saved calls).filterMap fun id =>
        ((course folder d calls).2.get? id).map fun e => e.record.toWorkflow :=
    List.filterMap_congr fun id hid => hshelved.workflowOf?_eq (hc.identifiers id hid)
  rw [hall, ← List.map_filterMap, Shelf.filterMap_get? hids hc.distinct]

end

/-- A folder on an empty disk. -/
theorem vacant_of_isName {folder : String} (h : Disk.IsName folder) : Vacant folder [folder] {} := by
  have hpath : Disk.pathOf [folder] = folder := by
    rw [Disk.pathOf_cons]
    exact String.empty_append
  have hrun : (Disk.makeFolder folder).run {} = (.ok (), { files := [], folders := [folder] }) := by
    refine Disk.run_makeFolder.2 ?_
    unfold Disk.namesOf
    rw [h.split]
    simp [Disk.makeFrom, h.ne_empty, h.ne_dot, h.ne_dots, hpath, Table.contains]
  refine ⟨?_, ?_, ?_, ?_, ?_⟩
  · rw [hrun]
  · rw [hrun]
    unfold Disk.names?
    rw [h.not_beginsWith, h.split]
    exact Disk.follow_name h _ []
  · rw [hrun]
    unfold Disk.leadsToFolder
    rw [hpath]
    simp
  · intro n hn
    rw [hrun] at hn
    have heq : Disk.lead [folder] ++ n = folder := by
      rw [← Disk.pathOf_cons]
      exact List.mem_singleton.1 hn
    have hlength := congrArg String.length heq
    unfold Disk.lead at hlength
    rw [if_neg (List.cons_ne_nil _ _), hpath, String.length_append, String.length_append] at hlength
    have hone : String.length "/" = 1 := rfl
    omega
  · intro n
    rfl

/-- On an empty disk the identifiers are all that matters. -/
theorem orderly_of_empty {folder : String} (h : Disk.IsName folder) {calls : List Call}
    (hid : ∀ id ∈ saved calls, IsIdentifier id) (hdistinct : (saved calls).Nodup) :
    Orderly folder (opened folder {}) calls where
  identifiers := hid
  distinct := hdistinct
  within := fun key _ =>
    (vacant_of_isName h).not_strays (fun k c hc => absurd hc (by simp)) key

end Library

end BrowserFlow
