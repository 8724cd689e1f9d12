import BrowserFlow.Proofs.Disk.Writing
import BrowserFlow.Proofs.Json.Writable
import BrowserFlow.Proofs.Library.Course

/-!
# What a failed call leaves behind

Saving, changing and deleting a workflow are done in three stages (`Mutation.stages`): it is found
out what the workflow is to be, its file is written or removed, and the index is brought up to date.
The index is read only in the third stage, so a call can fail when the file of the workflow has
already been changed.

The first stage makes at most an index (`plan_disk`), the second changes one file or none
(`place_cases`), and the third fails only as long as the index is as it was (`tell_error`): what was
read from the index and what is told of a workflow that has a JSON text can always be written. So a
failed call leaves the library as it was unless it came to the file of the workflow, and then that
file alone tells what went wrong (`failed_intact_iff`).
-/

namespace BrowserFlow

namespace Library

/-- A call that changes the library. -/
inductive Mutation
  | save (draft : Draft)
  | update (id : Value) (c : Changes)
  | delete (name : Value)

namespace Mutation

def call (folder : String) : Mutation → Effect Failure World Unit
  | save draft => (fun _ => ()) <$> Effect.mapError .fault (Library.save folder draft)
  | update id c => do
    let now ← World.now
    (fun _ => ()) <$> World.onDisk (Library.update folder now id c)
  | delete name => World.onDisk (Library.delete folder name)

/-! ## Stages -/

/-- What the workflow is to be, or which one is to be removed. A new one gets the identifier `id`.
-/
def plan (folder id now : String) : Mutation → Effect Failure Disk Workflow
  | save draft => Effect.mapError .fault do
    prepare folder
    Effect.lift (ofDraft draft id now)
  | update key c => do
    let v ← load folder key
    Effect.mapError .fault (Effect.lift (changed c now v))
  | delete name => load folder name

/-- Writes the file of the workflow, or removes it. -/
def place (folder : String) (v : Workflow) : Mutation → Effect Fault Disk Unit
  | save _ | update _ _ => write folder v
  | delete _ => Disk.remove (path folder v.id)

/-- The index brought up to date. -/
def entry (v : Workflow) : Mutation → Value → Except Fault Value
  | save _ => withItem v
  | update _ _ => refreshItems v
  | delete _ => withoutItem v

/-- Brings the index up to date. -/
def tell (folder : String) (v : Workflow) (m : Mutation) : Effect Fault Disk Unit := do
  let updated ← Effect.lift (m.entry v (← index folder))
  Disk.writeJson false (indexPath folder) updated

def stages (folder id now : String) (m : Mutation) : Effect Failure Disk Workflow := do
  let v ← m.plan folder id now
  Effect.mapError .fault do
    m.place folder v
    m.tell folder v
    return v

variable {folder id now : String}

theorem update_eq (id : String) (key : Value) (c : Changes) :
    Library.update folder now key c = (update key c).stages folder id now := by
  unfold stages plan Library.update
  rw [bind_assoc]
  congr 1
  funext v
  rw [← Effect.mapError_bind]
  simp only [place, tell, entry, bind_assoc]

theorem delete_eq (id now : String) (name : Value) :
    Library.delete folder name = (fun _ => ()) <$> (delete name).stages folder id now := by
  unfold stages plan Library.delete
  rw [map_bind]
  congr 1
  funext v
  show _ = Effect.mapError Failure.fault _ >>= fun _ => pure ()
  have hpure : (fun _ => pure ()) = fun _ : Workflow =>
    Effect.mapError Failure.fault (pure () : Effect Fault Disk Unit) := rfl
  rw [hpure, ← Effect.mapError_bind]
  simp only [place, tell, entry, bind_assoc, pure_bind, bind_pure_unit]

theorem enter_eq (draft : Draft) :
    Effect.mapError .fault (enter folder id now draft) = (save draft).stages folder id now := by
  unfold stages plan enter
  simp only [Effect.mapError_bind, place, tell, entry, add, bind_assoc]

/-- Saving is entering with the next identifier, whether or not the library can be prepared. -/
theorem run_save_enter (folder : String) (draft : Draft) (w : World) :
    let entered :=
      (enter folder (World.identifier (w.drawn + 1)) (Clock.iso w.clock) draft).run w.disk
    ((Library.save folder draft).run w).1 = entered.1 ∧
      ((Library.save folder draft).run w).2.disk = entered.2 := by
  cases hprepare : (prepare folder).run w.disk with
  | mk r d =>
    cases r with
    | ok u =>
      rw [run_save folder draft w hprepare]
      exact ⟨rfl, rfl⟩
    | error f =>
      unfold Library.save World.onDisk enter
      dsimp only
      rw [Effect.run_bind_error hprepare, Effect.run_bind, Effect.run_zoom, hprepare]
      exact ⟨rfl, rfl⟩

/-- A call is its three stages, with the next identifier and at the time of the clock. -/
theorem run_call (m : Mutation) (folder : String) (w : World) :
    ((m.call folder).run w).1 =
        ((m.stages folder (World.identifier (w.drawn + 1)) (Clock.iso w.clock)).run w.disk).1.map
          (fun _ => ()) ∧
      ((m.call folder).run w).2.disk =
        ((m.stages folder (World.identifier (w.drawn + 1)) (Clock.iso w.clock)).run w.disk).2 := by
  cases m with
  | save draft =>
    obtain ⟨hresult, hdisk⟩ := run_save_enter folder draft w
    unfold call
    rw [Effect.run_map, Effect.run_mapError, ← enter_eq, Effect.run_mapError, hresult]
    exact ⟨rfl, hdisk⟩
  | update key c =>
    have hnow : (World.now : Effect Failure World String).run w =
        (.ok (Clock.iso w.clock), w) := rfl
    have hcall : ((update key c).call folder).run w = ((fun _ => ()) <$>
        World.onDisk (Library.update folder (Clock.iso w.clock) key c)).run w :=
      Effect.run_bind_ok hnow
    rw [hcall, Effect.run_map, ← update_eq]
    exact ⟨rfl, rfl⟩
  | delete name =>
    unfold call World.onDisk
    rw [Effect.run_zoom, delete_eq, Effect.run_map]
    exact ⟨rfl, rfl⟩

end Mutation

/-! ## The first stage -/

section

variable {folder id now : String} {d : Disk}

/-- The library as it was, but for an index that has been made. -/
def Intact (folder : String) (d d' : Disk) : Prop :=
  ∀ k, d'.textAt k = d.textAt k ∨
    d.textAt k = none ∧ d'.resolve? (indexPath folder) = some k ∧ d'.textAt k = some "[]"

theorem Intact.of_files {d' : Disk} (h : d'.files = d.files) : Intact folder d d' := by
  intro k
  unfold Disk.textAt
  rw [h]
  exact Or.inl rfl

/-- The index is made where there was no file. -/
theorem Intact.put_index {made : Disk} {k : String} (hfiles : made.files = d.files)
    (hindex : made.resolve? (indexPath folder) = some k) (habsent : d.files.get? k = none) :
    Intact folder d
      { made with files := made.files.put k (Disk.jsonLeft false (.list [])) } := by
  intro other
  have hput : ({ made with
      files := made.files.put k (Disk.jsonLeft false (.list [])) } : Disk).textAt other =
        if k = other then some "[]" else d.textAt other := by
    unfold Disk.textAt
    rw [Table.get?_put, hfiles]
    split
    · rfl
    · rfl
  rw [hput]
  by_cases hother : k = other
  · subst hother
    refine Or.inr ⟨?_, ?_, if_pos rfl⟩
    · unfold Disk.textAt
      rw [habsent]
      rfl
    · rw [Disk.resolve?_files]
      exact hindex
  · exact Or.inl (if_neg hother)

theorem intact_opened (folder : String) (d : Disk) : Intact folder d (opened folder d) := by
  unfold opened
  cases hrun : (prepare folder).run d with
  | mk r d' =>
    unfold prepare at hrun
    rcases Effect.bind_cases hrun with ⟨f, hmake, -⟩ | ⟨u, made, hmake, hrest⟩
    · have hsame : d' = d := by
        unfold Disk.makeFolder at hmake
        rw [Effect.run_of] at hmake
        split at hmake
        · cases hmake
        · exact (Prod.mk.inj hmake).2.symm
      exact Intact.of_files (congrArg Disk.files hsame)
    have hfiles : made.files = d.files := (Disk.makeFrom_grows (Disk.run_makeFolder.1 hmake)).1
    rw [Effect.run_bind_ok (Effect.run_get made)] at hrest
    by_cases hthere : made.has (indexPath folder) = true
    · rw [hthere] at hrest
      have hsame : made = d' := (Prod.mk.inj hrest).2
      exact Intact.of_files (hsame ▸ hfiles)
    · rw [Bool.not_eq_true] at hthere
      rw [hthere] at hrest
      have hrest : (Disk.writeJson false (indexPath folder) (.list [])).run made = (r, d') := hrest
      rcases Disk.writeJson_cases made false (indexPath folder) (.list []) with
        ⟨k, hopens, hwrite⟩ | ⟨-, f, -, hwrite⟩
      · have habsent : d.files.get? k = none := by
          unfold Disk.has at hthere
          rw [hopens.not_isFolder, hopens.file?, hfiles] at hthere
          simpa using hthere
        obtain ⟨-, rfl⟩ := Prod.mk.inj (hwrite.symm.trans hrest)
        exact Intact.put_index hfiles hopens.resolve? habsent
      · obtain ⟨-, rfl⟩ := Prod.mk.inj (hwrite.symm.trans hrest)
        exact Intact.of_files hfiles

theorem keeps_index {γ : Type} {view : Disk → γ} (folder : String) :
    Effect.Keeps view (index folder) := by
  unfold index
  refine Effect.keeps_get_bind fun d => Effect.keeps_ite (Effect.keeps_pure _) ?_
  refine Effect.keeps_bind (Disk.keeps_read _) fun c => ?_
  exact Effect.keeps_ite (Effect.keeps_pure _) (Effect.keeps_lift _)

theorem keeps_locate {γ : Type} {view : Disk → γ} (folder : String) (name : Value) :
    Effect.Keeps view (locate folder name) := by
  unfold locate
  refine Effect.keeps_get_bind fun d => Effect.keeps_ite (Effect.keeps_pure _) ?_
  extract_lets search
  have hsearch : ∀ lowered, Effect.Keeps view (search lowered) := by
    intro lowered
    refine Effect.keeps_bind (Effect.keeps_mapError ?_) fun found => ?_
    · refine Effect.keeps_bind (keeps_index folder) fun i => ?_
      refine Effect.keeps_bind (Effect.keeps_lift _) fun items => ?_
      refine Effect.keeps_bind (Effect.keeps_lift _) fun item => ?_
      split
      · exact Effect.keeps_map (Effect.keeps_lift _)
      · exact Effect.keeps_pure _
    · split
      · exact Effect.keeps_pure _
      · exact Effect.keeps_throw _
  split
  · exact Effect.keeps_bind (Effect.keeps_pure _) hsearch
  · exact Effect.keeps_bind (Effect.keeps_throw _) hsearch

/-- Looking up changes nothing once the library is prepared. -/
theorem load_disk (folder : String) (name : Value) (d : Disk) :
    ((load folder name).run d).2 = opened folder d := by
  unfold load opened
  rw [Effect.run_bind, Effect.run_mapError]
  cases hprepare : (prepare folder).run d with
  | mk r d' =>
    cases r with
    | error f => rfl
    | ok u =>
      have hkeeps : Effect.Keeps (fun d : Disk => d) (locate folder name >>= fun path =>
          Effect.mapError Failure.fault (Disk.read path >>= fun content =>
            Effect.lift content.value >>= fun v => Effect.lift (Workflow.ofValue v))) := by
        refine Effect.keeps_bind (keeps_locate folder name) fun p => Effect.keeps_mapError ?_
        refine Effect.keeps_bind (Disk.keeps_read p) fun c => ?_
        exact Effect.keeps_bind (Effect.keeps_lift _) fun v => Effect.keeps_lift _
      exact hkeeps d'

namespace Mutation

/-- The first stage opens the library and does no more. -/
theorem plan_disk (m : Mutation) (folder id now : String) (d : Disk) :
    ((m.plan folder id now).run d).2 = opened folder d := by
  cases m with
  | save draft =>
    unfold plan opened
    rw [Effect.run_mapError, Effect.run_bind]
    cases (prepare folder).run d with
    | mk r d' =>
      cases r with
      | error f => rfl
      | ok u => rfl
  | update key c =>
    unfold plan
    rw [Effect.run_bind, ← load_disk folder key d]
    cases (load folder key).run d with
    | mk r d' =>
      cases r with
      | error f => rfl
      | ok v => rfl
  | delete name => exact load_disk folder name d

/-! ## The second stage -/

/-- The file at a path to which the second stage comes: it can be opened for writing, or it is there
to be removed. -/
def Comes (p k : String) (d : Disk) : Mutation → Prop
  | save _ | update _ _ => Disk.Opens p k d
  | delete _ => d.isFolder p = false ∧ d.resolve? p = some k ∧ (d.files.get? k).isSome = true

/-- Whether the workflow can be placed: one that is written needs a JSON text. -/
def fits (v : Workflow) : Mutation → Bool
  | save _ | update _ _ => Json.writable false v.toValue
  | delete _ => true

/-- The files with that of the workflow written, or emptied if the workflow has no JSON text, or
removed. -/
def placed (k : String) (v : Workflow) (files : Table Content) : Mutation → Table Content
  | save _ | update _ _ => files.put k (Disk.jsonLeft false v.toValue)
  | delete _ => files.erase k

/-- The second stage changes the file to which it comes, or fails and leaves the disk. -/
theorem place_cases (m : Mutation) (folder : String) (v : Workflow) (d : Disk) :
    (∃ k, m.Comes (path folder v.id) k d ∧ (m.place folder v).run d =
        (if m.fits v then .ok () else .error Disk.notSerializable,
          { d with files := m.placed k v d.files })) ∨
      (∀ k, ¬ m.Comes (path folder v.id) k d) ∧ ∃ f, (m.place folder v).run d = (.error f, d) := by
  have hwrite : (∃ k, Disk.Opens (path folder v.id) k d ∧ (write folder v).run d =
        (if Json.writable false v.toValue then .ok () else .error Disk.notSerializable,
          { d with files := d.files.put k (Disk.jsonLeft false v.toValue) })) ∨
      (∀ k, ¬ Disk.Opens (path folder v.id) k d) ∧ ∃ f, (write folder v).run d = (.error f, d) := by
    rcases Disk.writeJson_cases d false (path folder v.id) v.toValue with hput | ⟨hnone, f, -, hrun⟩
    · exact Or.inl hput
    · exact Or.inr ⟨hnone, f, hrun⟩
  cases m with
  | save draft => exact hwrite
  | update key c => exact hwrite
  | delete name =>
    show (∃ k, (_ ∧ _ ∧ _) ∧ (Disk.remove (path folder v.id)).run d = _) ∨
      (∀ k, ¬ (_ ∧ _ ∧ _)) ∧ ∃ f, (Disk.remove (path folder v.id)).run d = _
    rw [Disk.run_remove]
    cases hfolder : d.isFolder (path folder v.id) with
    | true => exact Or.inr ⟨fun k hk => (by cases hk.1), .folder, rfl⟩
    | false =>
      cases hresolve : d.resolve? (path folder v.id) with
      | none => exact Or.inr ⟨fun k hk => (by cases hk.2.1), .noFile, rfl⟩
      | some k =>
        cases hthere : (d.files.get? k).isSome with
        | true => exact Or.inl ⟨k, ⟨rfl, rfl, hthere⟩, by simp [fits, placed, hthere]⟩
        | false =>
          refine Or.inr ⟨?_, .noFile, by simp [hthere]⟩
          rintro other ⟨-, hother, hsome⟩
          rw [Option.some.inj hother, hsome] at hthere
          cases hthere

/-! ## The third stage -/

theorem writable_indexItem {v : Workflow} (h : Json.writable false v.toValue = true) :
    ∀ f ∈ v.indexItem, Json.writable false f.2 = true := by
  intro f hf
  refine Json.writable_record.1 h f ?_
  simp only [Workflow.indexItem, List.mem_cons, List.not_mem_nil, or_false] at hf
  simp only [List.mem_cons, List.not_mem_nil, or_false]
  tauto

theorem members_writable {v : Value} {items : List Value} (hv : Json.writable false v = true)
    (h : v.members = .ok items) : ∀ x ∈ items, Json.writable false x = true := by
  cases v with
  | list vs =>
    cases h
    exact Json.writable_list.1 hv
  | pair a b =>
    cases h
    simpa [Json.writable] using hv
  | map entries =>
    cases h
    intro x hx
    obtain ⟨e, he, rfl⟩ := List.mem_map.1 hx
    have hkey : Json.isScalarKey e.1 = true := (Json.writable_map.1 hv e he).1
    cases hx : e.1 <;> simp_all [Json.isScalarKey, Json.writable, Json.isForeign]
  | text s =>
    cases h
    intro x hx
    obtain ⟨c, -, rfl⟩ := List.mem_map.1 hx
    rfl
  | set vs => cases hv
  | bytes data => cases hv
  | _ => cases h

theorem refreshed_writable {v : Workflow} {item : Value} (hv : Json.writable false v.toValue = true)
    (hitem : Json.writable false item = true) : Json.writable false (refreshed v item) = true := by
  unfold refreshed
  split
  · rename_i entries
    have hfields := writable_indexItem hv
    revert hfields hitem
    generalize v.indexItem = fields
    intro hitem hfields
    induction fields generalizing entries with
    | nil => exact hitem
    | cons f rest ih =>
      rw [List.foldl_cons]
      refine ih _ ?_ ?_
      · exact Json.entriesWritable_putEntry hitem rfl (hfields f List.mem_cons_self)
      · exact fun g hg => hfields g (List.mem_cons_of_mem _ hg)
  · exact hitem

/-- An index that can be written can be written again when it has been told of a workflow that can.
-/
theorem entry_writable {m : Mutation} {v : Workflow} {i updated : Value} (hfits : m.fits v = true)
    (hi : Json.writable false i = true) (h : m.entry v i = .ok updated) :
    Json.writable false updated = true := by
  cases m with
  | save draft =>
    have h : withItem v i = .ok updated := h
    unfold withItem at h
    split at h
    · cases h
      rename_i items
      refine Json.writable_list.2 fun x hx => ?_
      rcases List.mem_append.1 hx with hx | hx
      · exact Json.writable_list.1 hi x hx
      · rw [List.mem_singleton.1 hx]
        exact Json.writable_record.2 (writable_indexItem hfits)
    · cases h
  | update key c =>
    have h : refreshItems v i = .ok updated := h
    unfold refreshItems at h
    obtain ⟨members, hmembers, h⟩ := bind_eq_ok h
    obtain ⟨items, hmap, h⟩ := bind_eq_ok h
    split at h
    · cases h
      refine Json.writable_list.2 fun y hy => ?_
      obtain ⟨x, hx, hy⟩ := mem_of_mapM hmap y hy
      obtain ⟨same, -, hy⟩ := bind_eq_ok hy
      have hxw : Json.writable false x = true := members_writable hi hmembers x hx
      cases same with
      | true =>
        cases hy
        exact refreshed_writable hfits hxw
      | false =>
        cases hy
        exact hxw
    · cases h
      exact hi
  | delete name =>
    have h : withoutItem v i = .ok updated := h
    unfold withoutItem at h
    obtain ⟨members, hmembers, h⟩ := bind_eq_ok h
    obtain ⟨kept, hkept, h⟩ := bind_eq_ok h
    cases h
    exact Json.writable_list.2 fun x hx =>
      members_writable hi hmembers x (mem_of_filterM hkept x hx)

theorem index_writable {folder : String} {d d' : Disk} {i : Value}
    (h : (index folder).run d = (.ok i, d')) : Json.writable false i = true := by
  unfold index at h
  rw [Effect.run_bind_ok (Effect.run_get d)] at h
  split at h
  · cases h
    rfl
  · obtain ⟨c, t, -, h⟩ := Effect.bind_ok h
    split at h
    · cases h
      rfl
    · exact Content.writable_value (Prod.mk.inj h).1

/-- If the third stage fails the index is as it was. -/
theorem tell_error {m : Mutation} {folder : String} {v : Workflow} {d d' : Disk} {f : Fault}
    (hfits : m.fits v = true) (h : (m.tell folder v).run d = (.error f, d')) : d' = d := by
  have hkeeps : Effect.Keeps (fun d : Disk => d) (index folder) := keeps_index folder
  unfold tell at h
  rcases Effect.bind_cases h with ⟨e, hindex, -⟩ | ⟨i, t, hindex, htell⟩
  · exact hkeeps.of_run hindex
  obtain rfl : t = d := hkeeps.of_run hindex
  rcases Effect.bind_cases htell with ⟨e, hentry, -⟩ | ⟨updated, t', hentry, hwrite⟩
  · exact (Prod.mk.inj hentry).2.symm
  obtain ⟨htold, rfl⟩ := Prod.mk.inj hentry
  have hupdated : Json.writable false updated = true :=
    entry_writable hfits (index_writable hindex) htold
  rcases Disk.writeJson_cases t false (indexPath folder) updated with
    ⟨k, -, hrun⟩ | ⟨-, e, -, hrun⟩
  · rw [hrun, if_pos hupdated] at hwrite
    cases hwrite
  · rw [hrun] at hwrite
    exact (Prod.mk.inj hwrite).2.symm

/-! ## Failed calls -/

theorem Comes.unique {m : Mutation} {p k k' : String} (h : m.Comes p k d) (h' : m.Comes p k' d) :
    k = k' := by
  have hopens : ∀ {k k'}, Disk.Opens p k d → Disk.Opens p k' d → k = k' := Disk.Opens.unique
  cases m with
  | save draft => exact hopens h h'
  | update key c => exact hopens h h'
  | delete name => exact Option.some.inj (h.2.1.symm.trans h'.2.1)

/-- A call comes to the file `k` of the workflow `v`. -/
structure Reaches (folder : String) (w : World) (v : Workflow) (k : String) (m : Mutation) :
    Prop where
  planned : ((m.plan folder (World.identifier (w.drawn + 1)) (Clock.iso w.clock)).run w.disk).1 =
    .ok v
  comes : m.Comes (path folder v.id) k (opened folder w.disk)

/-- What is left of a failed call that came to the file `k` of the workflow `v`: that file is
written, emptied or removed and nothing else is changed, because the workflow has no JSON text or
because the index could not be brought up to date. -/
structure Stranded (folder : String) (v : Workflow) (k : String) (d d' : Disk) (e : Failure)
    (m : Mutation) : Prop where
  left : d' = { d with files := m.placed k v d.files }
  cause : m.fits v = false ∧ e = .fault Disk.notSerializable ∨
    m.fits v = true ∧ ∃ f, (m.tell folder v).run d' = (.error f, d') ∧ e = .fault f

/-- Where what is behind the first stage fails, it came to no file and left the disk as it was, or it
is stranded. -/
theorem work_cases {m : Mutation} {v : Workflow} {d d' : Disk} {f : Fault}
    (h : (do
      m.place folder v
      m.tell folder v
      return v : Effect Fault Disk Workflow).run d = (.error f, d')) :
    (∀ k, ¬ m.Comes (path folder v.id) k d) ∧ d' = d ∨
      ∃ k, m.Comes (path folder v.id) k d ∧ m.Stranded folder v k d d' (.fault f) := by
  rcases m.place_cases folder v d with ⟨k, hcomes, hplace⟩ | ⟨hnone, f', hplace⟩
  · refine Or.inr ⟨k, hcomes, ?_⟩
    cases hfits : m.fits v with
    | false =>
      rw [hfits] at hplace
      rw [Effect.run_bind_error hplace] at h
      obtain ⟨hf, hd⟩ := Prod.mk.inj h
      exact ⟨hd.symm, Or.inl ⟨hfits, congrArg Failure.fault (Except.error.inj hf).symm⟩⟩
    | true =>
      rw [hfits] at hplace
      rw [Effect.run_bind_ok hplace] at h
      rcases Effect.bind_cases h with ⟨f', htell, hf⟩ | ⟨u, t, -, hpure⟩
      · obtain rfl : f = f' := Except.error.inj hf
        have hsame := tell_error hfits htell
        exact ⟨hsame, Or.inr ⟨hfits, f, hsame ▸ htell, rfl⟩⟩
      · cases hpure
  · rw [Effect.run_bind_error hplace] at h
    exact Or.inl ⟨hnone, (Prod.mk.inj h).2.symm⟩

/-- A failed call came to no file and left the disk as it was opened, or it is stranded. -/
theorem failed_cases {m : Mutation} {w w' : World} {e : Failure}
    (h : (m.call folder).run w = (.error e, w')) :
    (∀ v k, ¬ m.Reaches folder w v k) ∧ w'.disk = opened folder w.disk ∨
      ∃ v k, m.Reaches folder w v k ∧ m.Stranded folder v k (opened folder w.disk) w'.disk e := by
  obtain ⟨hresult, hdisk⟩ := run_call m folder w
  rw [h] at hresult hdisk
  cases hstages :
      (m.stages folder (World.identifier (w.drawn + 1)) (Clock.iso w.clock)).run w.disk with
  | mk r d' =>
    rw [hstages] at hresult hdisk
    obtain rfl : w'.disk = d' := hdisk
    obtain rfl : r = .error e := by
      cases r with
      | error e' => exact congrArg Except.error (Except.error.inj hresult).symm
      | ok v => cases hresult
    have hopened := m.plan_disk folder (World.identifier (w.drawn + 1)) (Clock.iso w.clock) w.disk
    rcases Effect.bind_cases hstages with ⟨e', hplan, -⟩ | ⟨v, d, hplan, hrest⟩
    · rw [hplan] at hopened
      refine Or.inl ⟨fun v k hreaches => ?_, hopened⟩
      have hplanned := hreaches.planned
      rw [hplan] at hplanned
      cases hplanned
    rw [hplan] at hopened
    obtain rfl : d = opened folder w.disk := hopened
    rw [Effect.run_mapError] at hrest
    obtain ⟨hfault, hleft⟩ := Prod.mk.inj hrest
    cases hworked : (do
        m.place folder v
        m.tell folder v
        return v : Effect Fault Disk Workflow).run (opened folder w.disk) with
    | mk r d' =>
      rw [hworked] at hfault hleft
      obtain rfl : d' = w'.disk := hleft
      cases r with
      | ok v' => cases hfault
      | error f =>
        obtain rfl : Failure.fault f = e := Except.error.inj hfault
        rcases work_cases hworked with ⟨hnone, hsame⟩ | ⟨k, hcomes, hstranded⟩
        · refine Or.inl ⟨fun v' k hreaches => ?_, hsame⟩
          have hplanned := hreaches.planned
          rw [hplan] at hplanned
          cases hplanned
          exact hnone k hreaches.comes
        · exact Or.inr ⟨v, k, ⟨by rw [hplan], hcomes⟩, hstranded⟩

/-- The text of a workflow begins with a brace. -/
theorem text_workflow_ne (v : Workflow) : (Content.json v.toValue).toText ≠ "[]" := by
  have hbrace : ∃ t, (Content.json v.toValue).toText = "\x7b" ++ t := by
    show ∃ t, "\x7b" ++ Json.newline 1 ++ ("," ++ Json.newline 1).intercalate (_ :: _) ++
      Json.newline 0 ++ "\x7d" = "\x7b" ++ t
    simp only [String.append_assoc]
    exact ⟨_, rfl⟩
  obtain ⟨t, ht⟩ := hbrace
  intro h
  have hhead := congrArg (fun s : String => s.toList.head?) (ht.symm.trans h)
  simp at hhead

/-- What is placed is no empty list. -/
theorem textAt_placed (m : Mutation) (k : String) (v : Workflow) (d : Disk) :
    ({ d with files := m.placed k v d.files } : Disk).textAt k ≠ some "[]" := by
  have hput : ({ d with files := d.files.put k (Disk.jsonLeft false v.toValue) } : Disk).textAt k ≠
      some "[]" := by
    unfold Disk.textAt Disk.jsonLeft
    rw [Table.get?_put, if_pos rfl]
    split
    · exact fun h => text_workflow_ne v (Option.some.inj h)
    · exact fun h => absurd (Option.some.inj h) (by decide)
  cases m with
  | save draft => exact hput
  | update key c => exact hput
  | delete name =>
    unfold Disk.textAt placed
    rw [Table.get?_erase, if_pos rfl]
    simp

theorem textAt_placed_ne {m : Mutation} {k other : String} {v : Workflow} (d : Disk)
    (h : k ≠ other) :
    ({ d with files := m.placed k v d.files } : Disk).textAt other = d.textAt other := by
  unfold Disk.textAt
  cases m with
  | save draft => exact congrArg _ ((Table.get?_put _ _ _ _).trans (if_neg h))
  | update key c => exact congrArg _ ((Table.get?_put _ _ _ _).trans (if_neg h))
  | delete name => exact congrArg _ ((Table.get?_erase _ _ _).trans (if_neg (Ne.symm h)))

/-- A failed call leaves the library as it was, but for an index that has been made, unless it came
to the file of a workflow whose text has changed; and if it came to one it is stranded. -/
theorem failed_intact_iff {m : Mutation} {w w' : World} {e : Failure}
    (h : (m.call folder).run w = (.error e, w')) :
    (Intact folder w.disk w'.disk ↔
        ∀ v k, m.Reaches folder w v k → w'.disk.textAt k = w.disk.textAt k) ∧
      ∀ v k, m.Reaches folder w v k → m.Stranded folder v k (opened folder w.disk) w'.disk e := by
  have hopened : Intact folder w.disk (opened folder w.disk) := intact_opened folder w.disk
  rcases failed_cases h with ⟨hnone, hdisk⟩ | ⟨v, k, hreaches, hstranded⟩
  · rw [hdisk]
    exact ⟨iff_of_true hopened fun v k hreaches => absurd hreaches (hnone v k),
      fun v k hreaches => absurd hreaches (hnone v k)⟩
  have honly : ∀ v' k', m.Reaches folder w v' k' → v' = v ∧ k' = k := by
    intro v' k' h'
    obtain rfl : v' = v := Except.ok.inj (h'.planned.symm.trans hreaches.planned)
    exact ⟨rfl, h'.comes.unique hreaches.comes⟩
  have hresolve : ∀ p, w'.disk.resolve? p = (opened folder w.disk).resolve? p := by
    intro p
    rw [hstranded.left, Disk.resolve?_files]
  refine ⟨⟨fun hintact v' k' h' => ?_, fun hsame other => ?_⟩, fun v' k' h' => ?_⟩
  · obtain ⟨rfl, rfl⟩ := honly v' k' h'
    rcases hintact k' with hsame | ⟨-, -, hmade⟩
    · exact hsame
    · -- an index that has just been made is not what is placed
      rw [hstranded.left] at hmade
      exact absurd hmade (m.textAt_placed k' v' _)
  · by_cases hother : k = other
    · exact Or.inl (hother ▸ hsame v k hreaches)
    · have hkept : w'.disk.textAt other = (opened folder w.disk).textAt other := by
        rw [hstranded.left]
        exact textAt_placed_ne _ hother
      rw [hkept, hresolve]
      exact hopened other
  · obtain ⟨rfl, rfl⟩ := honly v' k' h'
    exact hstranded

/-- Where no workflow is found nothing is removed, and only an index is made. -/
theorem failed_intact_iff_missing :
    ((delete (.text "Titles")).call "wf").run {} =
        (.error (.notFound "Titles"), (((delete (.text "Titles")).call "wf").run {}).2) ∧
      Intact "wf" {} (((delete (.text "Titles")).call "wf").run {}).2.disk := by
  have hfailed : ((delete (.text "Titles")).call "wf").run {} =
      (.error (.notFound "Titles"), (((delete (.text "Titles")).call "wf").run {}).2) :=
    Prod.ext rfl rfl
  refine ⟨hfailed, (failed_intact_iff hfailed).1.2 fun v k hreaches => ?_⟩
  have hplan : ((plan "wf" (World.identifier 1) (Clock.iso 0) (delete (.text "Titles"))).run {}).1 =
      .error (.notFound "Titles") := rfl
  have hplanned := hreaches.planned
  rw [hplan] at hplanned
  cases hplanned

/-- A disk with a library whose index is no JSON text. -/
def spoilt : World :=
  { disk := { files := [("wf/index.json", .text "\x7b")], folders := ["wf"] } }

def titles : Draft :=
  { name := .text "Titles", intent := .text "read", document := .text "- press: End\n" }

/-- Over such an index saving fails, but the file of the workflow has been added. -/
theorem not_intact_spoilt :
    ((save titles).call "wf").run spoilt =
        (.error (.fault .notJson), (((save titles).call "wf").run spoilt).2) ∧
      ¬ Intact "wf" spoilt.disk (((save titles).call "wf").run spoilt).2.disk := by
  refine ⟨Prod.ext rfl rfl, fun hintact => ?_⟩
  have hadded := hintact "wf/00000100-0000-4000-8000-000000000000.json"
  revert hadded
  decide +kernel

end Mutation

end


end Library
end BrowserFlow
