import BrowserFlow.Proofs.Library.Lookup
import BrowserFlow.World.Keeping

/-!
# What the operations do to a shelf

Each operation of the library takes a disk that holds a shelf to a disk that holds the next one: a
new workflow comes last, a revision and a run change the entry of the workflow, and a deletion takes
it away. All but the first begin by looking the workflow up, and where nothing is found they leave
the disk.

What a run leaves behind is that the index is not told of it (`Entry.counted`), while a revision
tells it of all (`Entry.revised`).
-/

namespace BrowserFlow

namespace Library

/-! ## Changes of a shelf -/

/-- The entry of a new workflow. -/
def Entry.fresh (p : Proposal) (id now : String) : Entry :=
  ⟨p.record id now, 0⟩

/-- An entry after a revision, of which the index is told. -/
def Entry.revised (now : String) (c : Revision) (e : Entry) : Entry :=
  ⟨e.record.revised now c, e.record.executions⟩

/-- An entry after a run, of which the index is not told. -/
def Entry.counted (now : String) (e : Entry) : Entry :=
  ⟨e.record.counted now, e.told⟩

theorem Entry.id_revised (now : String) (c : Revision) (e : Entry) : (e.revised now c).id = e.id := rfl

theorem Entry.id_counted (now : String) (e : Entry) : (e.counted now).id = e.id := rfl

/-- Whether a record has one of some tags; if there are none, each has. -/
def Record.isTagged (tags : Option (List String)) (r : Record) : Bool :=
  match tags.getD [] with
  | [] => true
  | tag :: tags => (tag :: tags).any fun t => t ∈ r.tags

namespace Shelf

variable {shelf : Shelf} {id : String} {f : Entry → Entry}

theorem ids_alter (hf : ∀ e, (f e).id = e.id) : (shelf.alter id f).ids = shelf.ids := by
  unfold ids alter
  rw [List.map_map]
  refine List.map_congr_left fun e _ => ?_
  show (if e.id = id then f e else e).id = e.id
  split
  · exact hf e
  · rfl

theorem mem_alter {x : Entry} :
    x ∈ shelf.alter id f ↔ (∃ e ∈ shelf, e.id = id ∧ x = f e) ∨ x ∈ shelf ∧ x.id ≠ id := by
  unfold alter
  rw [List.mem_map]
  constructor
  · rintro ⟨e, he, rfl⟩
    by_cases hid : e.id = id
    · rw [if_pos hid]
      exact Or.inl ⟨e, he, hid, rfl⟩
    · rw [if_neg hid]
      exact Or.inr ⟨he, hid⟩
  · rintro (⟨e, he, hid, rfl⟩ | ⟨he, hid⟩)
    · exact ⟨e, he, if_pos hid⟩
    · exact ⟨x, he, if_neg hid⟩

theorem mem_without {x : Entry} : x ∈ shelf.without id ↔ x ∈ shelf ∧ x.id ≠ id := by
  unfold without
  rw [List.mem_filter, decide_eq_true_iff]

theorem ids_without : (shelf.without id).ids = shelf.ids.filter fun i => i ≠ id := by
  unfold ids without
  rw [List.filter_map]
  rfl

theorem get?_alter (hf : ∀ e, (f e).id = e.id) (other : String) :
    (shelf.alter id f).get? other =
      (shelf.get? other).map fun e => if e.id = id then f e else e := by
  unfold get? alter
  rw [List.find?_map]
  congr 2
  funext e
  show decide ((if e.id = id then f e else e).id = other) = decide (e.id = other)
  split
  · rw [hf e]
  · rfl

theorem get?_without (other : String) :
    (shelf.without id).get? other = if other = id then none else shelf.get? other := by
  unfold get? without
  rw [List.find?_filter]
  by_cases hother : other = id
  · subst hother
    rw [if_pos rfl, List.find?_eq_none]
    intro e _
    simp
  · rw [if_neg hother]
    congr 1
    funext e
    by_cases he : e.id = other
    · simp [he, hother]
    · simp [he]

theorem get?_append (e : Entry) (id : String) :
    Shelf.get? (shelf ++ [e]) id = (shelf.get? id).or (if e.id = id then some e else none) := by
  unfold get?
  rw [List.find?_append, List.find?_singleton]
  simp

end Shelf

/-! ## Writing -/

section

variable {folder : String} {here : List String} {first d : Disk} {shelf : Shelf}
  {records : List Record}

/-- A record that is written is in its file. -/
theorem run_write_record (hplace : Disk.Place folder here d) {r : Record} (hid : IsIdentifier r.id) :
    (write folder r.toWorkflow).run d =
      (.ok (), { d with files := d.files.put (keyOf here r.id) r.content }) :=
  hplace.run_writeJson hid.isName r.lasting.writable

/-- The index is written. -/
theorem Stocked.run_relist (h : Stocked folder here first (shelf.map Entry.record) d) :
    ∃ d', (Disk.writeJson false (indexPath folder) (.list (shelf.map Entry.item))).run d = (.ok (), d') ∧
      Shelved folder here first shelf d' := by
  refine ⟨_, h.place.run_writeJson isName_index (lasting_items shelf).writable, ⟨?_, ?_, h.folders⟩, ?_⟩
  · exact h.place.put "index.json" _
  · exact h.filed.put_index _
  · show Table.get? (Table.put d.files (indexKey here) _) (indexKey here) = _
    rw [Table.get?_put, if_pos rfl]

/-- A record is put into its file; the index still lists what it did. -/
theorem Shelved.run_stock (h : Shelved folder here first shelf d) {r : Record}
    (hid : IsIdentifier r.id)
    (hmem : ∀ x, x ∈ records ↔ x = r ∨ x ∈ shelf.map Entry.record ∧ x.id ≠ r.id)
    (hdistinct : (records.map Record.id).Nodup) :
    ∃ d', (write folder r.toWorkflow).run d = (.ok (), d') ∧
      Stocked folder here first records d' ∧
      d'.files.get? (indexKey here) = some (.json (.list (shelf.map Entry.item))) := by
  refine ⟨_, run_write_record h.place hid, ⟨?_, ?_, h.folders⟩, ?_⟩
  · exact h.place.put (fileName r.id) _
  · exact h.filed.put hid hmem hdistinct
  · show Table.get? (Table.put d.files (keyOf here r.id) _) (indexKey here) = _
    rw [Table.get?_put, if_neg (hid.keyOf_ne here)]
    exact h.listed

end

/-- Counting a run puts the record that has been counted, which is all that it does. -/
theorem run_recordRun_of_write {folder key now : String} {d d' : Disk} {r : Record}
    (hload : (load folder (.text key)).run d = (.ok r.toWorkflow, d))
    (hwrite : (write folder (r.counted now).toWorkflow).run d = (.ok (), d')) :
    (recordRun folder now (.text key)).run d = (.ok (r.counted now).toWorkflow, d') := by
  have hcounted : (do
      let executions ← Effect.lift (successor r.toWorkflow.executions)
      write folder { r.toWorkflow with executions, lastExecuted := .text now }
      return { r.toWorkflow with executions, lastExecuted := .text now } :
        Effect Fault Disk Workflow).run d = (.ok (r.counted now).toWorkflow, d') := by
    show Effect.run (write folder (r.counted now).toWorkflow >>= _) d = _
    rw [Effect.run_bind_ok hwrite]
    rfl
  unfold recordRun
  rw [Effect.run_bind_ok hload, Effect.run_mapError, hcounted]
  rfl

/-! ## Items of the index -/

theorem isItemOf_item (r : Record) (e : Entry) : isItemOf r.toWorkflow e.item = .ok (e.id == r.id) := rfl

/-- What is told anew of a workflow takes the place of all that was told before. -/
theorem refreshed_item (r : Record) (e : Entry) :
    refreshed r.toWorkflow e.item = (⟨r, r.executions⟩ : Entry).item := rfl

/-- The index is told all of a record. -/
theorem refreshItems_items (shelf : Shelf) (r : Record) :
    refreshItems r.toWorkflow (.list (shelf.map Entry.item)) =
      .ok (.list ((shelf.alter r.id fun _ => ⟨r, r.executions⟩).map Entry.item)) := by
  have htold : ((shelf.map Entry.item).mapM fun item => do
      return if ← isItemOf r.toWorkflow item then refreshed r.toWorkflow item else item) =
      (.ok (shelf.map fun e => if e.id == r.id then (⟨r, r.executions⟩ : Entry).item else e.item) :
        Except Fault (List Value)) := by
    refine mapM_eq_ok fun e _ => ?_
    rw [isItemOf_item, ← refreshed_item r e]
    rfl
  have hmap : shelf.map (fun e => if e.id == r.id then (⟨r, r.executions⟩ : Entry).item else e.item) =
      (shelf.alter r.id fun _ => ⟨r, r.executions⟩).map Entry.item := by
    unfold Shelf.alter
    rw [List.map_map]
    refine List.map_congr_left fun e _ => ?_
    by_cases hid : e.id = r.id
    · rw [if_pos (beq_iff_eq.2 hid), Function.comp_apply, if_pos hid]
    · rw [if_neg (mt beq_iff_eq.1 hid), Function.comp_apply, if_neg hid]
  unfold refreshItems
  rw [members_list]
  show (List.mapM _ (shelf.map Entry.item) >>= fun items => Except.ok (Value.list items)) = _
  rw [htold, hmap]
  rfl

theorem withoutItem_items (shelf : Shelf) (r : Record) :
    withoutItem r.toWorkflow (.list (shelf.map Entry.item)) =
      .ok (.list ((shelf.without r.id).map Entry.item)) := by
  have hkept : ((shelf.map Entry.item).filterM fun item => do
      return !(← isItemOf r.toWorkflow item)) =
      (.ok ((shelf.filter fun e => !(e.id == r.id)).map Entry.item) : Except Fault (List Value)) := by
    refine filterM_eq_ok ?_ shelf
    intro e
    rw [isItemOf_item]
    rfl
  have hfilter : (shelf.filter fun e => !(e.id == r.id)) = shelf.without r.id := by
    unfold Shelf.without
    congr 1
    funext e
    by_cases hid : e.id = r.id
    · simp [hid]
    · simp [hid]
  unfold withoutItem
  rw [members_list]
  show (List.filterM _ (shelf.map Entry.item) >>= fun items => Except.ok (Value.list items)) = _
  rw [hkept, hfilter]
  rfl

theorem holds_text (own : List String) (t : String) :
    holds (.text t) (.texts own) = .ok (decide (t ∈ own)) := by
  show Except.ok (((own.map Value.text).any (Value.text t).same)) = _
  rw [List.any_map]
  congr 1
  rw [Bool.eq_iff_iff, List.any_eq_true, decide_eq_true_iff]
  constructor
  · rintro ⟨s, hs, hsame⟩
    rw [Function.comp_apply, Value.same_text, beq_iff_eq] at hsame
    exact hsame ▸ hs
  · intro ht
    exact ⟨t, ht, by rw [Function.comp_apply, Value.same_text, beq_self_eq_true]⟩

theorem holdsAny_texts (own tags : List String) :
    holdsAny (.texts own) (tags.map .text) = .ok (tags.any fun t => t ∈ own) := by
  induction tags with
  | nil => rfl
  | cons t tags ih =>
    rw [List.map_cons, List.any_cons]
    show (holds (.text t) (.texts own) >>= fun found =>
      if found then .ok true else holdsAny (.texts own) (tags.map .text)) = _
    rw [holds_text, ih]
    show (if decide (t ∈ own) = true then Except.ok true else _) = _
    cases decide (t ∈ own) with
    | true => rfl
    | false => rfl

theorem isTagged_item (tags : List String) (e : Entry) :
    isTagged (.texts tags) e.item = .ok (tags.any fun t => t ∈ e.record.tags) := by
  have hown : (if (e.item.field "tags").truthy then e.item.field "tags" else .list []) =
      Value.texts e.record.tags := by
    show (if (Value.texts e.record.tags).truthy then Value.texts e.record.tags else .list []) = _
    cases e.record.tags with
    | nil => rfl
    | cons tag tags => rfl
  show holdsAny (if (e.item.field "tags").truthy then e.item.field "tags" else .list [])
    (tags.map .text) = _
  rw [hown, holdsAny_texts]

/-! ## A new workflow -/

/-- Puts a new workflow with an identifier that is given into the library. -/
def enter (folder id now : String) (draft : Draft) : Effect Fault Disk Workflow := do
  prepare folder
  let w ← Effect.lift (ofDraft draft id now)
  add folder w
  return w

/-- Saving is entering with the next identifier and at the time of the clock. -/
theorem run_save (folder : String) (draft : Draft) (w : World) {d : Disk}
    (hprepare : (prepare folder).run w.disk = (.ok (), d)) :
    (save folder draft).run w =
      let entered := (enter folder (World.identifier (w.drawn + 1)) (Clock.iso w.clock) draft).run w.disk
      (entered.1, { w with drawn := w.drawn + 1, disk := entered.2 }) := by
  unfold save enter World.onDisk World.now World.draw
  simp only [Effect.run_bind, Effect.run_zoom, hprepare, Effect.run_get, Effect.run_pure,
    Effect.run_modify, Effect.run_lift]
  cases ofDraft draft (World.identifier (w.drawn + 1)) (Clock.iso w.clock) with
  | error f => rfl
  | ok v =>
    cases hadd : (add folder v).run d with
    | mk r d' => cases r with
      | error f => simp [hadd]
      | ok u => simp [hadd]

namespace Shelved

variable {folder key : String} {here : List String} {first d : Disk} {shelf : Shelf} {e : Entry}
  (h : Shelved folder here first shelf d)

include h

theorem run_enter {id : String} (hid : IsIdentifier id) (hnew : id ∉ shelf.ids) (now : String)
    (p : Proposal) :
    ∃ d', (enter folder id now p.toDraft).run d = (.ok (p.record id now).toWorkflow, d') ∧
      Shelved folder here first (shelf ++ [.fresh p id now]) d' := by
  have hmem : ∀ x, x ∈ (shelf ++ [Entry.fresh p id now]).map Entry.record ↔
      x = p.record id now ∨ x ∈ shelf.map Entry.record ∧ x.id ≠ id := by
    intro x
    rw [List.map_append, List.mem_append, List.map_singleton, List.mem_singleton, or_comm]
    refine or_congr_right (iff_self_and.2 fun hx heq => hnew ?_)
    obtain ⟨e, he, rfl⟩ := List.mem_map.1 hx
    exact List.mem_map.2 ⟨e, he, heq⟩
  have hdistinct : (((shelf ++ [Entry.fresh p id now]).map Entry.record).map Record.id).Nodup := by
    have hids : ((shelf ++ [Entry.fresh p id now]).map Entry.record).map Record.id =
        shelf.ids ++ [id] := by
      rw [List.map_map, List.map_append]
      rfl
    rw [hids]
    exact List.nodup_append.2 ⟨h.nodup_ids, List.nodup_singleton _, by
      intro i hi j hj
      rw [List.mem_singleton] at hj
      rintro rfl
      exact hnew (hj ▸ hi)⟩
  -- between the two writings the index does not list the new record yet
  obtain ⟨d₁, hwrite, hstock, hlisted⟩ := h.run_stock (r := p.record id now) hid hmem hdistinct
  obtain ⟨d₂, hrelist, hshelved⟩ := hstock.run_relist
  refine ⟨d₂, ?_, hshelved⟩
  have hindex := run_index_of_listed hstock.place hlisted
  have hitems : withItem (p.record id now).toWorkflow (.list (shelf.map Entry.item)) =
      .ok (.list ((shelf ++ [Entry.fresh p id now]).map Entry.item)) := by
    rw [List.map_append]
    rfl
  unfold enter add
  simp only [Effect.run_bind, h.run_prepare, Effect.run_lift, ofDraft_toDraft, hwrite, hindex, hitems,
    hrelist, Effect.run_pure]

/-! ## Changing a workflow -/

/-- The record of an entry that changes takes the place of the old one. -/
theorem run_stock_alter (he : e ∈ shelf) {f : Entry → Entry} (hf : ∀ e, (f e).id = e.id) :
    ∃ d', (write folder (f e).record.toWorkflow).run d = (.ok (), d') ∧
      Stocked folder here first ((shelf.alter e.id f).map Entry.record) d' ∧
      d'.files.get? (indexKey here) = some (.json (.list (shelf.map Entry.item))) := by
  have hid : (f e).record.id = e.id := hf e
  refine h.run_stock (hid ▸ h.isIdentifier he) ?_ ?_
  · intro x
    rw [hid, List.mem_map]
    constructor
    · rintro ⟨y, hy, rfl⟩
      rcases Shelf.mem_alter.1 hy with ⟨e', he', hid', rfl⟩ | ⟨hy, hne⟩
      · rw [h.eq_of_id he' he hid']
        exact Or.inl rfl
      · exact Or.inr ⟨List.mem_map_of_mem hy, hne⟩
    · rintro (rfl | ⟨hx, hne⟩)
      · exact ⟨f e, Shelf.mem_alter.2 (Or.inl ⟨e, he, rfl, rfl⟩), rfl⟩
      · obtain ⟨y, hy, rfl⟩ := List.mem_map.1 hx
        exact ⟨y, Shelf.mem_alter.2 (Or.inr ⟨hy, hne⟩), rfl⟩
  · rw [List.map_map]
    show (shelf.alter e.id f).ids.Nodup
    rw [Shelf.ids_alter hf]
    exact h.nodup_ids

/-- Only one entry is changed where that of an identifier is. -/
theorem alter_eq (he : e ∈ shelf) (f : Entry → Entry) :
    (shelf.alter e.id fun _ => f e) = shelf.alter e.id f := by
  unfold Shelf.alter
  refine List.map_congr_left fun e' he' => ?_
  split
  · rename_i hid
    rw [h.eq_of_id he' he hid]
  · rfl

theorem run_update (he : e ∈ shelf) (hload : (load folder (.text key)).run d = (.ok e.record.toWorkflow, d))
    (now : String) (c : Revision) :
    ∃ d', (update folder now (.text key) c.toChanges).run d =
        (.ok (e.record.revised now c).toWorkflow, d') ∧
      Shelved folder here first (shelf.alter e.id (.revised now c)) d' := by
  obtain ⟨d₁, hwrite, hstock, hlisted⟩ := h.run_stock_alter he (Entry.id_revised now c)
  obtain ⟨d₂, hrelist, hshelved⟩ := hstock.run_relist
  refine ⟨d₂, ?_, hshelved⟩
  have hwrite : (write folder (e.record.revised now c).toWorkflow).run d = (.ok (), d₁) := hwrite
  have hindex := run_index_of_listed hstock.place hlisted
  have hrefresh : refreshItems (e.record.revised now c).toWorkflow (.list (shelf.map Entry.item)) =
      .ok (.list ((shelf.alter e.id (.revised now c)).map Entry.item)) := by
    rw [← h.alter_eq he]
    exact refreshItems_items shelf (e.record.revised now c)
  unfold update
  simp only [Effect.run_bind, Effect.run_mapError, hload, Effect.run_lift, changed_toChanges, hwrite,
    hindex, hrefresh, hrelist, Effect.run_pure, Effect.mapError_ok]

theorem run_recordRun (he : e ∈ shelf)
    (hload : (load folder (.text key)).run d = (.ok e.record.toWorkflow, d)) (now : String) :
    ∃ d', (recordRun folder now (.text key)).run d = (.ok (e.record.counted now).toWorkflow, d') ∧
      Shelved folder here first (shelf.alter e.id (.counted now)) d' := by
  obtain ⟨d', hwrite, hstock, hlisted⟩ := h.run_stock_alter he (Entry.id_counted now)
  have hwrite : (write folder (e.record.counted now).toWorkflow).run d = (.ok (), d') := hwrite
  -- the index is not written, and it need not be to list the same items
  have hitems : (shelf.alter e.id (.counted now)).map Entry.item = shelf.map Entry.item := by
    unfold Shelf.alter
    rw [List.map_map]
    refine List.map_congr_left fun e' _ => ?_
    rw [Function.comp_apply]
    split
    · rfl
    · rfl
  exact ⟨d', run_recordRun_of_write hload hwrite, hstock, hitems ▸ hlisted⟩

/-! ## Taking a workflow away -/

theorem run_delete (he : e ∈ shelf)
    (hload : (load folder (.text key)).run d = (.ok e.record.toWorkflow, d)) :
    ∃ d', (delete folder (.text key)).run d = (.ok (), d') ∧
      Shelved folder here first (shelf.without e.id) d' := by
  have hid := h.isIdentifier he
  have hremove : (Disk.remove (path folder e.record.toWorkflow.id)).run d =
      (.ok (), { d with files := d.files.erase (keyOf here e.id) }) :=
    h.place.run_remove hid.isName (h.get?_entry he)
  have hstock : Stocked folder here first ((shelf.without e.id).map Entry.record)
      { d with files := d.files.erase (keyOf here e.id) } := by
    refine ⟨h.place.erase (fileName e.id), h.filed.erase ?_ ?_, h.folders⟩
    · intro x
      rw [List.mem_map, List.mem_map]
      constructor
      · rintro ⟨y, hy, rfl⟩
        obtain ⟨hy, hne⟩ := Shelf.mem_without.1 hy
        exact ⟨⟨y, hy, rfl⟩, hne⟩
      · rintro ⟨⟨y, hy, rfl⟩, hne⟩
        exact ⟨y, Shelf.mem_without.2 ⟨hy, hne⟩, rfl⟩
    · rw [List.map_map]
      show (shelf.without e.id).ids.Nodup
      rw [Shelf.ids_without]
      exact h.nodup_ids.filter _
  have hlisted : (d.files.erase (keyOf here e.id)).get? (indexKey here) =
      some (.json (.list (shelf.map Entry.item))) := by
    rw [Table.get?_erase, if_neg fun heq => hid.keyOf_ne here heq.symm]
    exact h.listed
  obtain ⟨d', hrelist, hshelved⟩ := hstock.run_relist
  refine ⟨d', ?_, hshelved⟩
  have hindex := run_index_of_listed hstock.place hlisted
  have hwithout : withoutItem e.record.toWorkflow (.list (shelf.map Entry.item)) =
      .ok (.list ((shelf.without e.id).map Entry.item)) := withoutItem_items shelf e.record
  unfold delete
  simp only [Effect.run_bind, Effect.run_mapError, hload, hremove, hindex, Effect.run_lift, hwithout,
    hrelist, Effect.mapError_ok]

/-! ## What is told of the workflows -/

theorem run_list (tags : Option (List String)) :
    (list folder (.ofOption .texts tags)).run d =
      (.ok (.list ((shelf.filter fun e => e.record.isTagged tags).map Entry.item)), d) := by
  have hall : shelf.filter (fun _ => true) = shelf := List.filter_eq_self.2 fun _ _ => rfl
  unfold list
  rw [Effect.run_bind_ok h.run_prepare, Effect.run_bind_ok h.run_index]
  cases tags with
  | none =>
    show ((.ok (.list (shelf.map Entry.item)) : Except Fault Value), d) = _
    conv_lhs => rw [← hall]
    rfl
  | some tags =>
    cases tags with
    | nil =>
      show ((.ok (.list (shelf.map Entry.item)) : Except Fault Value), d) = _
      conv_lhs => rw [← hall]
      rfl
    | cons t ts =>
      have hfilter : (shelf.map Entry.item).filterM (isTagged (.texts (t :: ts))) =
          .ok ((shelf.filter fun e => e.record.isTagged (some (t :: ts))).map Entry.item) :=
        filterM_eq_ok (isTagged_item (t :: ts)) shelf
      show Effect.run (Effect.lift ((shelf.map Entry.item).filterM (isTagged (.texts (t :: ts)))) >>=
        fun items => pure (Value.list items)) d = _
      rw [hfilter]
      rfl

end Shelved

/-! ## Nothing found -/

section

variable {folder key : String} {d : Disk} {f : Failure}

theorem run_update_error (hload : (load folder (.text key)).run d = (.error f, d))
    (now : String) (c : Changes) : (update folder now (.text key) c).run d = (.error f, d) := by
  unfold update
  rw [Effect.run_bind_error hload]

theorem run_recordRun_error (hload : (load folder (.text key)).run d = (.error f, d))
    (now : String) : (recordRun folder now (.text key)).run d = (.error f, d) := by
  unfold recordRun
  rw [Effect.run_bind_error hload]

theorem run_delete_error (hload : (load folder (.text key)).run d = (.error f, d)) :
    (delete folder (.text key)).run d = (.error f, d) := by
  unfold delete
  rw [Effect.run_bind_error hload]

end

end Library

end BrowserFlow
