import BrowserFlow.Proofs.Library.Course

/-!
# The index and the files

The same is kept twice of each workflow: in its own file, and in the index. After any calls the
index has an item for each file, in the order in which they were saved, and tells all of the
workflow but for the number of its runs. That number is the right one exactly if the index has been
told of the workflow since its last run (`index_agrees_iff`): a run is counted in the file only.
-/

namespace BrowserFlow

namespace Library

/-- The index tells all of the workflows that are kept. -/
def Agrees (folder : String) (d : Disk) (calls : List Call) : Prop :=
  (after folder d calls).file? (indexPath folder) =
    some (.json (.list ((kept folder d calls).map fun w => .record w.indexItem)))

/-- The workflows of whose last run the index has not been told after a call. -/
def Call.untold (found : String → Option String) (ids : List String) : Call → List String
  | recordRun _ key => (found key).toList ++ ids
  | update _ key _ | delete key => ids.filter fun id => found key ≠ some id
  | save _ _ _ | load _ | list _ => ids

/-- The workflows of whose last run the index has not been told. -/
def untold (folder : String) (d : Disk) (calls : List Call) : List String :=
  (calls.foldl (fun s c => (c.next folder s.1, c.untold (found? folder s.1) s.2))
    (opened folder d, [])).2

/-- The runs of which the index has not been told can be seen on a shelf. -/
structure Behind (shelf : Shelf) (ids : List String) : Prop where
  below : ∀ e ∈ shelf, e.told ≤ e.record.executions
  behind : ∀ e ∈ shelf, e.id ∈ ids ↔ e.told ≠ e.record.executions
  among : ∀ id ∈ ids, id ∈ shelf.ids

namespace Behind

variable {shelf : Shelf} {ids : List String} {id : String} (h : Behind shelf ids)

include h

theorem fresh (hnew : id ∉ shelf.ids) (p : Proposal) (now : String) :
    Behind (shelf ++ [.fresh p id now]) ids where
  below := by
    intro e he
    rcases List.mem_append.1 he with he | he
    · exact h.below e he
    · rw [List.mem_singleton.1 he]
      exact Nat.le_refl 0
  behind := by
    intro e he
    rcases List.mem_append.1 he with he | he
    · exact h.behind e he
    · rw [List.mem_singleton.1 he]
      exact ⟨fun hid => absurd (h.among id hid) hnew, fun hne => absurd rfl hne⟩
  among := by
    intro i hi
    unfold Shelf.ids
    rw [List.map_append]
    exact List.mem_append_left _ (h.among i hi)

theorem revised (now : String) (c : Revision) :
    Behind (shelf.alter id (.revised now c)) (ids.filter fun i => i ≠ id) where
  below := by
    intro e he
    rcases Shelf.mem_alter.1 he with ⟨e, -, -, rfl⟩ | ⟨he, -⟩
    · exact Nat.le_refl _
    · exact h.below e he
  behind := by
    intro e he
    rw [List.mem_filter, decide_eq_true_iff]
    rcases Shelf.mem_alter.1 he with ⟨e, -, hid, rfl⟩ | ⟨he, hne⟩
    · exact ⟨fun hi => absurd hid hi.2, fun hne => absurd rfl hne⟩
    · rw [← h.behind e he]
      exact ⟨fun hi => hi.1, fun hi => ⟨hi, hne⟩⟩
  among := by
    intro i hi
    rw [Shelf.ids_alter (Entry.id_revised now c)]
    exact h.among i (List.mem_filter.1 hi).1

theorem counted (hid : id ∈ shelf.ids) (now : String) :
    Behind (shelf.alter id (.counted now)) (id :: ids) where
  below := by
    intro e he
    rcases Shelf.mem_alter.1 he with ⟨e, hold, -, rfl⟩ | ⟨hold, -⟩
    · exact Nat.le_succ_of_le (h.below e hold)
    · exact h.below e hold
  behind := by
    intro e he
    rw [List.mem_cons]
    rcases Shelf.mem_alter.1 he with ⟨e, hold, hid, rfl⟩ | ⟨hold, hne⟩
    · exact ⟨fun _ => Nat.ne_of_lt (Nat.lt_succ_of_le (h.below e hold)), fun _ => Or.inl hid⟩
    · rw [← h.behind e hold]
      exact ⟨fun hi => hi.resolve_left hne, Or.inr⟩
  among := by
    intro i hi
    rw [Shelf.ids_alter (Entry.id_counted now)]
    rcases List.mem_cons.1 hi with rfl | hi
    · exact hid
    · exact h.among i hi

theorem without : Behind (shelf.without id) (ids.filter fun i => i ≠ id) where
  below := fun e he => h.below e (Shelf.mem_without.1 he).1
  behind := by
    intro e he
    obtain ⟨he, hne⟩ := Shelf.mem_without.1 he
    rw [List.mem_filter, decide_eq_true_iff, ← h.behind e he]
    exact ⟨fun hi => hi.1, fun hi => ⟨hi, hne⟩⟩
  among := by
    intro i hi
    obtain ⟨hi, hne⟩ := List.mem_filter.1 hi
    rw [Shelf.ids_without]
    exact List.mem_filter.2 ⟨h.among i hi, hne⟩

theorem step (c : Call) {found : String → Option String}
    (hsave : ∀ id, c.saved? = some id → id ∉ shelf.ids)
    (hfound : ∀ key id, c.key? = some key → found key = some id → id ∈ shelf.ids) :
    Behind (c.turn found shelf) (c.untold found ids) := by
  have hfilter : ∀ id : String, (ids.filter fun i => some id ≠ some i) = ids.filter fun i => i ≠ id := by
    intro id
    refine List.filter_congr fun i _ => ?_
    rw [decide_eq_decide, ne_eq, ne_eq, Option.some_inj, eq_comm]
  have hnone : (ids.filter fun i => (none : Option String) ≠ some i) = ids :=
    List.filter_eq_self.2 fun i _ => rfl
  cases c with
  | save id now p => exact h.fresh (hsave id rfl) p now
  | update now key c =>
    unfold Call.turn Call.untold
    dsimp only
    cases hkey : found key with
    | some id =>
      rw [hfilter]
      exact h.revised now c
    | none =>
      rw [hnone]
      exact h
  | recordRun now key =>
    unfold Call.turn Call.untold
    dsimp only
    cases hkey : found key with
    | some id => exact h.counted (hfound key id rfl hkey) now
    | none => exact h
  | delete key =>
    unfold Call.turn Call.untold
    dsimp only
    cases hkey : found key with
    | some id =>
      rw [hfilter]
      exact h.without
    | none =>
      rw [hnone]
      exact h
  | load key => exact h
  | list tags => exact h

end Behind

section

variable {folder : String} {here : List String} {d : Disk} {calls : List Call}

theorem untold_concat (c : Call) :
    untold folder d (calls ++ [c]) =
      c.untold (found? folder (after folder d calls)) (untold folder d calls) := by
  have hdisk : ∀ calls : List Call,
      (calls.foldl (fun s c => (c.next folder s.1, c.untold (found? folder s.1) s.2))
        (opened folder d, ([] : List String))).1 = after folder d calls := by
    intro calls
    unfold after
    generalize opened folder d = start
    generalize ([] : List String) = ids
    induction calls generalizing start ids with
    | nil => rfl
    | cons c calls ih => exact ih _ _
  unfold untold
  rw [List.foldl_concat, hdisk]

theorem Vacant.behind (hv : Vacant folder here d) (hc : Orderly folder (opened folder d) calls) :
    Behind (course folder d calls).2 (untold folder d calls) := by
  induction calls using List.reverseRecOn with
  | nil =>
    refine ⟨?_, ?_, ?_⟩
    · exact fun e he => absurd he List.not_mem_nil
    · exact fun e he => absurd he List.not_mem_nil
    · exact fun id hid => absurd hid List.not_mem_nil
  | append_singleton calls c ih =>
    obtain ⟨hshelved, hids⟩ := hv.shelved hc.before
    obtain ⟨hsave, hkey⟩ := hc.last
    rw [course_concat, untold_concat]
    unfold advance
    rw [course_fst]
    refine (ih hc.before).step c ?_ ?_
    · exact fun id hid hold => (hsave id hid).2 (hids.subset hold)
    · exact fun key id hk hfound => hshelved.mem_of_found? (hkey key hk) hfound

/-- What the index says of a shelf. -/
theorem Shelved.file?_index {first : Disk} {shelf : Shelf} (h : Shelved folder here first shelf d) :
    d.file? (indexPath folder) = some (.json (.list (shelf.map Entry.item))) := by
  unfold indexPath
  rw [h.place.file?_name isName_index]
  exact h.listed

/-- An item tells all of the record exactly if it tells of all runs. -/
theorem item_eq_iff (e : Entry) :
    e.item = .record e.record.toWorkflow.indexItem ↔ e.told = e.record.executions := by
  constructor
  · intro h
    have hfield : Value.int e.told = Value.int e.record.executions :=
      congrArg (fun v => v.field "executions") h
    exact Int.ofNat_inj.1 (Value.int.inj hfield)
  · intro h
    unfold Entry.item
    rw [h]

theorem Vacant.agrees_iff (hv : Vacant folder here d)
    (hc : Orderly folder (opened folder d) calls) :
    Agrees folder d calls ↔ untold folder d calls = [] := by
  obtain ⟨hshelved, -⟩ := hv.shelved hc
  have hbehind := hv.behind hc
  -- the lists have one item for each entry of the shelf, so they are compared one by one
  have hlists : Agrees folder d calls ↔
      ∀ e ∈ (course folder d calls).2, e.told = e.record.executions := by
    unfold Agrees
    rw [hv.kept_eq hc, hshelved.file?_index, List.map_map, Option.some_inj, Content.json.injEq,
      Value.list.injEq, List.map_inj_left]
    exact forall₂_congr fun e _ => item_eq_iff e
  rw [hlists, List.eq_nil_iff_forall_not_mem]
  constructor
  · intro htold id hid
    obtain ⟨e, he, rfl⟩ := List.mem_map.1 (hbehind.among id hid)
    exact (hbehind.behind e he).1 hid (htold e he)
  · intro hnone e he
    by_contra hne
    exact hnone e.id ((hbehind.behind e he).2 hne)

/-- After any calls the index lists the workflows that are in the files, in the order in which they
were saved, and tells all of them but for the number of their runs. It tells this as well exactly if
no run has been recorded of a workflow since the index was last told of it. -/
theorem index_agrees_iff (hv : Vacant folder here d)
    (hc : Orderly folder (opened folder d) calls) :
    (∃ told : Workflow → Value, (after folder d calls).file? (indexPath folder) =
        some (.json (.list ((kept folder d calls).map fun w =>
          .record { w with executions := told w }.indexItem)))) ∧
      (∀ n c, Disk.IsName n → (after folder d calls).file? (pathIn folder n) = some c →
        n = "index.json" ∨
          ∃ w ∈ kept folder d calls, n = w.id.plainText ++ ".json" ∧ c = .json w.toValue) ∧
      (Agrees folder d calls ↔ untold folder d calls = []) := by
  obtain ⟨hshelved, -⟩ := hv.shelved hc
  rw [hv.kept_eq hc]
  refine ⟨?_, ?_, hv.agrees_iff hc⟩
  · -- the entry of a workflow is found by its identifier
    obtain ⟨told, htold⟩ : ∃ told : Workflow → Value,
        ∀ e ∈ (course folder d calls).2, told e.record.toWorkflow = .int e.told := by
      refine ⟨fun w => (((course folder d calls).2.get? w.id.plainText).map fun e =>
        Value.int e.told).getD .null, fun e he => ?_⟩
      have hget : (course folder d calls).2.get? e.record.toWorkflow.id.plainText = some e :=
        hshelved.get?_eq_some.2 ⟨he, rfl⟩
      dsimp only
      rw [hget]
      rfl
    refine ⟨told, ?_⟩
    rw [hshelved.file?_index, List.map_map]
    congr 3
    refine List.map_congr_left fun e he => ?_
    rw [Function.comp_apply, htold e he]
    rfl
  · intro n c hn hfile
    rw [hshelved.place.file?_name hn] at hfile
    rcases hshelved.filed.inside n c hfile with hindex | ⟨r, hr, rfl⟩
    · exact Or.inl hindex
    · obtain ⟨e, he, rfl⟩ := List.mem_map.1 hr
      have hget := hshelved.get?_entry he
      unfold keyOf at hget
      refine Or.inr ⟨e.record.toWorkflow, List.mem_map_of_mem he, rfl, ?_⟩
      exact Option.some.inj (hfile.symm.trans hget)

end

/-- A workflow that is run and then described, by its name. -/
theorem index_agrees_iff_described :
    Agrees "wf" {} [.save "a" "t" ⟨"Titles", "read", "- press: End", none, none⟩,
      .recordRun "u" "a", .update "v" "titles" { description := some "s" }] := by
  have hc : Orderly "wf" (opened "wf" {}) [
      .save "a" "t" ⟨"Titles", "read", "- press: End", none, none⟩,
      .recordRun "u" "a", .update "v" "titles" { description := some "s" }] :=
    orderly_of_empty (by decide) (by decide) (by decide)
  exact (index_agrees_iff (vacant_of_isName (by decide)) hc).2.2.2 (by decide +kernel)

/-- A workflow that is run. -/
theorem not_agrees_run :
    ¬ ∀ (folder : String) (here : List String) (d : Disk) (calls : List Call),
      Vacant folder here d → Orderly folder (opened folder d) calls →
      Agrees folder d calls := by
  intro h
  have hv : Vacant "wf" ["wf"] {} := vacant_of_isName (by decide)
  have hc : Orderly "wf" (opened "wf" {}) [
      .save "a" "t" ⟨"Titles", "read", "- press: End", none, none⟩, .recordRun "u" "a"] :=
    orderly_of_empty (by decide) (by decide) (by decide)
  have huntold := (hv.agrees_iff hc).1 (h "wf" ["wf"] {} _ hv hc)
  exact absurd huntold (by decide +kernel)

end Library

end BrowserFlow
