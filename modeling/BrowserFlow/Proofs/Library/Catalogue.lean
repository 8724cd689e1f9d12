import BrowserFlow.Proofs.Library.Course

/-!
# The library as a map

As long as workflows are addressed by their identifiers, the library is nothing but a map from
identifiers to records in the order in which they were saved. What it holds under an identifier is
what the calls with that identifier have left (`left`), whatever the other calls were. The disk
holds just that, file by file, and every call gives what it should by that map
(`refines_map`).
-/

namespace BrowserFlow

namespace Library

/-! ## The map -/

/-- What a call leaves under an identifier. -/
def Call.leave (id : String) (old : Option Record) : Call → Option Record
  | save i now p => if i = id then some (p.record id now) else old
  | update now key c => if key = id then old.map (·.revised now c) else old
  | recordRun now key => if key = id then old.map (·.counted now) else old
  | delete key => if key = id then none else old
  | load _ | list _ => old

/-- The record that calls have left under an identifier. -/
def left (id : String) (calls : List Call) : Option Record :=
  calls.foldl (Call.leave id) none

/-- The identifiers under which there is a record, in the order in which these were saved. -/
def live (calls : List Call) : List String :=
  (saved calls).filter fun id => (left id calls).isSome

/-- The record under an identifier, which has to be there. -/
def held (calls : List Call) (id : String) : Except Failure Record :=
  match left id calls with
  | some r => .ok r
  | none => .error (.notFound id)

/-- What of an answer can be told from the map: all of a workflow, and of a list whom it names. -/
inductive Gist
  | workflow (w : Workflow)
  | names (ids : List Value)
  | nothing

def Answer.gist : Answer → Gist
  | .workflow w => .workflow w
  | .items v =>
    match v with
    | .list vs => .names (vs.map (·.field "id"))
    | _ => .nothing
  | .nothing => .nothing

/-- What a call should give after others. -/
def Call.due (calls : List Call) : Call → Except Failure Gist
  | save id now p => .ok (.workflow (p.record id now).toWorkflow)
  | update now key c => (held calls key).map fun r => .workflow (r.revised now c).toWorkflow
  | recordRun now key => (held calls key).map fun r => .workflow (r.counted now).toWorkflow
  | delete key => (held calls key).map fun _ => .nothing
  | load key => (held calls key).map fun r => .workflow r.toWorkflow
  | list tags => .ok (.names (((live calls).filter fun id =>
      (left id calls).any (Record.isTagged tags)).map .text))

/-! ## Calls by identifier -/

/-- The names that a call gives. -/
def Call.given : Call → List String
  | save _ _ p => [p.name]
  | update _ _ c => c.name.toList
  | recordRun _ _ | delete _ | load _ | list _ => []

/-- The names that calls give. -/
def given (calls : List Call) : List String :=
  calls.flatMap Call.given

/-- Workflows are addressed by identifiers only: no identifier is given twice, each names a file,
and none that is looked up is given as a name, whatever the case of its letters. -/
structure Addressed (calls : List Call) : Prop where
  identifiers : ∀ id ∈ saved calls, IsIdentifier id
  distinct : (saved calls).Nodup
  keys : ∀ key ∈ asked calls, IsIdentifier key
  unnamed : ∀ key ∈ asked calls, ∀ name ∈ given calls, Text.lower name ≠ Text.lower key

section

variable {folder : String} {here : List String} {d : Disk} {calls : List Call} {c : Call}

theorem left_concat (id : String) : left id (calls ++ [c]) = c.leave id (left id calls) := by
  unfold left
  rw [List.foldl_concat]

theorem given_append (calls more : List Call) : given (calls ++ more) = given calls ++ given more :=
  List.flatMap_append

theorem Addressed.before {more : List Call} (h : Addressed (calls ++ more)) : Addressed calls where
  identifiers := fun id hid => h.identifiers id (by
    rw [saved_append]
    exact List.mem_append_left _ hid)
  distinct := by
    have := h.distinct
    rw [saved_append] at this
    exact this.sublist (List.sublist_append_left _ _)
  keys := fun key hkey => h.keys key (by
    rw [asked_append]
    exact List.mem_append_left _ hkey)
  unnamed := fun key hkey name hname => h.unnamed key (by
    rw [asked_append]
    exact List.mem_append_left _ hkey) name (by
    rw [given_append]
    exact List.mem_append_left _ hname)

theorem Addressed.orderly (h : Addressed calls) (hv : Vacant folder here d) :
    Orderly folder (opened folder d) calls where
  identifiers := h.identifiers
  distinct := h.distinct
  within := fun key hkey => hv.not_strays_identifier (h.keys key hkey)

end

/-- A shelf shows the map, and its names are those that were given. -/
structure Shows (shelf : Shelf) (calls : List Call) : Prop where
  records : ∀ id, (shelf.get? id).map Entry.record = left id calls
  named : ∀ e ∈ shelf, e.record.name ∈ given calls

theorem Shelf.id_of_get? {shelf : Shelf} {id : String} {e : Entry} (h : shelf.get? id = some e) :
    e.id = id := by
  simpa using List.find?_some h

namespace Shows

variable {shelf : Shelf} {calls : List Call} (h : Shows shelf calls)

include h

/-- What is under an identifier is on the shelf. -/
theorem left_eq_some {id : String} {r : Record} :
    left id calls = some r ↔ ∃ e, shelf.get? id = some e ∧ e.record = r := by
  rw [← h.records]
  exact Option.map_eq_some_iff

theorem left_eq_none {id : String} : left id calls = none ↔ shelf.get? id = none := by
  rw [← h.records]
  exact Option.map_eq_none_iff

/-- The names on the next shelf are given, too. -/
theorem named_turn (c : Call) (found : String → Option String) :
    ∀ e ∈ c.turn found shelf, e.record.name ∈ given (calls ++ [c]) := by
  intro x hx
  rw [given_append]
  have hold : ∀ e ∈ shelf, e.record.name ∈ given calls ++ given [c] :=
    fun e he => List.mem_append_left _ (h.named e he)
  rcases Call.mem_turn hx with ⟨id, now, p, rfl, rfl⟩ |
    ⟨e, he, rfl | ⟨now, key, r, rfl, rfl⟩ | ⟨now, key, -, rfl⟩⟩
  · exact List.mem_append_right _ (List.mem_singleton_self p.name)
  · exact hold x he
  · show passed r.name e.record.name ∈ given calls ++ given [_]
    unfold passed
    cases hname : r.name with
    | none => exact hold e he
    | some name =>
      have hgiven : given [Call.update now key r] = [name] := by
        show r.name.toList ++ [] = [name]
        rw [hname]
        rfl
      dsimp only
      split
      · exact hold e he
      · rw [hgiven]
        exact List.mem_append_right _ (List.mem_singleton_self name)
  · exact hold e he

omit h in
/-- What is under an identifier after the entry of another or of the same has changed. -/
theorem get?_record_alter {f : Entry → Entry} {g : Record → Record} (hf : ∀ e, (f e).id = e.id)
    (hg : ∀ e, (f e).record = g e.record) (key id : String) :
    ((shelf.alter key f).get? id).map Entry.record =
      if key = id then ((shelf.get? id).map Entry.record).map g
      else (shelf.get? id).map Entry.record := by
  rw [Shelf.get?_alter hf]
  cases hget : shelf.get? id with
  | none => simp
  | some e =>
    rw [Option.map_some, Option.map_some, Option.map_some, Shelf.id_of_get? hget]
    by_cases hkey : key = id
    · rw [if_pos hkey, if_pos hkey.symm, hg]
      rfl
    · rw [if_neg hkey, if_neg (Ne.symm hkey)]

/-- A call leaves on the shelf what it leaves in the map. -/
theorem records_turn (c : Call) {found : String → Option String}
    (hsave : ∀ id, c.saved? = some id → shelf.get? id = none)
    (hfound : ∀ key, c.key? = some key → found key = (shelf.get? key).map Entry.id) (id : String) :
    ((c.turn found shelf).get? id).map Entry.record = left id (calls ++ [c]) := by
  rw [left_concat, ← h.records]
  -- a text that finds nothing is no identifier of the shelf
  have hunfound : ∀ {key : String} {g : Option Record → Option Record}, g none = none →
      shelf.get? key = none →
      (shelf.get? id).map Entry.record =
        if key = id then g ((shelf.get? id).map Entry.record)
        else (shelf.get? id).map Entry.record := by
    intro key g hg hnone
    by_cases hkey : key = id
    · rw [if_pos hkey, ← hkey, hnone, Option.map_none, hg]
    · rw [if_neg hkey]
  cases c with
  | save i now p =>
    unfold Call.turn Call.leave
    dsimp only
    rw [Shelf.get?_append]
    by_cases hi : i = id
    · subst hi
      have hid : (Entry.fresh p i now).id = i := rfl
      rw [hsave i rfl, if_pos hid, if_pos rfl, Option.none_or]
      rfl
    · have hid : ¬ (Entry.fresh p i now).id = id := hi
      rw [if_neg hi, if_neg hid, Option.or_none]
  | update now key r =>
    have hkey := hfound key rfl
    unfold Call.turn Call.leave
    dsimp only
    cases hget : shelf.get? key with
    | none =>
      rw [hkey, hget]
      exact hunfound rfl hget
    | some e =>
      rw [hkey, hget, Option.map_some, Shelf.id_of_get? hget]
      exact get?_record_alter (Entry.id_revised now r) (fun _ => rfl) key id
  | recordRun now key =>
    have hkey := hfound key rfl
    unfold Call.turn Call.leave
    dsimp only
    cases hget : shelf.get? key with
    | none =>
      rw [hkey, hget]
      exact hunfound rfl hget
    | some e =>
      rw [hkey, hget, Option.map_some, Shelf.id_of_get? hget]
      exact get?_record_alter (Entry.id_counted now) (fun _ => rfl) key id
  | delete key =>
    have hkey := hfound key rfl
    unfold Call.turn Call.leave
    dsimp only
    cases hget : shelf.get? key with
    | none =>
      rw [hkey, hget]
      exact @hunfound key (fun _ => none) rfl hget
    | some e =>
      rw [hkey, hget, Option.map_some, Shelf.id_of_get? hget]
      dsimp only
      rw [Shelf.get?_without]
      by_cases hid : key = id
      · rw [if_pos hid, if_pos hid.symm, Option.map_none]
      · rw [if_neg hid, if_neg (Ne.symm hid)]
  | load key => rfl
  | list tags => rfl

end Shows

namespace Shelved

variable {folder key : String} {here : List String} {first d : Disk} {shelf : Shelf}
  (h : Shelved folder here first shelf d)

include h

/-- An identifier that is no name finds its workflow or none. -/
theorem run_load_addressed (hid : IsIdentifier key)
    (hunnamed : ∀ e ∈ shelf, Text.lower e.record.name ≠ Text.lower key) :
    (load folder (.text key)).run d =
      (match shelf.get? key with
        | some e => .ok e.record.toWorkflow
        | none => .error (.notFound key), d) := by
  have hnamed : shelf.named? key = none := by
    refine List.find?_eq_none.2 fun e he => ?_
    rw [beq_iff_eq]
    exact hunnamed e he
  have hbyName : shelf.byName key = .error (.notFound key) := by
    unfold Shelf.byName
    rw [hnamed]
  rw [h.run_load_identifier hid]
  cases shelf.get? key with
  | some e => rfl
  | none => exact Prod.ext hbyName rfl

theorem found?_addressed (hid : IsIdentifier key)
    (hunnamed : ∀ e ∈ shelf, Text.lower e.record.name ≠ Text.lower key) :
    found? folder d key = (shelf.get? key).map Entry.id := by
  have hload := h.run_load_addressed hid hunnamed
  cases hget : shelf.get? key with
  | some e =>
    rw [hget] at hload
    exact found?_of_ok hload
  | none =>
    rw [hget] at hload
    exact found?_of_error hload

end Shelved

section

variable {folder : String} {here : List String} {d : Disk} {calls : List Call} {c : Call}

/-- The names on a shelf are those that were given before. -/
theorem Addressed.not_named {shelf : Shelf} (h : Addressed (calls ++ [c])) (hshows : Shows shelf calls)
    {key : String} (hkey : c.key? = some key) :
    IsIdentifier key ∧ ∀ e ∈ shelf, Text.lower e.record.name ≠ Text.lower key := by
  have hlast : key ∈ asked (calls ++ [c]) := by
    rw [asked_concat]
    exact List.mem_append_right _ (Option.mem_toList.2 hkey)
  refine ⟨h.keys key hlast, fun e he => h.unnamed key hlast _ ?_⟩
  rw [given_append]
  exact List.mem_append_left _ (hshows.named e he)

theorem Vacant.shows (hv : Vacant folder here d) (hc : Addressed calls) :
    Shows (course folder d calls).2 calls := by
  induction calls using List.reverseRecOn with
  | nil => exact ⟨fun _ => rfl, fun e he => absurd he List.not_mem_nil⟩
  | append_singleton calls c ih =>
    have hshows := ih hc.before
    obtain ⟨hshelved, hids⟩ := hv.shelved (hc.before.orderly hv)
    rw [course_concat]
    unfold advance
    rw [course_fst]
    refine ⟨hshows.records_turn c ?_ ?_, hshows.named_turn c _⟩
    · intro id hid
      have hnew := ((hc.orderly hv).last.1 id hid).2
      refine List.find?_eq_none.2 fun e he => ?_
      rw [decide_eq_true_iff]
      rintro rfl
      exact hnew (hids.subset (List.mem_map_of_mem he))
    · intro key hkey
      obtain ⟨hid, hunnamed⟩ := hc.not_named hshows hkey
      exact hshelved.found?_addressed hid hunnamed

/-- The files are those of the map. -/
theorem Vacant.file?_left (hv : Vacant folder here d) (hc : Addressed calls) {id : String}
    (hid : IsIdentifier id) :
    (after folder d calls).file? (path folder (.text id)) = (left id calls).map Record.content := by
  obtain ⟨hshelved, -⟩ := hv.shelved (hc.orderly hv)
  rw [hshelved.file?_identifier hid, ← (hv.shows hc).records, Option.map_map]
  rfl

/-- The identifiers of the shelf are those of the map, in one order. -/
theorem Vacant.live_eq (hv : Vacant folder here d) (hc : Addressed calls) :
    live calls = (course folder d calls).2.ids := by
  obtain ⟨hshelved, hids⟩ := hv.shelved (hc.orderly hv)
  have hshows := hv.shows hc
  have hfilter : ∀ ids : List String, (ids.filter fun id => (left id calls).isSome) =
      (ids.filterMap (course folder d calls).2.get?).map Entry.id := by
    intro ids
    induction ids with
    | nil => rfl
    | cons id ids ih =>
      cases hget : (course folder d calls).2.get? id with
      | none =>
        rw [List.filterMap_cons_none hget, List.filter_cons_of_neg, ih]
        rw [hshows.left_eq_none.2 hget]
        exact Bool.false_ne_true
      | some e =>
        rw [List.filterMap_cons_some hget, List.filter_cons_of_pos, ih, List.map_cons,
          Shelf.id_of_get? hget]
        rw [hshows.left_eq_some.2 ⟨e, hget, rfl⟩]
        rfl
  unfold live
  rw [hfilter, Shelf.filterMap_get? hids (hc.orderly hv).distinct]
  rfl

/-- What is held under an identifier is looked up. -/
theorem Vacant.run_load_held (hv : Vacant folder here d) (hc : Addressed (calls ++ [c]))
    {key : String} (hkey : c.key? = some key) :
    (∃ e ∈ (course folder d calls).2, held calls key = .ok e.record ∧
        (load folder (.text key)).run (after folder d calls) =
          (.ok e.record.toWorkflow, after folder d calls)) ∨
      held calls key = .error (.notFound key) ∧
        (load folder (.text key)).run (after folder d calls) =
          (.error (.notFound key), after folder d calls) := by
  have hshows := hv.shows hc.before
  obtain ⟨hshelved, -⟩ := hv.shelved (hc.before.orderly hv)
  obtain ⟨hid, hunnamed⟩ := hc.not_named hshows hkey
  have hload := hshelved.run_load_addressed hid hunnamed
  unfold held
  cases hget : (course folder d calls).2.get? key with
  | some e =>
    rw [hget] at hload
    rw [hshows.left_eq_some.2 ⟨e, hget, rfl⟩]
    exact Or.inl ⟨e, (hshelved.get?_eq_some.1 hget).1, rfl, hload⟩
  | none =>
    rw [hget] at hload
    rw [hshows.left_eq_none.2 hget]
    exact Or.inr ⟨rfl, hload⟩

/-- Every call gives what it should. -/
theorem Vacant.run_due (hv : Vacant folder here d) (hc : Addressed (calls ++ [c])) :
    ((c.run folder).run (after folder d calls)).1.map Answer.gist = c.due calls := by
  have hshows := hv.shows hc.before
  obtain ⟨hshelved, hids⟩ := hv.shelved (hc.before.orderly hv)
  cases c with
  | save id now p =>
    obtain ⟨hid, hnew⟩ := (hc.orderly hv).last.1 id rfl
    obtain ⟨d', hrun, -⟩ := hshelved.run_enter hid (fun hold => hnew (hids.subset hold)) now p
    unfold Call.run Call.due
    dsimp only
    rw [Effect.run_map, Effect.run_mapError, hrun]
    rfl
  | update now key r =>
    unfold Call.run Call.due
    dsimp only
    rw [Effect.run_map]
    rcases hv.run_load_held hc rfl with ⟨e, he, hheld, hload⟩ | ⟨hheld, hload⟩
    · obtain ⟨d', hrun, -⟩ := hshelved.run_update he hload now r
      rw [hheld, hrun]
      rfl
    · rw [hheld, run_update_error hload]
      rfl
  | recordRun now key =>
    unfold Call.run Call.due
    dsimp only
    rw [Effect.run_map]
    rcases hv.run_load_held hc rfl with ⟨e, he, hheld, hload⟩ | ⟨hheld, hload⟩
    · obtain ⟨d', hrun, -⟩ := hshelved.run_recordRun he hload now
      rw [hheld, hrun]
      rfl
    · rw [hheld, run_recordRun_error hload]
      rfl
  | delete key =>
    unfold Call.run Call.due
    dsimp only
    rw [Effect.run_map]
    rcases hv.run_load_held hc rfl with ⟨e, he, hheld, hload⟩ | ⟨hheld, hload⟩
    · obtain ⟨d', hrun, -⟩ := hshelved.run_delete he hload
      rw [hheld, hrun]
      rfl
    · rw [hheld, run_delete_error hload]
      rfl
  | load key =>
    unfold Call.run Call.due
    dsimp only
    rw [Effect.run_map]
    rcases hv.run_load_held hc rfl with ⟨e, he, hheld, hload⟩ | ⟨hheld, hload⟩
    · rw [hheld, hload]
      rfl
    · rw [hheld, hload]
      rfl
  | list tags =>
    -- what is kept under the identifier of an entry is its record
    have hfilter : (live calls).filter (fun id => (left id calls).any (Record.isTagged tags)) =
        ((course folder d calls).2.filter fun e => e.record.isTagged tags).map Entry.id := by
      rw [hv.live_eq hc.before]
      unfold Shelf.ids
      rw [List.filter_map]
      congr 1
      refine List.filter_congr fun e he => ?_
      have hleft : left e.id calls = some e.record :=
        hshows.left_eq_some.2 ⟨e, hshelved.get?_eq_some.2 ⟨he, rfl⟩, rfl⟩
      rw [Function.comp_apply, hleft, Option.any_some]
    unfold Call.run Call.due
    dsimp only
    rw [Effect.run_map, Effect.run_mapError, hshelved.run_list, hfilter]
    show Except.ok (Gist.names (List.map (·.field "id") (List.map Entry.item _))) = _
    rw [List.map_map, List.map_map]
    rfl

end

/-! ## Runs -/

/-- Whether a call records a run of the workflow with an identifier. -/
def Call.isRunOf (id : String) : Call → Bool
  | recordRun _ key => key = id
  | _ => false

theorem not_mem_saved_cons {id : String} {c : Call} {calls : List Call} :
    id ∉ saved (c :: calls) ↔ c.saved? ≠ some id ∧ id ∉ saved calls := by
  unfold saved
  rw [List.mem_filterMap, List.mem_filterMap, List.exists_mem_cons_iff, not_or]

/-- Calls without an identifier leave what is under it. -/
theorem Call.leave_other {id : String} {c : Call} (hsaved : c.saved? ≠ some id)
    (hkey : c.key? ≠ some id) (old : Option Record) : c.leave id old = old := by
  cases c with
  | save i now p => exact if_neg fun heq => hsaved (congrArg some heq)
  | update now key c => exact if_neg fun heq => hkey (congrArg some heq)
  | recordRun now key => exact if_neg fun heq => hkey (congrArg some heq)
  | delete key => exact if_neg fun heq => hkey (congrArg some heq)
  | load key => rfl
  | list tags => rfl

/-- Only saving puts something under an identifier. -/
theorem Call.leave_none {id : String} {c : Call} (hsaved : c.saved? ≠ some id) :
    c.leave id none = none := by
  cases c with
  | save i now p => exact if_neg fun heq => hsaved (congrArg some heq)
  | update now key r => exact ite_self _
  | recordRun now key => exact ite_self _
  | delete key => exact ite_self _
  | load key => rfl
  | list tags => rfl

theorem foldl_leave_none {id : String} {calls : List Call} (h : id ∉ saved calls) :
    calls.foldl (Call.leave id) none = none := by
  induction calls with
  | nil => rfl
  | cons c calls ih =>
    obtain ⟨hc, hrest⟩ := not_mem_saved_cons.1 h
    rw [List.foldl_cons, Call.leave_none hc, ih hrest]

/-- A record that is left after a call counts the run that the call has recorded. -/
theorem Call.executions_leave {id : String} {c : Call} {old r : Record}
    (hsaved : c.saved? ≠ some id) (h : c.leave id (some old) = some r) :
    r.executions = old.executions + if c.isRunOf id then 1 else 0 := by
  have hkept : c.leave id (some old) = some old → c.isRunOf id = false →
      r.executions = old.executions + if c.isRunOf id then 1 else 0 := by
    intro hleave hrun
    rw [hleave] at h
    rw [hrun, Option.some.inj h]
    rfl
  cases c with
  | save i now p => exact hkept (if_neg fun heq => hsaved (congrArg some heq)) rfl
  | update now key c =>
    by_cases hkey : key = id
    · have hleave : (Call.update now key c).leave id (some old) = some (old.revised now c) :=
        if_pos hkey
      rw [← Option.some.inj (hleave.symm.trans h)]
      rfl
    · exact hkept (if_neg hkey) rfl
  | recordRun now key =>
    by_cases hkey : key = id
    · have hleave : (Call.recordRun now key).leave id (some old) = some (old.counted now) :=
        if_pos hkey
      have hrun : (Call.recordRun now key).isRunOf id = true := decide_eq_true hkey
      rw [← Option.some.inj (hleave.symm.trans h), hrun]
      rfl
    · exact hkept (if_neg hkey) (decide_eq_false hkey)
  | delete key =>
    by_cases hkey : key = id
    · have hleave : (Call.delete key).leave id (some old) = none := if_pos hkey
      rw [hleave] at h
      cases h
    · exact hkept (if_neg hkey) rfl
  | load key => exact hkept rfl rfl
  | list tags => exact hkept rfl rfl

/-- A record counts the runs that have been recorded since it was there. -/
theorem executions_foldl {id : String} {calls : List Call} {old r : Record}
    (hsaved : id ∉ saved calls) (h : calls.foldl (Call.leave id) (some old) = some r) :
    r.executions = old.executions + calls.countP (Call.isRunOf id) := by
  induction calls generalizing old with
  | nil =>
    cases h
    rfl
  | cons c calls ih =>
    obtain ⟨hc, hrest⟩ := not_mem_saved_cons.1 hsaved
    rw [List.foldl_cons] at h
    cases hleave : c.leave id (some old) with
    | none =>
      -- a record that has been deleted does not come back
      rw [hleave, foldl_leave_none hrest] at h
      cases h
    | some next =>
      rw [hleave] at h
      rw [ih hrest h, Call.executions_leave hc hleave, List.countP_cons]
      omega

section

variable {folder : String} {here : List String} {d : Disk} {calls : List Call}

/-- As long as workflows are addressed by their identifiers, the files are those of the map, each
call gives what it should by the map and leaves the files of all other workflows. A revision leaves
what it does not pass, and a record counts the runs that have been recorded since it was saved. -/
theorem refines_map (hv : Vacant folder here d) (hc : Addressed calls) :
    (∀ id, IsIdentifier id → (after folder d calls).file? (path folder (.text id)) =
        (left id calls).map Record.content) ∧
      (∀ c, Addressed (calls ++ [c]) →
        ((c.run folder).run (after folder d calls)).1.map Answer.gist = c.due calls ∧
          ∀ id, IsIdentifier id → c.saved? ≠ some id → c.key? ≠ some id →
            (c.next folder (after folder d calls)).file? (path folder (.text id)) =
              (after folder d calls).file? (path folder (.text id))) ∧
      (∀ id now (c : Revision) r r', left id calls = some r →
        left id (calls ++ [.update now id c]) = some r' →
        (c.document = none → r'.document = r.document ∧ r'.editions = r.editions) ∧
          (c.intent = none → r'.intent = r.intent) ∧ (c.name = none → r'.name = r.name) ∧
          (c.description = none → r'.description = r.description) ∧
          (c.tags = none → r'.tags = r.tags) ∧ r'.id = r.id ∧ r'.createdAt = r.createdAt ∧
          r'.executions = r.executions ∧ r'.lastExecuted = r.lastExecuted) ∧
      ∀ before later id now p r, calls = before ++ .save id now p :: later →
        left id calls = some r → r.executions = later.countP (Call.isRunOf id) := by
  refine ⟨fun id hid => hv.file?_left hc hid, fun c hnext => ⟨hv.run_due hnext, ?_⟩, ?_, ?_⟩
  · intro id hid hsaved hkey
    rw [← after_concat, hv.file?_left hnext hid, hv.file?_left hc hid, left_concat,
      Call.leave_other hsaved hkey]
  · intro id now c r r' hleft hnext
    have hleave : (Call.update now id c).leave id (some r) = some (r.revised now c) := if_pos rfl
    rw [left_concat, hleft, hleave] at hnext
    obtain rfl := Option.some.inj hnext
    exact r.revised_of_none now c
  · intro before later id now p r hcalls hleft
    have hdistinct := hc.distinct
    have hsplit : calls = (before ++ [.save id now p]) ++ later := by
      rw [hcalls, List.append_assoc]
      rfl
    rw [hsplit, saved_append, saved_concat] at hdistinct
    have hnew : id ∉ saved later := fun hid =>
      (List.nodup_append.1 hdistinct).2.2 id (List.mem_append_right _ (List.mem_singleton_self id))
        id hid rfl
    have hfold : later.foldl (Call.leave id) (some (p.record id now)) = some r := by
      rw [hsplit] at hleft
      unfold left at hleft
      rw [List.foldl_append, List.foldl_concat] at hleft
      have hsave : ∀ old, (Call.save id now p).leave id old = some (p.record id now) :=
        fun old => if_pos rfl
      rw [hsave] at hleft
      exact hleft
    rw [executions_foldl hnew hfold]
    exact Nat.zero_add _

end

/-- Of two workflows the first is taken away and the second is run. -/
theorem refines_map_two :
    ((Call.run "wf" (.load "a")).run (after "wf" {} [
        .save "a" "t" ⟨"Titles", "read", "- press: End", none, some ["news"]⟩,
        .save "b" "u" ⟨"Prices", "read", "- press: Home", none, some ["shop"]⟩,
        .recordRun "v" "b", .delete "a"])).1.map Answer.gist = .error (.notFound "a") ∧
      ((Call.run "wf" (.list (some ["news", "shop"]))).run (after "wf" {} [
        .save "a" "t" ⟨"Titles", "read", "- press: End", none, some ["news"]⟩,
        .save "b" "u" ⟨"Prices", "read", "- press: Home", none, some ["shop"]⟩,
        .recordRun "v" "b", .delete "a"])).1.map Answer.gist = .ok (.names [.text "b"]) := by
  have hv : Vacant "wf" ["wf"] {} := vacant_of_isName (by decide)
  have hc : Addressed [
      .save "a" "t" ⟨"Titles", "read", "- press: End", none, some ["news"]⟩,
      .save "b" "u" ⟨"Prices", "read", "- press: Home", none, some ["shop"]⟩,
      .recordRun "v" "b", .delete "a"] :=
    ⟨by decide, by decide, by decide, by decide +kernel⟩
  obtain ⟨-, hnext, -⟩ := refines_map hv hc
  refine ⟨(hnext (.load "a") ⟨by decide, by decide, by decide, by decide +kernel⟩).1.trans ?_,
    (hnext (.list (some ["news", "shop"])) ⟨by decide, by decide, by decide,
      by decide +kernel⟩).1.trans ?_⟩
  · rfl
  · rfl

end Library

end BrowserFlow
