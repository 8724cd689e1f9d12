import BrowserFlow.Proofs.Disk.Writing
import BrowserFlow.Proofs.Journal.Record
import BrowserFlow.Proofs.Library.Shelf
import BrowserFlow.Proofs.Text.Scan
import Mathlib.Data.Rat.Defs
import Mathlib.Algebra.Order.Ring.Rat
import Mathlib.Data.String.Basic

/-!
# What is listed of the journal

The entries of a journal are the files of its folder whose names end as those of entries do
(`mem_ids`). Reading one of them comes down to the table of files (`run_get?`), and listing comes
down to reading each (`run_list`): if all of them can be read and have times, those on a workflow
are listed with the newest first (`run_list_of_lookup`, `pairwise_listed`); if one of them cannot be
read, nothing is listed (`run_list_of_fault`).
-/

namespace BrowserFlow

namespace Disk

variable {d : Disk} {folder n p : String} {here : List String}

theorem nameAfter?_eq_some : nameAfter? (lead here) p = some n ↔
    p = pathOf (n :: here) ∧ n ≠ "" ∧ '/' ∉ n.toList := by
  unfold nameAfter?
  rw [pathOf_cons]
  constructor
  · intro h
    split at h
    · rename_i c cs hdrop
      split at h
      · cases h
      · rename_i hslash
        cases h
        rw [Text.dropPrefix?_eq_some] at hdrop
        refine ⟨?_, ?_, by simpa using hslash⟩
        · rw [← String.toList_inj, hdrop]
          simp
        · simp
    · cases h
  · rintro ⟨rfl, hne, hslash⟩
    have hdrop : Text.dropPrefix? (lead here).toList (lead here ++ n).toList = some n.toList := by
      rw [Text.dropPrefix?_eq_some, String.toList_append]
    rw [hdrop]
    cases hn : n.toList with
    | nil => exact absurd (String.toList_eq_nil_iff.1 hn) hne
    | cons c cs =>
      rw [hn] at hslash
      have hfree : (c :: cs).contains '/' = false := by simpa using hslash
      dsimp only
      rw [hfree, ← hn]
      simp

theorem mem_namesIn (hnames : d.names? folder = some here) : n ∈ d.namesIn folder ↔
    (pathOf (n :: here) ∈ d.files.keys ∨ pathOf (n :: here) ∈ d.folders) ∧ n ≠ "" ∧
      '/' ∉ n.toList := by
  unfold namesIn
  rw [hnames]
  dsimp only
  rw [List.mem_filterMap]
  constructor
  · rintro ⟨p, hp, hn⟩
    obtain ⟨rfl, hne, hslash⟩ := nameAfter?_eq_some.1 hn
    exact ⟨List.mem_append.1 hp, hne, hslash⟩
  · rintro ⟨hp, hne, hslash⟩
    exact ⟨_, List.mem_append.2 hp, nameAfter?_eq_some.2 ⟨rfl, hne, hslash⟩⟩

end Disk

/-- The entry in a file. -/
def Content.entry (c : Content) : Except Fault Journal.Entry :=
  c.value >>= Journal.Entry.ofValue

namespace Journal

open Library (fileName keyOf isName_fileName)

variable {d : Disk} {folder id : String} {here : List String}

theorem idOf?_eq_some {name : String} : idOf? name = some id ↔ name = fileName id := by
  unfold idOf? fileName
  rw [Option.map_eq_some_iff]
  constructor
  · rintro ⟨cs, hcs, rfl⟩
    rw [Text.dropPrefix?_eq_some] at hcs
    have hname := congrArg List.reverse hcs
    rw [List.reverse_append, List.reverse_reverse, List.reverse_reverse] at hname
    rw [← String.toList_inj, String.toList_append, String.toList_ofList]
    exact hname
  · rintro rfl
    refine ⟨id.toList.reverse, ?_, ?_⟩
    · rw [Text.dropPrefix?_eq_some, String.toList_append, List.reverse_append]
    · rw [List.reverse_reverse, String.ofList_toList]

/-- The numbers of the entries in a folder, by the names of their files. -/
def ids (folder : String) (d : Disk) : List String :=
  (d.namesIn folder).filterMap idOf?

theorem mem_ids (hnames : d.names? folder = some here) : id ∈ ids folder d ↔
    (keyOf here id ∈ d.files.keys ∨ keyOf here id ∈ d.folders) ∧ '/' ∉ id.toList := by
  unfold ids
  rw [List.mem_filterMap]
  constructor
  · rintro ⟨n, hn, hid⟩
    obtain rfl := idOf?_eq_some.1 hid
    obtain ⟨hkey, -, hslash⟩ := (Disk.mem_namesIn hnames).1 hn
    refine ⟨hkey, fun h => hslash ?_⟩
    unfold fileName
    rw [String.toList_append]
    exact List.mem_append_left _ h
  · rintro ⟨hkey, hslash⟩
    have hname := isName_fileName hslash
    exact ⟨fileName id, (Disk.mem_namesIn hnames).2 ⟨hkey, hname.ne_empty, hname.no_slash⟩,
      idOf?_eq_some.2 rfl⟩

/-! ## Reading -/

theorem entry_of_value {c : Content} {v : Value} (h : c.value = .ok v) :
    c.entry = Entry.ofValue v := by
  unfold Content.entry
  rw [h]
  rfl

theorem entry_json (e : Entry) : (Content.json e.toValue).entry = .ok e.plain := by
  have hvalue : (Content.json e.toValue).value = .ok (Json.plain e.toValue) := rfl
  rw [entry_of_value hvalue, e.ofValue_plain]

theorem entry_empty : (Content.text "").entry = .error .notJson := by
  have hvalue : (Content.text "").value = .error .notJson := rfl
  unfold Content.entry
  rw [hvalue]
  rfl

/-- What is read at the number of an entry. -/
def lookup (here : List String) (d : Disk) (id : String) : Except Fault (Option Entry) :=
  if d.leadsToFolder (fileName id :: here) then .error .folder
  else match d.files.get? (keyOf here id) with
    | none => .ok none
    | some c => c.entry.map some

theorem run_get? (hnames : d.names? folder = some here) (hid : '/' ∉ id.toList) :
    (get? folder id).run d = (lookup here d id, d) := by
  have hpath : d.names? (path folder id) = some (fileName id :: here) := by
    show d.names? (pathIn folder (fileName id)) = _
    rw [Disk.names?_pathIn (isName_fileName hid), hnames]
    rfl
  have hfolder : d.isFolder (path folder id) = d.leadsToFolder (fileName id :: here) := by
    unfold Disk.isFolder
    rw [hpath]
    rfl
  have hfile : d.file? (path folder id) = d.files.get? (keyOf here id) := by
    unfold Disk.file? Disk.resolve?
    rw [hpath]
    rfl
  unfold get? lookup
  rw [Effect.run_bind_ok (Effect.run_get d)]
  unfold Disk.has
  rw [hfolder, hfile]
  cases hleads : d.leadsToFolder (fileName id :: here) with
  | true =>
    show Effect.run (Disk.read (path folder id) >>= _) d = _
    rw [Effect.run_bind, Disk.run_read, hfolder, hleads]
    rfl
  | false =>
    cases hget : d.files.get? (keyOf here id) with
    | none => rfl
    | some c =>
      show Effect.run (Disk.read (path folder id) >>= fun content => Effect.lift content.value >>=
        fun v => some <$> Effect.lift (Entry.ofValue v)) d = _
      rw [Effect.run_bind, Disk.run_read, hfolder, hleads, hfile, hget]
      unfold Content.entry
      show Effect.run (Effect.lift c.value >>= _) d = _
      rw [if_neg Bool.false_ne_true, Effect.run_bind, Effect.run_lift]
      show _ = (Except.map some (c.value >>= Entry.ofValue), d)
      cases c.value with
      | error f => rfl
      | ok v =>
        show Effect.run (some <$> Effect.lift (Entry.ofValue v)) d = _
        rw [Effect.run_map]
        rfl

theorem run_getAll (hnames : d.names? folder = some here) {ids : List String}
    (hids : ∀ id ∈ ids, '/' ∉ id.toList) :
    (getAll folder ids).run d =
      ((ids.mapM (lookup here d)).map fun es => es.flatMap Option.toList, d) := by
  induction ids with
  | nil => rfl
  | cons id rest ih =>
    have hrest := ih fun i hi => hids i (List.mem_cons_of_mem _ hi)
    unfold getAll
    rw [Effect.run_bind, run_get? hnames (hids id List.mem_cons_self), List.mapM_cons]
    cases lookup here d id with
    | error f => rfl
    | ok e =>
      dsimp only
      rw [Effect.run_bind, hrest]
      cases rest.mapM (lookup here d) with
      | error f => rfl
      | ok es => rfl

/-! ## Order -/

/-- The time at which an entry was made. -/
def timeOf (e : Entry) : Rat :=
  (time? e.timestamp).getD 0

theorem timed_eq {es : List Entry} (h : ∀ e ∈ es, (time? e.timestamp).isSome = true) :
    timed es = .ok (es.map fun e => (timeOf e, e)) := by
  -- a single entry is not asked for its time
  cases es with
  | nil => rfl
  | cons e rest =>
    cases rest with
    | nil => rfl
    | cons e' rest =>
      unfold timed
      dsimp only
      rw [← List.map_id (e :: e' :: rest)]
      refine (mapM_eq_ok fun x hx => ?_).trans (congrArg _ (by rw [List.map_id]))
      obtain ⟨t, ht⟩ := Option.isSome_iff_exists.1 (h x hx)
      unfold timeOf
      rw [id, ht]
      rfl

/-- Entries in the order in which they are listed. -/
def listed (es : List Entry) : List Entry :=
  ((es.map fun e => (timeOf e, e)).mergeSort listedBefore).map (·.2)

theorem listed_perm (es : List Entry) : (listed es).Perm es := by
  have hperm := (List.mergeSort_perm (es.map fun e => (timeOf e, e)) listedBefore).map Prod.snd
  have hsame : (es.map fun e => (timeOf e, e)).map Prod.snd = es := by
    rw [List.map_map]
    exact List.map_id es
  rwa [hsame] at hperm

theorem listedBefore_total (a b : Rat × Entry) :
    (listedBefore a b || listedBefore b a) = true := by
  unfold listedBefore
  by_cases h : a.1 = b.1
  · rw [if_pos h, if_pos h.symm]
    simpa using le_total a.2.id.plainText b.2.id.plainText
  · rw [if_neg h, if_neg (Ne.symm h)]
    simpa using le_total b.1 a.1

theorem listedBefore_time {a b : Rat × Entry} (h : listedBefore a b = true) : b.1 ≤ a.1 := by
  unfold listedBefore at h
  split at h
  · rename_i heq
    exact heq ▸ le_refl _
  · exact of_decide_eq_true h

theorem listedBefore_trans (a b c : Rat × Entry) (hab : listedBefore a b = true)
    (hbc : listedBefore b c = true) : listedBefore a c = true := by
  have hba := listedBefore_time hab
  have hcb := listedBefore_time hbc
  unfold listedBefore at hab hbc ⊢
  by_cases hac : a.1 = c.1
  · -- all three are of one time, so that the numbers decide
    have h₁ : a.1 = b.1 := le_antisymm (hac ▸ hcb) hba
    have h₂ : b.1 = c.1 := h₁.symm.trans hac
    rw [if_pos h₁, decide_eq_true_iff] at hab
    rw [if_pos h₂, decide_eq_true_iff] at hbc
    rw [if_pos hac, decide_eq_true_iff]
    exact hab.trans hbc
  · rw [if_neg hac, decide_eq_true_iff]
    exact hcb.trans hba

/-- The newest entry is listed first. -/
theorem pairwise_listed (es : List Entry) :
    (listed es).Pairwise fun a b => timeOf b ≤ timeOf a := by
  have hsorted := List.pairwise_mergeSort listedBefore_trans listedBefore_total
    (es.map fun e => (timeOf e, e))
  have htimes : ∀ x ∈ (es.map fun e => (timeOf e, e)).mergeSort listedBefore, x.1 = timeOf x.2 := by
    intro x hx
    obtain ⟨e, -, rfl⟩ := List.mem_map.1 ((List.mergeSort_perm _ _).subset hx)
    rfl
  unfold listed
  rw [List.pairwise_map]
  refine hsorted.imp_of_mem fun {a b} ha hb hab => ?_
  rw [← htimes a ha, ← htimes b hb]
  exact listedBefore_time hab

/-! ## Listing -/

/-- Whether an entry is asked for: all are if no workflow is named. -/
def wanted (workflowId : Value) (e : Entry) : Bool :=
  workflowId.isNull || e.workflowId.same workflowId

section

variable (hnames : d.names? folder = some here) (hleads : d.leadsToFolder here = true)

include hnames

theorem no_slash_of_mem_ids : ∀ id ∈ ids folder d, '/' ∉ id.toList :=
  fun _ hid => ((mem_ids hnames).1 hid).2

include hleads

theorem run_list (workflowId : Value) :
    (list folder workflowId).run d =
      (((ids folder d).mapM (lookup here d)).bind fun found =>
        (timed ((found.flatMap Option.toList).filter (wanted workflowId))).map fun es =>
          (es.mergeSort listedBefore).map (·.2), d) := by
  have hfolder : d.isFolder folder = true := by
    unfold Disk.isFolder
    rw [hnames]
    exact hleads
  have hall := run_getAll hnames (no_slash_of_mem_ids hnames)
  unfold list
  rw [Effect.run_bind_ok (Effect.run_get d), hfolder]
  show Effect.run (getAll folder (ids folder d) >>= _) d = _
  rw [Effect.run_bind, hall]
  cases (ids folder d).mapM (lookup here d) with
  | error f => rfl
  | ok found =>
    show Effect.run (Effect.lift (timed ((found.flatMap Option.toList).filter
      (wanted workflowId))) >>= _) d = ((timed _).map _, d)
    rw [Effect.run_bind, Effect.run_lift]
    cases timed ((found.flatMap Option.toList).filter (wanted workflowId)) with
    | error f => rfl
    | ok es => rfl

/-- Where all entries can be read and have times, those that are asked for are listed. -/
theorem run_list_of_lookup {entry : String → Entry}
    (hlookup : ∀ id ∈ ids folder d, lookup here d id = .ok (some (entry id)))
    (htimes : ∀ e ∈ (ids folder d).map entry, (time? e.timestamp).isSome = true)
    (workflowId : Value) :
    (list folder workflowId).run d =
      (.ok (listed (((ids folder d).map entry).filter (wanted workflowId))), d) := by
  have hread : (ids folder d).mapM (lookup here d) = .ok (((ids folder d).map entry).map some) := by
    have hall : ((ids folder d).map id).mapM (lookup here d) =
        .ok ((ids folder d).map (some ∘ entry)) := mapM_eq_ok hlookup
    rwa [List.map_id, ← List.map_map] at hall
  generalize (ids folder d).map entry = es at hread htimes ⊢
  have hes : (es.map some).flatMap Option.toList = es := by
    rw [List.flatMap_map]
    show es.flatMap (fun e => [e]) = es
    simp
  have htimed : timed (es.filter (wanted workflowId)) =
      .ok ((es.filter (wanted workflowId)).map fun e => (timeOf e, e)) :=
    timed_eq fun e he => htimes e (List.mem_of_mem_filter he)
  rw [run_list hnames hleads, hread]
  show ((timed (((es.map some).flatMap Option.toList).filter (wanted workflowId))).map _, d) = _
  rw [hes, htimed]
  rfl

/-- Where one entry cannot be read nothing is listed. -/
theorem run_list_of_fault {f : Fault} (hid : id ∈ ids folder d)
    (hfault : lookup here d id = .error f) (workflowId : Value) :
    ∃ f', (list folder workflowId).run d = (.error f', d) := by
  have hmap : ∀ xs : List String, id ∈ xs → ∃ f', xs.mapM (lookup here d) = .error f' := by
    intro xs hxs
    induction xs with
    | nil => cases hxs
    | cons x xs ih =>
      rw [List.mapM_cons]
      cases hx : lookup here d x with
      | error f' => exact ⟨f', rfl⟩
      | ok e =>
        rcases List.mem_cons.1 hxs with rfl | hxs
        · rw [hfault] at hx
          cases hx
        · obtain ⟨f', hf'⟩ := ih hxs
          exact ⟨f', by rw [hf']; rfl⟩
  obtain ⟨f', hf'⟩ := hmap _ hid
  exact ⟨f', by rw [run_list hnames hleads, hf']; rfl⟩

end

end Journal

end BrowserFlow
