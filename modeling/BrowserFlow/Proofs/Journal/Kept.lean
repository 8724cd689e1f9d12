import BrowserFlow.Proofs.Journal.Creation
import BrowserFlow.Proofs.World.Frame
import Mathlib.Data.List.Perm.Lattice

/-!
# A journal that is kept

`Kept folder es w` says that the journal in a folder holds some entries and nothing else: each of
them is in its file as a whole, and nothing else in the folder is named as an entry is. Whatever is
done `beside` a journal leaves it so (`Kept.confined`), and an entry that is made is one more
(`Kept.create`). What is listed of such a journal are its entries, each once and the newest first
(`Kept.run_list`).
-/

namespace BrowserFlow

open Effect

namespace Journal

open Library (fileName keyOf isName_fileName keyOf_inj)
open Disk (trail)

variable {folder id k : String} {es : List Entry} {w w' : World}

/-- The paths that are none of an entry. -/
def others (folder : String) : Set String :=
  {p | ∀ id, '/' ∉ id.toList → p ≠ keyOf (trail folder) id}

/-- The bounds of what is done beside a journal. -/
def beside (folder : String) : Disk.Bounds :=
  ⟨others folder, others folder⟩

/-- The journal in a folder holds some entries and nothing else, and no identifier is drawn next
that one of them has. -/
structure Kept (folder : String) (es : List Entry) (w : World) : Prop where
  files : ∀ e ∈ es,
    w.disk.files.get? (keyOf (trail folder) e.id.plainText) = some (.json e.toValue)
  only : ∀ id, '/' ∉ id.toList → keyOf (trail folder) id ∈ w.disk.files.keys →
    ∃ e ∈ es, e.id.plainText = id
  flat : ∀ p ∈ w.disk.folders, p ∈ others folder
  names : ∀ e ∈ es, '/' ∉ e.id.plainText.toList
  times : ∀ e ∈ es, (time? e.plain.timestamp).isSome = true
  distinct : (es.map fun e => e.id.plainText).Nodup
  keys : w.disk.files.keys.Nodup
  there : es ≠ [] → w.disk.isFolder folder = true
  fresh : ∀ e ∈ es, ∀ n, w.drawn < n → n < 16 ^ 6 → e.id.plainText ≠ World.identifier n

/-- There is no entry where there is no file and no folder. -/
theorem Kept.nil (hfiles : w.disk.files = []) (hfolders : w.disk.folders = []) :
    Kept folder [] w where
  files := fun e he => absurd he List.not_mem_nil
  only := by
    intro id _ hkey
    rw [hfiles] at hkey
    cases hkey
  flat := by
    intro p hp
    rw [hfolders] at hp
    cases hp
  names := fun e he => absurd he List.not_mem_nil
  times := fun e he => absurd he List.not_mem_nil
  distinct := List.nodup_nil
  keys := by
    rw [hfiles]
    exact List.nodup_nil
  there := fun hne => absurd rfl hne
  fresh := fun e he => absurd he List.not_mem_nil

/-- Only the disk and the numbers matter. -/
theorem Kept.of_eq (h : Kept folder es w) (hdisk : w'.disk = w.disk) (hdrawn : w'.drawn = w.drawn) :
    Kept folder es w' := by
  obtain ⟨hfiles, honly, hflat, hnames, htimes, hdistinct, hkeys, hthere, hfresh⟩ := h
  rw [← hdisk] at hfiles honly hflat hkeys hthere
  rw [← hdrawn] at hfresh
  exact ⟨hfiles, honly, hflat, hnames, htimes, hdistinct, hkeys, hthere, hfresh⟩

/-- What is done beside a journal does nothing to it. -/
theorem Kept.confined (h : Kept folder es w) (hc : World.Confined (beside folder) w w') :
    Kept folder es w' := by
  have hkept : ∀ id, '/' ∉ id.toList → w'.disk.files.get? (keyOf (trail folder) id) =
      w.disk.files.get? (keyOf (trail folder) id) := by
    intro id hid
    exact hc.disk.kept _ fun hmem => hmem id hid rfl
  exact
    { files := fun e he => (hkept _ (h.names e he)).trans (h.files e he)
      only := by
        intro id hid hkey
        rw [Table.mem_keys_iff, hkept id hid, ← Table.mem_keys_iff] at hkey
        exact h.only id hid hkey
      flat := fun p hp => (hc.disk.built p hp).elim (h.flat p) fun hmem => hmem
      names := h.names
      times := h.times
      distinct := h.distinct
      keys := hc.disk.keys h.keys
      there := by
        intro hne
        obtain ⟨here, hnames, hleads⟩ := (Option.any_eq_true _ _).1 (h.there hne)
        exact (Option.any_eq_true _ _).2
          ⟨here, hc.disk.names? hnames, hc.disk.leadsToFolder hleads⟩
      fresh := fun e he n hn => h.fresh e he n (Nat.lt_of_le_of_lt hc.drawn hn) }

/-- The folder of a journal can be made beside its entries. -/
theorem Kept.opened (h : Kept folder es w)
    (hstations : ∀ p ∈ Disk.stations folder, p ∈ others folder) :
    Kept folder es { w with disk := opened folder w.disk } := by
  refine h.confined ⟨?_, Nat.le_refl _⟩
  exact Disk.confined_makeFolder (B := beside folder) hstations w.disk

/-- An entry that is made and put into its file is one more. -/
theorem Kept.create (h : Kept folder es w)
    (hstations : ∀ p ∈ Disk.stations folder, p ∈ others folder)
    (htakes : Takes folder (World.identifier (w.drawn + 1)) k w.disk)
    (hdrawn : w.drawn + 1 < 16 ^ 6)
    {r : Report} {url workflowId analysis : Value} {digest : Option Digest}
    (he : Json.writable true (nextEntry w r url digest workflowId analysis).toValue = true) :
    Kept folder (es ++ [nextEntry w r url digest workflowId analysis])
      { w with
        drawn := w.drawn + 1
        disk := entered folder k (nextEntry w r url digest workflowId analysis) w.disk } := by
  have hid := World.no_slash_identifier (w.drawn + 1)
  have hopened := h.opened hstations
  obtain ⟨here, hnames, hleads, hfree, rfl⟩ := htakes.place hid
  obtain rfl := Disk.names?_eq_trail hnames
  have hleft : Disk.jsonLeft true (nextEntry w r url digest workflowId analysis).toValue =
      .json (nextEntry w r url digest workflowId analysis).toValue := if_pos he
  have hnew : (nextEntry w r url digest workflowId analysis).id.plainText =
      World.identifier (w.drawn + 1) := rfl
  have htime :
      (time? (nextEntry w r url digest workflowId analysis).plain.timestamp).isSome = true :=
    time?_float _
  generalize nextEntry w r url digest workflowId analysis = e at he hleft hnew htime
  -- the new identifier is that of no entry so far
  have hne : ∀ x ∈ es, x.id.plainText ≠ World.identifier (w.drawn + 1) := fun x hx =>
    h.fresh x hx _ (Nat.lt_succ_self _) hdrawn
  have hget : ∀ id, (entered folder (keyOf (trail folder) (World.identifier (w.drawn + 1))) e
      w.disk).files.get? (keyOf (trail folder) id) =
        if id = World.identifier (w.drawn + 1) then some (.json e.toValue)
        else w.disk.files.get? (keyOf (trail folder) id) := by
    intro id
    rw [Journal.get?_entered, hleft]
  exact
    { files := by
        refine List.forall_mem_append.2 ⟨fun x hx => ?_, List.forall_mem_singleton.2 ?_⟩
        · rw [hget, if_neg (hne x hx)]
          exact h.files x hx
        · rw [hget, if_pos hnew]
      only := by
        intro id hslash hkey
        rw [Table.mem_keys_iff, hget] at hkey
        by_cases heq : id = World.identifier (w.drawn + 1)
        · exact ⟨e, List.mem_append_right _ List.mem_cons_self, hnew.trans heq.symm⟩
        · rw [if_neg heq, ← Table.mem_keys_iff] at hkey
          obtain ⟨x, hx, hxid⟩ := h.only id hslash hkey
          exact ⟨x, List.mem_append_left _ hx, hxid⟩
      flat := hopened.flat
      names := List.forall_mem_append.2 ⟨h.names, List.forall_mem_singleton.2 (hnew ▸ hid)⟩
      times := List.forall_mem_append.2 ⟨h.times, List.forall_mem_singleton.2 htime⟩
      distinct := by
        rw [List.map_append, List.nodup_append]
        refine ⟨h.distinct, List.pairwise_singleton _ _, ?_⟩
        intro a ha b hb
        obtain ⟨x, hx, rfl⟩ := List.mem_map.1 ha
        obtain rfl := List.mem_singleton.1 hb
        show x.id.plainText ≠ e.id.plainText
        rw [hnew]
        exact hne x hx
      keys := Table.nodup_keys_put h.keys _ _
      there := by
        intro _
        refine (Option.any_eq_true _ _).2 ⟨trail folder, ?_, hleads⟩
        exact names?_entered hnames _ e
      fresh := by
        refine List.forall_mem_append.2 ⟨fun x hx n hn => ?_, List.forall_mem_singleton.2 ?_⟩
        · exact h.fresh x hx n (Nat.lt_of_succ_lt hn)
        · intro n hn hsmall
          rw [hnew]
          exact fun heq => absurd ((World.identifier_inj hdrawn hsmall).1 heq) (Nat.ne_of_lt hn) }

theorem nodup_ids {d : Disk} {here : List String} (hnames : d.names? folder = some here)
    (hkeys : d.files.keys.Nodup) (hflat : ∀ id, '/' ∉ id.toList → keyOf here id ∉ d.folders) :
    (ids folder d).Nodup := by
  -- no folder is named as an entry is
  have hfolders :
      (d.folders.filterMap (Disk.nameAfter? (Disk.lead here))).filterMap idOf? = [] := by
    refine List.filterMap_eq_nil_iff.2 fun n hn => ?_
    obtain ⟨p, hp, hname⟩ := List.mem_filterMap.1 hn
    obtain ⟨rfl, -, hslash⟩ := Disk.nameAfter?_eq_some.1 hname
    cases hid : idOf? n with
    | none => rfl
    | some id =>
      obtain rfl := idOf?_eq_some.1 hid
      refine absurd hp (hflat id fun h => hslash ?_)
      unfold fileName
      rw [String.toList_append]
      exact List.mem_append_left _ h
  have hids : ids folder d =
      (d.files.keys.filterMap (Disk.nameAfter? (Disk.lead here))).filterMap idOf? := by
    unfold ids Disk.namesIn
    rw [hnames]
    dsimp only
    rw [List.filterMap_append, List.filterMap_append, hfolders, List.append_nil]
  rw [hids]
  refine List.Nodup.filterMap ?_ (List.Nodup.filterMap ?_ hkeys)
  · intro n m id hn hm
    exact (idOf?_eq_some.1 hn).trans (idOf?_eq_some.1 hm).symm
  · intro p q n hp hq
    exact (Disk.nameAfter?_eq_some.1 hp).1.trans (Disk.nameAfter?_eq_some.1 hq).1.symm

section

variable {here : List String} (h : Kept folder es w)

include h

theorem Kept.not_mem_folders (hid : '/' ∉ id.toList) :
    keyOf (trail folder) id ∉ w.disk.folders :=
  fun hmem => h.flat _ hmem id hid rfl

/-- The numbers of the entries that are found are those of the entries. -/
theorem Kept.mem_ids_iff (hnames : w.disk.names? folder = some here) :
    id ∈ ids folder w.disk ↔ ∃ e ∈ es, e.id.plainText = id := by
  obtain rfl := Disk.names?_eq_trail hnames
  rw [mem_ids hnames]
  constructor
  · rintro ⟨hthere, hslash⟩
    exact h.only id hslash (hthere.resolve_right (h.not_mem_folders hslash))
  · rintro ⟨e, he, rfl⟩
    refine ⟨Or.inl ?_, h.names e he⟩
    rw [Table.mem_keys_iff, h.files e he]
    rfl

theorem Kept.lookup_eq {e : Entry} (he : e ∈ es) :
    lookup (trail folder) w.disk e.id.plainText = .ok (some e.plain) := by
  have hfree : w.disk.leadsToFolder (fileName e.id.plainText :: trail folder) = false := by
    have hcontains : w.disk.folders.contains (keyOf (trail folder) e.id.plainText) = false :=
      Bool.eq_false_iff.2 fun hc =>
        h.not_mem_folders (h.names e he) (List.contains_iff_mem.1 hc)
    have hname := (isName_fileName (h.names e he)).ne_dots
    unfold Disk.leadsToFolder
    unfold keyOf at hcontains
    rw [hcontains]
    simp [hname]
  unfold lookup
  rw [hfree, h.files e he]
  show (Content.json e.toValue).entry.map some = _
  rw [entry_json]
  rfl

theorem Kept.ids_perm (hnames : w.disk.names? folder = some here) :
    (ids folder w.disk).Perm (es.map fun e => e.id.plainText) := by
  obtain rfl := Disk.names?_eq_trail hnames
  refine (List.perm_ext_iff_of_nodup ?_ h.distinct).2 fun id => ?_
  · exact nodup_ids hnames h.keys fun id => h.not_mem_folders
  · rw [h.mem_ids_iff hnames, List.mem_map]

/-- What is listed are the entries that are asked for, each once and the newest first. -/
theorem Kept.run_list (workflowId : Value) :
    ∃ listing, (list folder workflowId).run w.disk = (.ok listing, w.disk) ∧
      listing.Perm ((es.map Entry.plain).filter (wanted workflowId)) ∧
      listing.Pairwise fun a b => timeOf b ≤ timeOf a := by
  cases hfolder : w.disk.isFolder folder with
  | false =>
    -- the folder has not been made yet, and there are no entries
    have hnil : es = [] := by
      by_contra hne
      rw [h.there hne] at hfolder
      cases hfolder
    refine ⟨[], ?_, by rw [hnil]; exact List.Perm.nil, List.Pairwise.nil⟩
    unfold list
    rw [Effect.run_bind_ok (Effect.run_get w.disk), hfolder]
    rfl
  | true =>
    unfold Disk.isFolder at hfolder
    obtain ⟨here, hnames, hleads⟩ := (Option.any_eq_true _ _).1 hfolder
    obtain rfl := Disk.names?_eq_trail hnames
    have hmem : ∀ id, id ∈ ids folder w.disk ↔ ∃ e ∈ es, e.id.plainText = id :=
      fun id => h.mem_ids_iff hnames
    -- the entries in the order of the names of their files
    have hfound := fun id => (hmem id).1
    choose! entry hentry hid using hfound
    have hlookup : ∀ id ∈ ids folder w.disk,
        lookup (trail folder) w.disk id = .ok (some (entry id).plain) := by
      intro id hthere
      have hread := h.lookup_eq (hentry id hthere)
      rwa [hid id hthere] at hread
    have htimes : ∀ e ∈ (ids folder w.disk).map fun id => (entry id).plain,
        (time? e.timestamp).isSome = true := by
      intro e he
      obtain ⟨id, hthere, rfl⟩ := List.mem_map.1 he
      exact h.times _ (hentry id hthere)
    have hperm : ((ids folder w.disk).map entry).Perm es := by
      have hsame : (es.map fun e => e.id.plainText).map entry = es := by
        rw [List.map_map]
        refine (List.map_congr_left fun e he => ?_).trans (List.map_id es)
        have hthere := (hmem e.id.plainText).2 ⟨e, he, rfl⟩
        exact List.inj_on_of_nodup_map h.distinct (hentry _ hthere) he (hid _ hthere)
      exact hsame ▸ (h.ids_perm hnames).map entry
    refine ⟨_, run_list_of_lookup hnames hleads hlookup htimes workflowId, ?_, pairwise_listed _⟩
    refine (listed_perm _).trans (List.Perm.filter _ ?_)
    have hplain : ((ids folder w.disk).map fun id => (entry id).plain) =
        ((ids folder w.disk).map entry).map Entry.plain := by
      rw [List.map_map]
      rfl
    rw [hplain]
    exact hperm.map Entry.plain

end

end Journal

end BrowserFlow
