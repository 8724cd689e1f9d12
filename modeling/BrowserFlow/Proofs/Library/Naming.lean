import BrowserFlow.Proofs.Library.Course
import BrowserFlow.Proofs.World.Identifier

/-!
# Looking up by name

A name finds the first workflow that has it, in the order in which they were saved, as long as
nothing is at the path of the name (`load_byName_iff`). A name without slashes that is not the word
`index` is always as good as that. The word itself is never a name: its path is that of the index,
which is read as a workflow and is none (`Shelved.run_load_index`).
-/

namespace BrowserFlow

namespace Library

/-- The first workflow that has a name, whatever the case of its letters. -/
def firstNamed (name : String) (ws : List Workflow) : Option Workflow :=
  ws.find? fun w => Text.lower w.name.plainText == Text.lower name

/-- What should come of looking up a name. -/
def byName (ws : List Workflow) (name : String) : Except Failure Workflow :=
  match firstNamed name ws with
  | some w => .ok w
  | none => .error (.notFound name)

theorem firstNamed_shelf (name : String) (shelf : Shelf) :
    firstNamed name (shelf.map fun e => e.record.toWorkflow) =
      (shelf.named? name).map fun e => e.record.toWorkflow := by
  unfold firstNamed Shelf.named?
  rw [List.find?_map]
  rfl

theorem byName_shelf (name : String) (shelf : Shelf) :
    byName (shelf.map fun e => e.record.toWorkflow) name = shelf.byName name := by
  unfold byName Shelf.byName
  rw [firstNamed_shelf]
  cases shelf.named? name with
  | some e => rfl
  | none => rfl

/-- An identifier is drawn with figures and hyphens. -/
theorem isIdentifier_identifier (n : Nat) : IsIdentifier (World.identifier n) := by
  refine ⟨World.no_slash_identifier n, fun heq => ?_⟩
  have hlength := congrArg String.length heq
  unfold World.identifier at hlength
  rw [String.length_append] at hlength
  have hlong : "index".length < "00-0000-4000-8000-000000000000".length := by decide
  omega

namespace Shelved

variable {folder name : String} {here : List String} {first d : Disk} {shelf : Shelf} {e : Entry}
  (h : Shelved folder here first shelf d)

include h

/-- The word `index` finds the index, which is no workflow. -/
theorem run_load_index :
    (load folder (.text "index")).run d = (.error (.fault (.part "list" "get")), d) := by
  have hthere : d.has (path folder (.text "index")) = true := by
    have hhas : d.has (path folder (.text "index")) =
        (d.files.get? (indexKey here)).isSome := h.place.has_name isName_index
    rw [hhas, h.listed]
    rfl
  have hread : (Disk.read (path folder (.text "index"))).run d =
      (.ok (.json (.list (shelf.map Entry.item))), d) := h.place.run_read isName_index h.listed
  rw [run_load_of_content h.run_prepare (run_locate_there hthere) hread]
  rfl

/-- A name finds what it should exactly if its path does not lead anywhere else. -/
theorem run_load_byName_iff (hstrays : ¬ Strays folder first name) :
    (load folder (.text name)).run d = (shelf.byName name, d) ↔
      d.has (path folder (.text name)) = false ∨
        ∃ e, shelf.named? name = some e ∧ SamePath folder d name e.id := by
  rcases h.load_cases hstrays with ⟨habsent, hrun⟩ | ⟨e, he, hsame, hrun⟩ | ⟨hthere, helse, f, hrun⟩
  · exact ⟨fun _ => Or.inl habsent, fun _ => hrun⟩
  · -- two workflows are never the same one, as their identifiers differ
    rw [hrun]
    constructor
    · intro heq
      have hok := (Prod.mk.inj heq).1
      unfold Shelf.byName at hok
      cases hnamed : shelf.named? name with
      | none =>
        rw [hnamed] at hok
        cases hok
      | some e' =>
        rw [hnamed] at hok
        have he' : e' ∈ shelf := List.mem_of_find?_eq_some hnamed
        have hid : e.id = e'.id :=
          Value.text.inj (congrArg Workflow.id (Except.ok.inj hok))
        refine Or.inr ⟨e', rfl, ?_⟩
        rw [← h.eq_of_id he he' hid]
        exact hsame
    · rintro (habsent | ⟨e', hnamed, hsame'⟩)
      · rw [h.has_of_samePath he hsame] at habsent
        cases habsent
      · have he' : e' ∈ shelf := List.mem_of_find?_eq_some hnamed
        rw [h.samePath_identifier (h.isIdentifier he)] at hsame
        rw [h.samePath_identifier (h.isIdentifier he'), hsame] at hsame'
        have hid : e.id = e'.id := keyOf_inj.1 (Option.some.inj hsame')
        unfold Shelf.byName
        rw [hnamed, h.eq_of_id he he' hid]
  · rw [hrun]
    constructor
    · intro heq
      have herror := (Prod.mk.inj heq).1
      unfold Shelf.byName at herror
      cases hnamed : shelf.named? name with
      | none =>
        rw [hnamed] at herror
        cases herror
      | some e' =>
        rw [hnamed] at herror
        cases herror
    · rintro (habsent | ⟨e', hnamed, hsame⟩)
      · rw [habsent] at hthere
        cases hthere
      · exact absurd hsame (helse e' (List.mem_of_find?_eq_some hnamed))

end Shelved

section

variable {folder : String} {here : List String} {d : Disk} {calls : List Call}

/-- A workflow that is saved in the world is on the disk as after one more call. -/
theorem Vacant.run_save (hv : Vacant folder here d) (hc : Orderly folder (opened folder d) calls)
    {w : World} (hdisk : w.disk = after folder d calls)
    (hnew : World.identifier (w.drawn + 1) ∉ saved calls) (p : Proposal) :
    ∃ id now w', Orderly folder (opened folder d) (calls ++ [.save id now p]) ∧
      (save folder p.toDraft).run w = (.ok (p.record id now).toWorkflow, w') ∧
      w'.disk = after folder d (calls ++ [.save id now p]) := by
  obtain ⟨hshelved, hids⟩ := hv.shelved hc
  have hid := isIdentifier_identifier (w.drawn + 1)
  obtain ⟨d', henter, -⟩ := hshelved.run_enter hid (fun hold => hnew (hids.subset hold))
    (Clock.iso w.clock) p
  have hprepare := hshelved.run_prepare
  rw [← hdisk] at hprepare henter
  refine ⟨World.identifier (w.drawn + 1), Clock.iso w.clock,
    { w with drawn := w.drawn + 1, disk := d' }, ?_, ?_, ?_⟩
  · refine hc.concat (fun i hi => ?_) fun key hkey => by cases hkey
    cases hi
    exact ⟨hid, hnew⟩
  · rw [Library.run_save folder p.toDraft w hprepare, henter]
  · rw [after_concat, ← hdisk]
    unfold Call.next Call.run
    rw [Effect.run_map, Effect.run_mapError, henter]

/-- A name finds the first workflow that has it, or that there is none, exactly if nothing is at the
path of the name or the file of that very workflow is. So it is with every name without a slash that
is neither the word `index` nor an identifier, and so it is with a name that has just been given. -/
theorem load_byName_iff (hv : Vacant folder here d) (hc : Orderly folder (opened folder d) calls)
    {name : String} (hname : ¬ Strays folder (opened folder d) name) :
    ((load folder (.text name)).run (after folder d calls) =
          (byName (kept folder d calls) name, after folder d calls) ↔
        (after folder d calls).has (path folder (.text name)) = false ∨
          ∃ w, firstNamed name (kept folder d calls) = some w ∧
            (after folder d calls).resolve? (path folder (.text name)) =
              (after folder d calls).resolve? (path folder w.id)) ∧
      (IsIdentifier name → (∀ w ∈ kept folder d calls, w.id ≠ .text name) →
        (load folder (.text name)).run (after folder d calls) =
          (byName (kept folder d calls) name, after folder d calls)) ∧
      ∀ (w : World) (p : Proposal), w.disk = after folder d calls →
        World.identifier (w.drawn + 1) ∉ saved calls → p.name = name →
        firstNamed name (kept folder d calls) = none →
        ∃ new w', (save folder p.toDraft).run w = (.ok new, w') ∧
          ((load folder (.text name)).run w'.disk = (.ok new, w'.disk) ↔
            w'.disk.has (path folder (.text name)) = false ∨
              w'.disk.resolve? (path folder (.text name)) =
                w'.disk.resolve? (path folder new.id)) := by
  obtain ⟨hshelved, -⟩ := hv.shelved hc
  refine ⟨?_, ?_, ?_⟩
  · rw [hv.kept_eq hc, byName_shelf, firstNamed_shelf, hshelved.run_load_byName_iff hname]
    refine or_congr_right ?_
    constructor
    · rintro ⟨e, hnamed, hsame⟩
      exact ⟨e.record.toWorkflow, by rw [hnamed]; rfl, hsame⟩
    · rintro ⟨w, hw, hsame⟩
      obtain ⟨e, hnamed, rfl⟩ := Option.map_eq_some_iff.1 hw
      exact ⟨e, hnamed, hsame⟩
  · intro hid hnone
    rw [hv.kept_eq hc] at hnone ⊢
    rw [byName_shelf, hshelved.run_load_identifier hid]
    cases hget : (course folder d calls).2.get? name with
    | none => rfl
    | some e =>
      obtain ⟨he, hid⟩ := hshelved.get?_eq_some.1 hget
      exact absurd (congrArg Value.text hid) (hnone _ (List.mem_map_of_mem he))
  · intro w p hdisk hnew hp hnone
    obtain ⟨id, now, w', hc', hrun, hdisk'⟩ := hv.run_save hc hdisk hnew p
    refine ⟨_, w', hrun, ?_⟩
    obtain ⟨hshelved', -⟩ := hv.shelved hc'
    -- on the next shelf the new workflow is the only one of its name
    have hnamed : (course folder d (calls ++ [.save id now p])).2.named? name =
        some (.fresh p id now) := by
      rw [hv.kept_eq hc, firstNamed_shelf, Option.map_eq_none_iff] at hnone
      rw [course_concat]
      show Shelf.named? ((course folder d calls).2 ++ [Entry.fresh p id now]) name = _
      unfold Shelf.named? at hnone ⊢
      have hlower : Text.lower (Entry.fresh p id now).record.name = Text.lower name :=
        congrArg Text.lower hp
      rw [List.find?_append, hnone, Option.none_or, List.find?_singleton,
        if_pos (beq_iff_eq.2 hlower)]
    have hbyName : (course folder d (calls ++ [.save id now p])).2.byName name =
        .ok (p.record id now).toWorkflow := by
      unfold Shelf.byName
      rw [hnamed]
      rfl
    have hiff := hshelved'.run_load_byName_iff hname
    rw [hbyName, hnamed] at hiff
    rw [hdisk']
    refine hiff.trans (or_congr_right ?_)
    constructor
    · rintro ⟨e, he, hsame⟩
      cases he
      exact hsame
    · intro hsame
      exact ⟨_, rfl, hsame⟩

end

/-- Of two workflows with one name the first is found. -/
theorem load_byName_iff_titles :
    ∃ d' w, (load "wf" (.text "TITLES")).run d' = (.ok w, d') ∧ w.id = .text "a" := by
  have hc : Orderly "wf" (opened "wf" {}) [
      .save "a" "t" ⟨"Titles", "read", "- press: End", none, none⟩,
      .save "b" "u" ⟨"titles", "read", "- press: Home", none, none⟩] :=
    orderly_of_empty (by decide) (by decide) (by decide)
  have hv : Vacant "wf" ["wf"] {} := vacant_of_isName (by decide)
  have hname : ¬ Strays "wf" (opened "wf" {}) "TITLES" :=
    hv.not_strays_identifier (by decide)
  have hload := (load_byName_iff hv hc hname).1.2 (Or.inl (by decide +kernel))
  obtain ⟨w, hw, hid⟩ : ∃ w, byName (kept "wf" {} [
      .save "a" "t" ⟨"Titles", "read", "- press: End", none, none⟩,
      .save "b" "u" ⟨"titles", "read", "- press: Home", none, none⟩]) "TITLES" = .ok w ∧
      w.id = .text "a" := ⟨_, rfl, rfl⟩
  rw [hw] at hload
  exact ⟨_, w, hload, hid⟩

/-- A workflow with the name `index`. -/
theorem not_load_byName_index :
    ¬ ∀ (folder : String) (here : List String) (d : Disk) (calls : List Call) (name : String),
      Vacant folder here d → Orderly folder (opened folder d) calls →
      ¬ Strays folder (opened folder d) name → (∀ w ∈ kept folder d calls, w.id ≠ .text name) →
      (load folder (.text name)).run (after folder d calls) =
        (byName (kept folder d calls) name, after folder d calls) := by
  intro h
  have hv : Vacant "wf" ["wf"] {} := vacant_of_isName (by decide)
  have hc : Orderly "wf" (opened "wf" {})
      [.save "a" "t" ⟨"index", "read", "- press: End", none, none⟩] :=
    orderly_of_empty (by decide) (by decide) (by decide)
  have hname : ¬ Strays "wf" (opened "wf" {}) "index" :=
    hv.not_strays (fun k c hc => absurd hc (by simp)) "index"
  obtain ⟨hshelved, -⟩ := hv.shelved hc
  have hload := h "wf" ["wf"] {} _ "index" hv hc hname fun w hw heq => by
    rw [hv.kept_eq hc] at hw
    obtain ⟨e, he, rfl⟩ := List.mem_map.1 hw
    exact (hshelved.isIdentifier he).ne_index (Value.text.inj heq)
  rw [hshelved.run_load_index] at hload
  have hfault := (Prod.mk.inj hload).1
  unfold byName at hfault
  split at hfault
  · cases hfault
  · cases hfault

end Library

end BrowserFlow
