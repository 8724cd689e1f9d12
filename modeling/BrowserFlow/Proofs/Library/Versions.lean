import BrowserFlow.Proofs.Library.Course

/-!
# Versions

The versions of a workflow are numbered from one on, and the last one is its document
(`Record.Sound`). A revision adds a version exactly if it brings a document that is neither empty
nor the old one (`Revision.Brings`), and nothing else adds one or changes one, so that the versions
at any time are the first of the versions at any later time (`versions_grow`).
-/

namespace BrowserFlow

namespace Library

/-- The versions are numbered from one on. -/
def Numbered (w : Workflow) : Prop :=
  w.versions.map (·.number) = (List.range' 1 w.versions.length).map fun n : Nat => .int n

/-- The last version is the document. -/
def Current (w : Workflow) : Prop :=
  w.versions.getLast?.map (·.document) = some w.document

/-- A revision brings a document that is neither empty nor the old one. -/
def Revision.Brings (c : Revision) (w : Workflow) : Prop :=
  ∃ s, c.document = some s ∧ s ≠ "" ∧ w.document ≠ .text s

/-- What a revision brings can be told from the record. -/
theorem newDocument?_eq_some {c : Revision} {old s : String} :
    c.newDocument? old = some s ↔ c.document = some s ∧ s ≠ "" ∧ s ≠ old := by
  unfold Revision.newDocument?
  rw [Option.filter_eq_some_iff, decide_eq_true_iff]

/-- The editions of a record are numbered from one on, and the last one is the document. -/
structure Record.Sound (r : Record) : Prop where
  numbered : r.editions.map (·.number) = List.range' 1 r.editions.length
  current : r.editions.getLast?.map (·.document) = some r.document

namespace Record

variable {r : Record}

theorem sound_record (p : Proposal) (id now : String) : (p.record id now).Sound where
  numbered := rfl
  current := rfl

theorem Sound.revised (h : r.Sound) (now : String) (c : Revision) : (r.revised now c).Sound := by
  unfold Record.revised Revision.edition?
  cases hnew : c.newDocument? r.document with
  | none =>
    refine ⟨?_, ?_⟩
    · show (r.editions ++ []).map Edition.number = List.range' 1 (r.editions ++ []).length
      rw [List.append_nil]
      exact h.numbered
    · show (r.editions ++ []).getLast?.map Edition.document = some r.document
      rw [List.append_nil]
      exact h.current
  | some s =>
    refine ⟨?_, ?_⟩
    · show (r.editions ++ [_]).map Edition.number = List.range' 1 (r.editions ++ [_]).length
      rw [List.map_append, h.numbered, List.length_append, List.length_singleton,
        List.range'_concat, List.map_singleton, Nat.one_mul, Nat.add_comm 1]
    · show (r.editions ++ [_]).getLast?.map Edition.document = some s
      rw [List.getLast?_concat]
      rfl

theorem Sound.counted (h : r.Sound) (now : String) : (r.counted now).Sound where
  numbered := h.numbered
  current := h.current

theorem Sound.toWorkflow (h : r.Sound) : Numbered r.toWorkflow ∧ Current r.toWorkflow := by
  refine ⟨?_, ?_⟩
  · have hnumbered := congrArg (List.map fun n : Nat => Value.int n) h.numbered
    rw [List.map_map] at hnumbered
    show (r.editions.map Edition.toVersion).map (·.number) =
      (List.range' 1 (r.editions.map Edition.toVersion).length).map _
    rw [List.map_map, List.length_map]
    exact hnumbered
  · have hcurrent := congrArg (Option.map Value.text) h.current
    show (r.editions.map Edition.toVersion).getLast?.map (·.document) = some (.text r.document)
    rw [List.getLast?_map, Option.map_map]
    rw [Option.map_map] at hcurrent
    exact hcurrent

theorem editions_revised (now : String) (c : Revision) (r : Record) :
    r.editions <+: (r.revised now c).editions :=
  List.prefix_append _ _

end Record

section

variable {folder : String} {here : List String} {d : Disk} {calls more : List Call}

theorem sound_course (calls : List Call) : ∀ e ∈ (course folder d calls).2, e.record.Sound := by
  induction calls using List.reverseRecOn with
  | nil => exact fun e he => absurd he List.not_mem_nil
  | append_singleton calls c ih =>
    intro x hx
    rw [course_concat] at hx
    rcases Call.mem_turn hx with ⟨id, now, p, -, rfl⟩ | ⟨e, he, rfl | ⟨now, _, r, -, rfl⟩ | ⟨now, _, -, rfl⟩⟩
    · exact Record.sound_record p id now
    · exact ih x he
    · exact (ih e he).revised now r
    · exact (ih e he).counted now

/-- The editions of a record that is kept are the first of its later ones. -/
theorem prefix_course {first : Disk} (hc : Orderly folder first (calls ++ more))
    (hids : (course folder d calls).2.ids.Sublist (saved calls)) {e : Entry}
    (he : e ∈ (course folder d calls).2)
    (honce : ∀ e' ∈ (course folder d calls).2, e'.id = e.id → e' = e) :
    ∀ e' ∈ (course folder d (calls ++ more)).2, e'.id = e.id →
      e.record.editions <+: e'.record.editions := by
  induction more using List.reverseRecOn with
  | nil =>
    intro e' he' hid
    rw [List.append_nil] at he'
    obtain rfl := honce e' he' hid
    exact List.prefix_rfl
  | append_singleton more c ih =>
    rw [← List.append_assoc] at hc
    intro x hx hid
    rw [← List.append_assoc, course_concat] at hx
    have hold := ih hc.before
    rcases Call.mem_turn hx with ⟨id, now, p, rfl, rfl⟩ |
      ⟨e', he', rfl | ⟨now, _, r, -, rfl⟩ | ⟨now, _, -, rfl⟩⟩
    · -- what is saved now was not kept before
      have hnew := (hc.last.1 id rfl).2
      have hmem : e.id ∈ saved calls := hids.subset (List.mem_map_of_mem he)
      have hid : id = e.id := hid
      rw [saved_append, hid] at hnew
      exact absurd (List.mem_append_left _ hmem) hnew
    · exact hold x he' hid
    · exact (hold e' he' hid).trans (Record.editions_revised now r e'.record)
    · exact hold e' he' hid

/-- Of a shelf of which one entry is changed only that one workflow is another. -/
theorem Shelved.map_alter {first : Disk} {shelf : Shelf} {D : Disk}
    (h : Shelved folder here first shelf D) {e : Entry} (he : e ∈ shelf) (f : Entry → Entry) :
    (shelf.alter e.id f).map (fun e => e.record.toWorkflow) =
      (shelf.map fun e => e.record.toWorkflow).map fun w =>
        if w.id.same (.text e.id) then (f e).record.toWorkflow else w := by
  rw [← h.alter_eq he]
  unfold Shelf.alter
  rw [List.map_map, List.map_map]
  refine List.map_congr_left fun e' _ => ?_
  rw [Function.comp_apply, Function.comp_apply]
  have hsame : e'.record.toWorkflow.id.same (.text e.id) = (e'.id == e.id) := rfl
  rw [hsame]
  by_cases hid : e'.id = e.id
  · rw [if_pos hid, if_pos (beq_iff_eq.2 hid)]
  · rw [if_neg hid, if_neg (mt beq_iff_eq.1 hid)]

theorem brings_iff {c : Revision} {r : Record} :
    c.Brings r.toWorkflow ↔ ∃ s, c.newDocument? r.document = some s := by
  unfold Revision.Brings
  refine exists_congr fun s => ?_
  rw [newDocument?_eq_some]
  refine and_congr_right fun _ => and_congr_right fun _ => not_congr ?_
  exact ⟨fun heq => (Value.text.inj heq).symm, fun heq => congrArg Value.text heq.symm⟩

/-- What a revision that brings a document does to the versions. -/
theorem versions_of_brings {c : Revision} {r : Record} (h : c.Brings r.toWorkflow) (now : String) :
    (r.revised now c).toWorkflow.versions = r.toWorkflow.versions ++
        [⟨.int (r.toWorkflow.versions.length + 1), (r.revised now c).toWorkflow.document,
          (r.revised now c).toWorkflow.intent, .text now, .text c.reason⟩] ∧
      c.document.map .text = some (r.revised now c).toWorkflow.document := by
  obtain ⟨s, hs⟩ := brings_iff.1 h
  have hdocument := (newDocument?_eq_some.1 hs).1
  refine ⟨?_, ?_⟩
  · show (r.editions ++ (c.edition? now r).toList).map Edition.toVersion = _
    unfold Revision.edition?
    rw [hs, List.map_append]
    simp [Record.toWorkflow, Record.revised, hs, Edition.toVersion]
  · rw [hdocument]
    simp [Record.toWorkflow, Record.revised, hs]

/-- What a revision that brings no document does to the versions. -/
theorem versions_of_not_brings {c : Revision} {r : Record} (h : ¬ c.Brings r.toWorkflow)
    (now : String) :
    (r.revised now c).toWorkflow.versions = r.toWorkflow.versions ∧
      (r.revised now c).toWorkflow.document = r.toWorkflow.document := by
  have hnone : c.newDocument? r.document = none := by
    cases hnew : c.newDocument? r.document with
    | none => rfl
    | some s => exact absurd (brings_iff.2 ⟨s, hnew⟩) h
  refine ⟨?_, ?_⟩
  · show (r.editions ++ (c.edition? now r).toList).map Edition.toVersion = _
    unfold Revision.edition?
    rw [hnone]
    simp [Record.toWorkflow]
  · simp [Record.toWorkflow, Record.revised, hnone]

/-- After any calls the versions of each workflow are numbered from one on and end with its
document. Whatever calls follow leave them as the first of its versions. A revision adds one version
if it brings a document and none if not, or no workflow is found and it changes nothing; recording a
run adds none. -/
theorem versions_grow (hv : Vacant folder here d)
    (hc : Orderly folder (opened folder d) (calls ++ more)) :
    (∀ w ∈ kept folder d calls, Numbered w ∧ Current w) ∧
      (∀ w ∈ kept folder d calls, ∀ w' ∈ kept folder d (calls ++ more), w'.id = w.id →
        w.versions <+: w'.versions) ∧
      (∀ now key (c : Revision), ¬ Strays folder (opened folder d) key →
        (∃ w ∈ kept folder d calls, ∃ w', (load folder (.text key)).run (after folder d calls) =
              (.ok w, after folder d calls) ∧
            ((update folder now (.text key) c.toChanges).run (after folder d calls)).1 = .ok w' ∧
            kept folder d (calls ++ [.update now key c]) =
              (kept folder d calls).map (fun v => if v.id.same w.id then w' else v) ∧
            (c.Brings w → w'.versions = w.versions ++ [⟨.int (w.versions.length + 1), w'.document,
                w'.intent, .text now, .text c.reason⟩] ∧ c.document.map .text = some w'.document) ∧
            (¬ c.Brings w → w'.versions = w.versions ∧ w'.document = w.document)) ∨
          ∃ f, (load folder (.text key)).run (after folder d calls) =
              (.error f, after folder d calls) ∧
            (update folder now (.text key) c.toChanges).run (after folder d calls) =
              (.error f, after folder d calls)) ∧
      ∀ now key, ¬ Strays folder (opened folder d) key →
        (kept folder d (calls ++ [.recordRun now key])).map (·.versions) =
          (kept folder d calls).map (·.versions) := by
  have hbefore := hc.before
  obtain ⟨hshelved, hids⟩ := hv.shelved hbefore
  have hkept := hv.kept_eq hbefore
  refine ⟨?_, ?_, ?_, ?_⟩
  · intro w hw
    rw [hkept] at hw
    obtain ⟨e, he, rfl⟩ := List.mem_map.1 hw
    exact (sound_course calls e he).toWorkflow
  · intro w hw w' hw' hid
    rw [hkept] at hw
    rw [hv.kept_eq hc] at hw'
    obtain ⟨e, he, rfl⟩ := List.mem_map.1 hw
    obtain ⟨e', he', rfl⟩ := List.mem_map.1 hw'
    refine List.IsPrefix.map Edition.toVersion ?_
    refine prefix_course hc hids he (fun e₂ he₂ hid₂ => hshelved.eq_of_id he₂ he hid₂) e' he' ?_
    exact Value.text.inj hid
  · intro now key c hkey
    rcases hshelved.load_ok_or_error hkey with ⟨e, he, hload⟩ | ⟨f, hload⟩
    · refine Or.inl ⟨e.record.toWorkflow, ?_, (e.record.revised now c).toWorkflow, hload, ?_, ?_,
        ?_, ?_⟩
      · rw [hkept]
        exact List.mem_map_of_mem he
      · obtain ⟨d', hrun, -⟩ := hshelved.run_update he hload now c
        rw [hrun]
      · have hnext : Orderly folder (opened folder d) (calls ++ [.update now key c]) := by
          refine hbefore.concat (fun id hid => by cases hid) fun k hk => ?_
          cases hk
          exact hkey
        rw [hv.kept_eq hnext, course_concat, hkept]
        unfold advance Call.turn
        rw [course_fst]
        dsimp only
        rw [found?_of_ok hload]
        exact hshelved.map_alter he _
      · exact fun h => versions_of_brings h now
      · exact fun h => versions_of_not_brings h now
    · exact Or.inr ⟨f, hload, run_update_error hload now _⟩
  · intro now key hkey
    have hnext : Orderly folder (opened folder d) (calls ++ [.recordRun now key]) := by
      refine hbefore.concat (fun id hid => by cases hid) fun k hk => ?_
      cases hk
      exact hkey
    rw [hv.kept_eq hnext, course_concat, hkept]
    unfold advance Call.turn
    dsimp only
    split
    · unfold Shelf.alter
      rw [List.map_map, List.map_map, List.map_map]
      refine List.map_congr_left fun e _ => ?_
      simp only [Function.comp_apply]
      split
      · rfl
      · rfl
    · rfl

end

/-- A workflow that is revised twice, the second time with the same document, and then run. -/
theorem versions_grow_scrolled :
    (∀ w ∈ kept "wf" {} [.save "a" "t" ⟨"Titles", "read", "- press: End", none, none⟩,
        .update "u" "a" { document := some "- press: Home" },
        .update "v" "titles" { document := some "- press: Home" }], Numbered w ∧ Current w) ∧
      (kept "wf" {} [.save "a" "t" ⟨"Titles", "read", "- press: End", none, none⟩,
        .update "u" "a" { document := some "- press: Home" },
        .update "v" "titles" { document := some "- press: Home" }]).map
        (fun w => w.versions.length) = [2] := by
  have hc : Orderly "wf" (opened "wf" {}) ([
      .save "a" "t" ⟨"Titles", "read", "- press: End", none, none⟩,
      .update "u" "a" { document := some "- press: Home" },
      .update "v" "titles" { document := some "- press: Home" }] ++ [.recordRun "x" "a"]) :=
    orderly_of_empty (by decide) (by decide) (by decide)
  exact ⟨(versions_grow (vacant_of_isName (by decide)) hc).1, by decide +kernel⟩

end Library

end BrowserFlow
