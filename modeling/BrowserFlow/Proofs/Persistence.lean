import BrowserFlow.Context
import BrowserFlow.Proofs.Journal.Creation
import BrowserFlow.Proofs.Json.RoundTrip
import BrowserFlow.Proofs.Library.Mutation
import BrowserFlow.Proofs.World.Frame

/-!
# What is kept comes back

Digests, workflows and entries of the journal are rebuilt from their records as they were, whatever
their fields hold. If these are proper values they also come back from a disk: an entry of the
journal and a workflow are kept as files and found by their numbers, and a context is kept as a
text. A workflow that has been saved is found again on any disk on which it could be saved
(`Library.run_load_saved`). Making an entry returns it even if no file can be opened for it, with a
warning, and then there is nothing to come back (`Journal.create_comes_back`).
-/

namespace BrowserFlow

/-! ## Digests -/

theorem Pattern.completed_toValue (p : Pattern) : completed p.toValue = .ok p.toValue := rfl

theorem Pattern.ofRecord_toValue (p : Pattern) : ofRecord p.toValue = p := rfl

/-- A digest is rebuilt as it was. -/
theorem Digest.ofValue_toValue (d : Digest) : ofValue d.toValue = .ok d := by
  have hpatterns : (d.patterns.map Pattern.toValue).mapM Pattern.completed =
      .ok (d.patterns.map Pattern.toValue) :=
    mapM_eq_ok fun p _ => p.completed_toValue
  have hcompleted : completed d.toValue = .ok d.toValue := by
    show ((d.patterns.map Pattern.toValue).mapM Pattern.completed >>= fun patterns => _) = _
    rw [hpatterns]
    rfl
  have hrecords : (d.patterns.map Pattern.toValue).map Pattern.ofRecord = d.patterns := by
    rw [List.map_map]
    exact (List.map_congr_left fun p _ => p.ofRecord_toValue).trans (List.map_id' d.patterns)
  have htexts : ∀ ss : List String, (ss.map Value.text).map Value.plainText = ss := by
    intro ss
    rw [List.map_map]
    exact List.map_id' ss
  unfold ofValue
  rw [hcompleted]
  show Except.ok ({ d with
    patterns := (d.patterns.map Pattern.toValue).map Pattern.ofRecord
    texts := (d.texts.map Value.text).map Value.plainText
    attributes := (d.attributes.map Value.text).map Value.plainText } : Digest) = _
  rw [hrecords, htexts, htexts]

/-! ## Contexts -/

/-- A context is read back from its text if its values are proper and its numbers are read back. -/
theorem Context.ofJson_toJson {values : Table Value}
    (h : Json.Proper Json.ReadBack (.record values)) :
    ofJson (toJson values) = .ok (.record values) := by
  have hread : Json.read (toJson values) = .ok (.record values) := h.read_textAt rfl 0
  have hsome : (toJson values).isEmpty = false := by
    refine Bool.eq_false_iff.2 fun hempty => ?_
    rw [String.isEmpty_iff.1 hempty] at hread
    cases hread
  unfold ofJson
  rw [hsome, hread]
  rfl

/-! ## Files -/

/-- The file of a proper value is read as its text is. -/
theorem Content.value_toText {v : Value} (h : Json.Proper Json.ReadBack v) :
    (Content.text (Content.json v).toText).value = (Content.json v).value := by
  have hread : Json.read (Content.json v).toText = .ok v := h.read_textAt rfl 0
  show (Json.read (Content.json v).toText).mapError Json.ReadError.toFault = .ok (Json.plain v)
  rw [hread, h.lasting.plain]
  rfl

/-- A JSON file that has been written holds the value. -/
theorem Disk.writeJson_ok {d d' : Disk} {foreign : Bool} {p : String} {v : Value}
    (h : (writeJson foreign p v).run d = (.ok (), d')) :
    ∃ k, Opens p k d ∧ d' = { d with files := d.files.put k (.json v) } := by
  rcases writeJson_cases d foreign p v with ⟨k, hk, hrun⟩ | ⟨-, f, -, hrun⟩
  · rw [hrun] at h
    obtain ⟨hwritten, rfl⟩ := Prod.mk.inj h
    split at hwritten
    · rename_i hwritable
      refine ⟨k, hk, ?_⟩
      unfold jsonLeft
      rw [if_pos hwritable]
    · cases hwritten
  · rw [hrun] at h
    cases h

/-! ## The journal -/

/-- Making an entry with proper values returns it. It is found by its number as it was returned if
a file could be opened for it; otherwise there is one more warning, and the files are as they
were. -/
theorem Journal.create_comes_back (folder : String) (r : Report) (url : Value)
    (digest : Option Digest) (workflowId analysis : Value) (w : World)
    (h : Json.Lasting (nextEntry w r url digest workflowId analysis).toValue) :
    let e := nextEntry w r url digest workflowId analysis
    ∃ w', (create folder r url digest workflowId analysis).run w = (.ok e, w') ∧
      ((∃ k, Takes folder e.id.plainText k w.disk) ∧ w'.warnings = w.warnings ∧
          (get? folder e.id.plainText).run w'.disk = (.ok (some e), w'.disk) ∨
        (∀ k, ¬ Takes folder e.id.plainText k w.disk) ∧
          (∃ line, w'.warnings = w.warnings ++ [line]) ∧ w'.disk.files = w.disk.files) := by
  have hcases := create_cases folder r url digest workflowId analysis w
  have hid : (nextEntry w r url digest workflowId analysis).id.plainText =
      World.identifier (w.drawn + 1) := rfl
  have hslash := World.no_slash_identifier (w.drawn + 1)
  have htime :
      (time? (nextEntry w r url digest workflowId analysis).plain.timestamp).isSome = true :=
    time?_float _
  rw [← hid] at hcases hslash
  generalize nextEntry w r url digest workflowId analysis = e at h hcases hslash htime ⊢
  have hwritable : Json.writable true e.toValue = true := h.plain ▸ Json.writable_plain e.toValue
  have hplain : e.plain = e := by
    have hboth : Except.ok e.plain = (Except.ok e : Except Fault Entry) := by
      rw [← e.ofValue_plain, h.plain, e.ofValue_toValue]
    exact Except.ok.inj hboth
  rcases hcases with ⟨k, htakes, hrun⟩ | ⟨hnone, f, hrun⟩
  · rw [hwritable] at hrun
    refine ⟨_, hrun, Or.inl ⟨⟨k, htakes⟩, rfl, ?_⟩⟩
    rcases (htakes.survives hslash htime hwritable).file with ⟨-, -, -, hget⟩ | ⟨hnone, -⟩
    · rwa [hplain] at hget
    · exact absurd htakes (hnone k)
  · exact ⟨_, hrun, Or.inr ⟨hnone, ⟨_, rfl⟩, opened_files _ _⟩⟩

/-! ## The library -/

namespace Library

variable {folder id now : String} {draft : Draft} {d d' made : Disk} {v : Workflow}

/-- Preparing finds its folder again, and the index if there is one. -/
theorem run_prepare_again {B : Disk.Bounds} (h : (prepare folder).run d = (.ok (), made))
    (hconfined : Disk.Confined B made d') (hindex : d'.has (indexPath folder) = true) :
    (prepare folder).run d' = (.ok (), d') := by
  unfold prepare at h ⊢
  obtain ⟨⟨⟩, opened, hmade, h⟩ := Effect.bind_ok h
  have hmade := Disk.run_makeFolder.1 hmade
  have hopened : Disk.Confined .all opened made := by
    have hrest : Effect.Leads (Disk.Confined .all) (do
        if !(← get).has (indexPath folder) then
          Disk.writeJson false (indexPath folder) (.list []) : Effect Fault Disk Unit) :=
      Effect.leads_get_bind fun d => Effect.leads_ite
        (Disk.confined_writeJson (Set.mem_univ _) _ _) (Effect.leads_pure _)
    exact hrest.of_run h
  have hlater : Disk.Confined .all opened d' :=
    trans_of _ hopened (hconfined.mono (Set.subset_univ _) (Set.subset_univ _))
  have hagain : d'.makeFrom [] (Disk.namesOf folder) = .ok d' :=
    Disk.makeFrom_again hmade hlater.stay fun p hp hc =>
      (Disk.makeFrom_grows hmade).1 ▸ hlater.free p hp hc
  rw [Effect.run_bind_ok (Disk.run_makeFolder.2 hagain), Effect.run_bind_ok (Effect.run_get d'),
    hindex]
  rfl

/-- Entering a workflow leaves it in its file, and an index beside it. -/
theorem enter_ok (h : (enter folder id now draft).run d = (.ok v, d')) :
    ∃ made k i index, (prepare folder).run d = (.ok (), made) ∧ v.id = .text id ∧
      Disk.Opens (path folder v.id) k made ∧ Disk.Opens (indexPath folder) i made ∧
      d' = { made with files := (made.files.put k (.json v.toValue)).put i (.json index) } := by
  unfold enter at h
  obtain ⟨⟨⟩, made, hprepare, h⟩ := Effect.bind_ok h
  obtain ⟨w, t, hdraft, h⟩ := Effect.bind_ok h
  obtain ⟨hw, rfl⟩ := Prod.mk.inj hdraft
  obtain ⟨⟨⟩, t, hadd, h⟩ := Effect.bind_ok h
  obtain ⟨hv, rfl⟩ := Prod.mk.inj h
  obtain rfl := Except.ok.inj hv
  unfold add at hadd
  obtain ⟨⟨⟩, written, hwrite, hadd⟩ := Effect.bind_ok hadd
  obtain ⟨k, hk, rfl⟩ := Disk.writeJson_ok hwrite
  obtain ⟨told, t, hindex, hadd⟩ := Effect.bind_ok hadd
  have hkeeps : Effect.Keeps (fun d : Disk => d) (index folder) := keeps_index folder
  obtain rfl := hkeeps.of_run hindex
  obtain ⟨updated, t, hupdated, hadd⟩ := Effect.bind_ok hadd
  obtain ⟨-, rfl⟩ := Prod.mk.inj hupdated
  obtain ⟨i, hi, rfl⟩ := Disk.writeJson_ok hadd
  exact ⟨made, k, i, updated, hprepare, (ofDraft_ok hw).1, hk, Disk.opens_files.1 hi, rfl⟩

/-- A workflow that has been entered is found by its number, as it was returned. -/
theorem run_load_entered (h : (enter folder id now draft).run d = (.ok v, d'))
    (hid : IsIdentifier id) (hlasting : Json.Lasting v.toValue) :
    (load folder v.id).run d' = (.ok v, d') := by
  obtain ⟨made, k, i, index, hprepare, hvid, hk, hi, hd'⟩ := enter_ok h
  have hk' : Disk.Opens (path folder v.id) k d' := hd' ▸ Disk.opens_files.2 hk
  have hi' : Disk.Opens (indexPath folder) i d' := hd' ▸ Disk.opens_files.2 hi
  -- the index is not in the file of the workflow
  have hne : i ≠ k := by
    have hk : k = keyOf (Disk.trail folder) id := by
      rw [hk.eq_trail, hvid]
      exact congrArg Disk.pathOf (Disk.trail_pathIn hid.isName folder)
    have hi : i = indexKey (Disk.trail folder) := by
      rw [hi.eq_trail]
      exact congrArg Disk.pathOf (Disk.trail_pathIn isName_index folder)
    rw [hk, hi]
    exact (hid.keyOf_ne _).symm
  have hfile : d'.files.get? k = some (.json v.toValue) := by
    rw [hd', Table.get?_put, if_neg hne, Table.get?_put, if_pos rfl]
  have hindex : d'.has (indexPath folder) = true := by
    unfold Disk.has
    rw [hi'.file?, hd', Table.get?_put, if_pos rfl]
    exact Bool.or_true _
  have hthere : d'.has (path folder v.id) = true := by
    unfold Disk.has
    rw [hk'.file?, hfile]
    exact Bool.or_true _
  have hconfined : Disk.Confined .all made d' := by
    rw [hd']
    exact trans_of _ (hk.confined (Set.mem_univ _) _)
      ((Disk.opens_files.2 hi).confined (Set.mem_univ _) _)
  have hlocate : (locate folder v.id).run d' = (.ok (path folder v.id), d') := by
    rw [hvid] at hthere ⊢
    exact run_locate_there hthere
  have hread : (Disk.read (path folder v.id)).run d' = (.ok (.json v.toValue), d') := by
    rw [Disk.run_read, hk'.not_isFolder, hk'.file?, hfile]
    rfl
  have hworkflow : (Content.json v.toValue).workflow? = .ok v := by
    unfold Content.workflow?
    rw [hlasting.value]
    exact v.ofValue_toValue
  rw [run_load_of_content (run_prepare_again hprepare hconfined hindex) hlocate hread, hworkflow]
  rfl

/-- A workflow that has been saved is found by its number, as it was returned. -/
theorem run_load_saved {w w' : World} (h : (save folder draft).run w = (.ok v, w'))
    (hlasting : Json.Lasting v.toValue) : (load folder v.id).run w'.disk = (.ok v, w'.disk) := by
  obtain ⟨hresult, hdisk⟩ := Mutation.run_save_enter folder draft w
  rw [h] at hresult hdisk
  exact run_load_entered (Prod.ext hresult.symm hdisk.symm) (isIdentifier_identifier _) hlasting

end Library

/-! ## All of it -/

/-- Digests, workflows and entries of the journal are rebuilt from their records as they were. With
proper values, the entry that is made on a run is found by its number as it was returned, unless no
file can be opened for it, where a warning is given and the files are left as they are; a workflow
that is saved is found by its number as it was returned; and a context is read back from its text,
if its numbers are. -/
theorem comes_back :
    (∀ d : Digest, Digest.ofValue d.toValue = .ok d) ∧
    (∀ v : Workflow, Workflow.ofValue v.toValue = .ok v) ∧
    (∀ e : Journal.Entry, Journal.Entry.ofValue e.toValue = .ok e) ∧
    (∀ (folder : String) (r : Report) (url : Value) (digest : Option Digest)
      (workflowId analysis : Value) (w : World),
      let e := Journal.nextEntry w r url digest workflowId analysis
      Json.Proper (fun _ => True) e.toValue →
      ∃ w', (Journal.create folder r url digest workflowId analysis).run w = (.ok e, w') ∧
        ((∃ k, Journal.Takes folder e.id.plainText k w.disk) ∧ w'.warnings = w.warnings ∧
            (Journal.get? folder e.id.plainText).run w'.disk = (.ok (some e), w'.disk) ∨
          (∀ k, ¬ Journal.Takes folder e.id.plainText k w.disk) ∧
            (∃ line, w'.warnings = w.warnings ++ [line]) ∧ w'.disk.files = w.disk.files)) ∧
    (∀ (folder : String) (draft : Draft) (v : Workflow) (w w' : World),
      (Library.save folder draft).run w = (.ok v, w') → Json.Proper (fun _ => True) v.toValue →
      (Library.load folder v.id).run w'.disk = (.ok v, w'.disk)) ∧
    (∀ values : Table Value, Json.Proper Json.ReadBack (.record values) →
      Context.ofJson (Context.toJson values) = .ok (.record values)) :=
  ⟨Digest.ofValue_toValue, Workflow.ofValue_toValue, Journal.Entry.ofValue_toValue,
    fun folder r url digest workflowId analysis w h =>
      Journal.create_comes_back folder r url digest workflowId analysis w h.lasting,
    fun _ _ _ _ _ h hproper => Library.run_load_saved h hproper.lasting,
    fun _ h => Context.ofJson_toJson h⟩

/-- The entry on a document without steps. -/
def blankEntry (w : World) : Journal.Entry :=
  Journal.nextEntry w (.ofSteps [] 0 0 false) (.text "u") none .null .null

theorem proper_blankEntry (w : World) : Json.Proper (fun _ => True) (blankEntry w).toValue := by
  have hreport : Json.Proper (fun _ => True) (Report.ofSteps [] 0 0 false).toValue := by
    refine .record (by simp) ?_
    simp only [List.forall_mem_cons, List.not_mem_nil, false_imp_iff, implies_true, and_true]
    exact ⟨.int trivial, .int trivial, .int trivial, .int trivial, .list (List.forall_mem_nil _),
      .int trivial, .bool _, .bool _⟩
  refine .record (by simp) ?_
  simp only [List.forall_mem_cons, List.not_mem_nil, false_imp_iff, implies_true, and_true]
  exact ⟨.text _, .float trivial, .text _, .null, hreport, .list (List.forall_mem_nil _), .bool _,
    .null, .int trivial, .null, .null⟩

/-- A workflow to be saved. -/
def titlesDraft : Draft :=
  { name := .text "Titles", intent := .text "read", document := .text "- press: End\n" }

/-- The workflow that is saved first. -/
def titlesWorkflow : Workflow :=
  { id := .text (World.identifier 1)
    name := .text "Titles"
    intent := .text "read"
    document := .text "- press: End\n"
    createdAt := .text (Clock.iso 0)
    updatedAt := .text (Clock.iso 0)
    versions := [⟨.int 1, .text "- press: End\n", .text "read", .text (Clock.iso 0),
      .text "Initial version"⟩] }

theorem proper_titlesWorkflow : Json.Proper (fun _ => True) titlesWorkflow.toValue := by
  have hversion : ∀ v ∈ titlesWorkflow.versions.map Version.toValue,
      Json.Proper (fun _ => True) v := by
    refine List.forall_mem_singleton.2 (.record (by simp) ?_)
    simp only [List.forall_mem_cons, List.not_mem_nil, false_imp_iff, implies_true, and_true]
    exact ⟨.int trivial, .text _, .text _, .text _, .text _⟩
  refine .record (by simp) ?_
  simp only [List.forall_mem_cons, List.not_mem_nil, false_imp_iff, implies_true, and_true]
  exact ⟨.text _, .text _, .text _, .text _, .text _, .text _, .null, .list (List.forall_mem_nil _),
    .int trivial, .null, .list hversion⟩

/-- An entry, a workflow and a context that come back. -/
theorem comes_back_titles :
    (∃ w', (Journal.create "logs" (.ofSteps [] 0 0 false) (.text "u") none .null .null).run {} =
        (.ok (blankEntry {}), w') ∧
      (Journal.get? "logs" (World.identifier 1)).run w'.disk =
        (.ok (some (blankEntry {})), w'.disk)) ∧
    (∃ v w', (Library.save "wf" titlesDraft).run {} = (.ok v, w') ∧
      (Library.load "wf" v.id).run w'.disk = (.ok v, w'.disk)) ∧
    Context.ofJson (Context.toJson [("N", .list [.int 3, .text "a"])]) =
      .ok (.record [("N", .list [.int 3, .text "a"])]) := by
  obtain ⟨-, -, -, hjournal, hlibrary, hcontext⟩ := comes_back
  refine ⟨?_, ?_, ?_⟩
  · obtain ⟨w', hrun, ⟨-, -, hget⟩ | ⟨hnone, -⟩⟩ :=
      hjournal "logs" (.ofSteps [] 0 0 false) (.text "u") none .null .null {} (proper_blankEntry {})
    · exact ⟨w', hrun, hget⟩
    · have htakes : Journal.Takes "logs" (World.identifier 1)
          "logs/00000100-0000-4000-8000-000000000000.json" {} :=
        ⟨rfl, by decide +kernel,
          ["00000100-0000-4000-8000-000000000000.json", "logs"], rfl, rfl, rfl, rfl⟩
      exact absurd htakes (hnone _)
  · have hsave : (Library.save "wf" titlesDraft).run {} =
        (.ok titlesWorkflow, ((Library.save "wf" titlesDraft).run {}).2) := Prod.ext rfl rfl
    exact ⟨_, _, hsave, hlibrary _ _ _ _ _ hsave proper_titlesWorkflow⟩
  · refine hcontext _ (.record (by simp) ?_)
    have hitems : ∀ v ∈ [Value.int 3, .text "a"], Json.Proper Json.ReadBack v := by
      refine List.forall_mem_cons.2 ⟨.int ?_, List.forall_mem_singleton.2 (.text _)⟩
      show (Nat.toDigits 10 3).length ≤ 4300
      decide
    exact List.forall_mem_singleton.2 (.list hitems)

/-- A disk with a file in the place of the journal's folder. -/
def occupied : World :=
  { disk := { files := [("logs", .text "x")] } }

/-- On such a disk an entry is returned that is not found. -/
theorem not_comes_back_occupied :
    ¬ ∀ (folder : String) (r : Report) (url : Value) (digest : Option Digest)
      (workflowId analysis : Value) (w w' : World) (e : Journal.Entry),
      Json.Proper (fun _ => True) e.toValue →
      (Journal.create folder r url digest workflowId analysis).run w = (.ok e, w') →
      ((Journal.get? folder e.id.plainText).run w'.disk).1 = .ok (some e) := by
  intro h
  have hmissing : ((Journal.get? "logs" (World.identifier 1)).run
      (Journal.opened "logs" occupied.disk)).1.toOption.map Option.isSome = some false := by
    decide +kernel
  rcases Journal.create_cases "logs" (.ofSteps [] 0 0 false) (.text "u") none .null .null occupied
    with ⟨k, htakes, -⟩ | ⟨-, f, hrun⟩
  · cases htakes.made
  · have hget := h "logs" (.ofSteps [] 0 0 false) (.text "u") none .null .null occupied _
      (blankEntry occupied) (proper_blankEntry occupied) hrun
    have hid : (blankEntry occupied).id.plainText = World.identifier 1 := rfl
    rw [hid] at hget
    dsimp only at hget
    rw [hget] at hmissing
    cases hmissing

end BrowserFlow
