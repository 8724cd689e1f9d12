import BrowserFlow.Document
import BrowserFlow.Execution.Run
import BrowserFlow.Proofs.Journal.Listing
import BrowserFlow.Proofs.Library.Naming
import BrowserFlow.World.Keeping

/-!
# Making an entry

An entry is made and put into its file, and where no file can be opened for it a warning is given in
its place (`create_cases`). The file is opened before it is known whether the entry has a JSON text.
So an entry survives, either whole in its file or without one, unless a file is opened and something
in it has no JSON text (`Enterable`): then nothing is returned and an empty file is left that can be
neither read nor listed (`create_returns_iff`).
-/

namespace BrowserFlow

namespace Journal

open Library (fileName keyOf isName_fileName)

variable {folder id k : String} {d : Disk}

/-- The disk with the folder of the journal, unless that cannot be made. -/
def opened (folder : String) (d : Disk) : Disk :=
  ((Disk.makeFolder folder).run d).2

/-- A file can be opened for the entry with a number. -/
structure Takes (folder id k : String) (d : Disk) : Prop where
  made : ((Disk.makeFolder folder).run d).1 = .ok ()
  opens : Disk.Opens (path folder id) k (opened folder d)

/-- Making a folder leaves the files, and fails only where a file is in its place. -/
theorem makeFolder_cases (folder : String) (d : Disk) :
    (∃ made, (Disk.makeFolder folder).run d = (.ok (), made) ∧ made.files = d.files) ∨
      (Disk.makeFolder folder).run d = (.error .occupied, d) := by
  have hfault : ∀ (d : Disk) (reached names : List String) (f : Fault),
      d.makeFrom reached names = .error f → f = .occupied := by
    intro d reached names f h
    fun_induction Disk.makeFrom d reached names with
    | case1 => cases h
    | case2 _ _ _ _ _ ih => exact ih h
    | case3 _ _ _ _ _ _ ih => exact ih h
    | case4 =>
      cases h
      rfl
    | case5 _ _ _ _ _ _ _ _ _ ih => exact ih h
  cases hmade : d.makeFrom [] (Disk.namesOf folder) with
  | ok made =>
    exact Or.inl ⟨made, Disk.run_makeFolder.2 hmade, (Disk.makeFrom_grows hmade).1⟩
  | error f =>
    obtain rfl := hfault d [] _ f hmade
    refine Or.inr ?_
    unfold Disk.namesOf at hmade
    unfold Disk.makeFolder
    rw [Effect.run_of, hmade]

theorem opened_files (folder : String) (d : Disk) : (opened folder d).files = d.files := by
  unfold opened
  rcases makeFolder_cases folder d with ⟨made, hrun, hfiles⟩ | hrun
  · rw [hrun]
    exact hfiles
  · rw [hrun]

/-! ## Putting an entry -/

/-- The disk with an entry in the file `k`, which is left empty if the entry has no JSON text. -/
def entered (folder k : String) (e : Entry) (d : Disk) : Disk :=
  { opened folder d with files := d.files.put k (Disk.jsonLeft true e.toValue) }

/-- An entry is put into its file, which may be left empty, or no file can be opened and the files
are as they were. -/
theorem add_cases (folder : String) (e : Entry) (d : Disk) :
    (∃ k, Takes folder e.id.plainText k d ∧ (add folder e).run d =
        (if Json.writable true e.toValue then .ok () else .error Disk.notSerializable,
          entered folder k e d)) ∨
      (∀ k, ¬ Takes folder e.id.plainText k d) ∧
        ∃ f, f.ofDisk = true ∧ (add folder e).run d = (.error f, opened folder d) := by
  unfold add
  rcases makeFolder_cases folder d with ⟨made, hmade, hfiles⟩ | hmade
  · have hopened : opened folder d = made := by
      unfold opened
      rw [hmade]
    rw [Effect.run_bind_ok hmade]
    rcases Disk.writeJson_cases made true (path folder e.id.plainText) e.toValue with
      ⟨k, hopens, hwrite⟩ | ⟨hnone, f, hf, hwrite⟩
    · refine Or.inl ⟨k, ⟨by rw [hmade], hopened ▸ hopens⟩, ?_⟩
      unfold entered
      rw [hwrite, hopened, hfiles]
    · rw [hopened]
      exact Or.inr ⟨fun k hk => hnone k (hopened ▸ hk.opens), f, hf, hwrite⟩
  · have hopened : opened folder d = d := by
      unfold opened
      rw [hmade]
    refine Or.inr ⟨fun k hk => ?_, .occupied, rfl, ?_⟩
    · have hok := hk.made
      rw [hmade] at hok
      cases hok
    · rw [hopened]
      exact Effect.run_bind_error hmade

variable {r : Report} {url workflowId analysis : Value} {digest : Option Digest}

/-- The entry that is made next. -/
def nextEntry (w : World) (r : Report) (url : Value) (digest : Option Digest)
    (workflowId analysis : Value) : Entry :=
  Entry.ofReport (World.identifier (w.drawn + 1)) (Clock.seconds w.clock) r url digest workflowId
    analysis

theorem writable_nextEntry (w : World) (r : Report) (url : Value) (digest : Option Digest)
    (workflowId analysis : Value) :
    Json.writable true (nextEntry w r url digest workflowId analysis).toValue = true ↔
      Enterable r url digest workflowId analysis :=
  Entry.writable_ofReport _ _ _ _ _ _ _

/-- The entry that is made is put into its file, or a warning is given. -/
theorem create_cases (folder : String) (r : Report) (url : Value) (digest : Option Digest)
    (workflowId analysis : Value) (w : World) :
    let e := nextEntry w r url digest workflowId analysis
    (∃ k, Takes folder (World.identifier (w.drawn + 1)) k w.disk ∧
        (create folder r url digest workflowId analysis).run w =
          (if Json.writable true e.toValue then .ok e else .error Disk.notSerializable,
            { w with drawn := w.drawn + 1, disk := entered folder k e w.disk })) ∨
      (∀ k, ¬ Takes folder (World.identifier (w.drawn + 1)) k w.disk) ∧
        ∃ f : Fault, (create folder r url digest workflowId analysis).run w =
          (.ok e, { w with
            drawn := w.drawn + 1
            disk := opened folder w.disk
            warnings := w.warnings ++
              [s!"运行日志写入失败 {World.identifier (w.drawn + 1)}: " ++ f.message] }) := by
  intro e
  have hdraw : Effect.run World.draw w =
      ((.ok (w.drawn + 1), { w with drawn := w.drawn + 1 }) : Except Fault Nat × World) := rfl
  have hput : ∀ q d, (add folder e).run w.disk = (q, d) →
      Effect.run (Effect.attempt (World.onDisk (add folder e))) { w with drawn := w.drawn + 1 } =
        ((.ok q, { w with drawn := w.drawn + 1, disk := d }) : Except Fault _ × World) := by
    intro q d hadd
    unfold World.onDisk
    rw [Effect.run_attempt, Effect.run_zoom]
    dsimp only
    rw [hadd]
  rcases add_cases folder e w.disk with ⟨k, htakes, hadd⟩ | ⟨hnone, f, hf, hadd⟩
  · refine Or.inl ⟨k, htakes, ?_⟩
    unfold create
    rw [Effect.run_bind_ok hdraw, Effect.run_bind_ok (Effect.run_get _)]
    refine (Effect.run_bind_ok (hput _ _ hadd)).trans ?_
    cases Json.writable true e.toValue with
    | true => rfl
    | false => rfl
  · refine Or.inr ⟨hnone, f, ?_⟩
    unfold create
    rw [Effect.run_bind_ok hdraw, Effect.run_bind_ok (Effect.run_get _)]
    refine (Effect.run_bind_ok (hput _ _ hadd)).trans ?_
    dsimp only
    rw [hf]
    rfl

/-! ## What is left -/

/-- Every entry of the journal can be read and has a time. -/
def Sound (folder : String) (d : Disk) : Prop :=
  ∀ id ∈ ids folder d, ∃ e, ((get? folder id).run d).1 = .ok (some e) ∧
    (time? e.timestamp).isSome = true

/-- What is sound can be listed. -/
theorem Sound.run_list (h : Sound folder d) (workflowId : Value) :
    ∃ es, (list folder workflowId).run d = (.ok es, d) := by
  cases hfolder : d.isFolder folder with
  | false =>
    refine ⟨[], ?_⟩
    unfold list
    rw [Effect.run_bind_ok (Effect.run_get d), hfolder]
    rfl
  | true =>
    unfold Disk.isFolder at hfolder
    obtain ⟨here, hnames, hleads⟩ := (Option.any_eq_true _ _).1 hfolder
    have hsound : ∀ id ∈ ids folder d, ∃ e, ((get? folder id).run d).1 = .ok (some e) ∧
      (time? e.timestamp).isSome = true := h
    choose! entry hread htime using hsound
    have hlookup : ∀ id ∈ ids folder d, lookup here d id = .ok (some (entry id)) := by
      intro id hid
      have hget := hread id hid
      rwa [run_get? hnames (no_slash_of_mem_ids hnames id hid)] at hget
    have htimes : ∀ e ∈ (ids folder d).map entry, (time? e.timestamp).isSome = true := by
      intro e he
      obtain ⟨id, hid, rfl⟩ := List.mem_map.1 he
      exact htime id hid
    exact ⟨_, run_list_of_lookup hnames hleads hlookup htimes workflowId⟩

/-- Where the file of an entry is. -/
theorem Takes.place (h : Takes folder id k d) (hid : '/' ∉ id.toList) :
    ∃ here, (opened folder d).names? folder = some here ∧
      (opened folder d).leadsToFolder here = true ∧
      (opened folder d).leadsToFolder (fileName id :: here) = false ∧ k = keyOf here id := by
  obtain ⟨-, names, hnames, hfree, haround, rfl⟩ := h.opens
  have hpath : (opened folder d).names? (path folder id) =
      ((opened folder d).names? folder).map (fileName id :: ·) :=
    Disk.names?_pathIn (isName_fileName hid) _ _
  rw [hpath] at hnames
  obtain ⟨here, hhere, rfl⟩ := Option.map_eq_some_iff.1 hnames
  exact ⟨here, hhere, haround, hfree, rfl⟩

variable {here : List String}

theorem names?_entered (hnames : (opened folder d).names? folder = some here) (k : String)
    (e : Entry) : (entered folder k e d).names? folder = some here :=
  (Disk.names?_files _ _ _).trans hnames

/-- The numbers of the entries with one more. -/
theorem mem_ids_entered (hnames : (opened folder d).names? folder = some here)
    (hid : '/' ∉ id.toList) {e : Entry} {other : String} :
    other ∈ ids folder (entered folder (keyOf here id) e d) ↔
      other = id ∨ other ∈ ids folder (opened folder d) := by
  rw [mem_ids (names?_entered hnames _ _), mem_ids hnames]
  have hkeys : keyOf here other ∈ (entered folder (keyOf here id) e d).files.keys ↔
      other = id ∨ keyOf here other ∈ (opened folder d).files.keys := by
    show keyOf here other ∈ (d.files.put (keyOf here id) _).keys ↔ _
    rw [Table.mem_keys_put, Library.keyOf_inj, opened_files]
  rw [hkeys]
  constructor
  · rintro ⟨(rfl | hkey) | hfolder, hslash⟩
    · exact Or.inl rfl
    · exact Or.inr ⟨Or.inl hkey, hslash⟩
    · exact Or.inr ⟨Or.inr hfolder, hslash⟩
  · rintro (rfl | ⟨hkey | hfolder, hslash⟩)
    · exact ⟨Or.inl (Or.inl rfl), hid⟩
    · exact ⟨Or.inl (Or.inr hkey), hslash⟩
    · exact ⟨Or.inr hfolder, hslash⟩

theorem get?_entered (here : List String) (id other : String) (e : Entry) (d : Disk) :
    (entered folder (keyOf here id) e d).files.get? (keyOf here other) =
      if other = id then some (Disk.jsonLeft true e.toValue)
      else d.files.get? (keyOf here other) := by
  show (d.files.put (keyOf here id) _).get? (keyOf here other) = _
  rw [Table.get?_put]
  by_cases hother : other = id
  · rw [if_pos hother, if_pos (by rw [hother])]
  · rw [if_neg hother, if_neg fun heq => hother (Library.keyOf_inj.1 heq).symm]

/-- What is read of the new entry and of all others. -/
theorem lookup_entered (hfree : (opened folder d).leadsToFolder (fileName id :: here) = false)
    (e : Entry) (other : String) :
    lookup here (entered folder (keyOf here id) e d) other =
      if other = id then (Disk.jsonLeft true e.toValue).entry.map some
      else lookup here (opened folder d) other := by
  have hleads : ∀ names, (entered folder (keyOf here id) e d).leadsToFolder names =
      (opened folder d).leadsToFolder names := fun _ => rfl
  unfold lookup
  rw [hleads, get?_entered, opened_files]
  by_cases hother : other = id
  · subst hother
    rw [hfree, if_pos rfl, if_pos rfl]
    rfl
  · rw [if_neg hother, if_neg hother]

/-- An entry has survived: it is in its file as a whole, or no file could be opened for it and the
files are as they were; and a journal that was sound is sound. -/
structure Survives (folder id : String) (e : Entry) (d d' : Disk) : Prop where
  file : (∃ k, Takes folder id k d ∧ d'.files = d.files.put k (.json e.toValue) ∧
    (get? folder id).run d' = (.ok (some e.plain), d')) ∨
      (∀ k, ¬ Takes folder id k d) ∧ d'.files = d.files
  sound : Sound folder (opened folder d) → Sound folder d'

/-- An empty file is left that can be neither read nor listed. -/
structure Wrecks (folder id : String) (d d' : Disk) : Prop where
  file : ∃ k, Takes folder id k d ∧ d'.files = d.files.put k (.text "")
  read : ∃ f, (get? folder id).run d' = (.error f, d')
  list : ∀ workflowId, ∃ f, (Journal.list folder workflowId).run d' = (.error f, d')

/-- The time of an entry is a number, whatever double it is. -/
theorem time?_float (x : Float) : (time? (.float x)).isSome = true := by
  unfold time?
  dsimp only
  split
  · rfl
  · rfl
  · rfl

theorem Takes.survives {e : Entry} (h : Takes folder id k d) (hid : '/' ∉ id.toList)
    (htime : (time? e.plain.timestamp).isSome = true) (he : Json.writable true e.toValue = true) :
    Survives folder id e d (entered folder k e d) := by
  obtain ⟨here, hnames, -, hfree, rfl⟩ := h.place hid
  have hleft : Disk.jsonLeft true e.toValue = .json e.toValue := by
    unfold Disk.jsonLeft
    rw [if_pos he]
  have hnew : (Disk.jsonLeft true e.toValue).entry.map some = .ok (some e.plain) := by
    rw [hleft, entry_json]
    rfl
  have hafter := names?_entered hnames (keyOf here id) e
  have hread : (get? folder id).run (entered folder (keyOf here id) e d) =
      (.ok (some e.plain), entered folder (keyOf here id) e d) := by
    rw [run_get? hafter hid, lookup_entered hfree, if_pos rfl, hnew]
  refine ⟨Or.inl ⟨_, h, ?_, hread⟩, fun hsound other hother => ?_⟩
  · show d.files.put _ (Disk.jsonLeft true e.toValue) = _
    rw [hleft]
  · by_cases hsame : other = id
    · subst hsame
      exact ⟨e.plain, congrArg Prod.fst hread, htime⟩
    · -- every other entry is read as it was
      have hold : other ∈ ids folder (opened folder d) :=
        ((mem_ids_entered hnames hid).1 hother).resolve_left hsame
      have hslash := no_slash_of_mem_ids hnames other hold
      obtain ⟨e', he', htime'⟩ := hsound other hold
      rw [run_get? hnames hslash] at he'
      refine ⟨e', ?_, htime'⟩
      rw [run_get? hafter hslash, lookup_entered hfree, if_neg hsame]
      exact he'

theorem Takes.wrecks {e : Entry} (h : Takes folder id k d) (hid : '/' ∉ id.toList)
    (he : Json.writable true e.toValue = false) : Wrecks folder id d (entered folder k e d) := by
  obtain ⟨here, hnames, hleads, hfree, rfl⟩ := h.place hid
  have hleft : Disk.jsonLeft true e.toValue = .text "" := by
    unfold Disk.jsonLeft
    rw [if_neg (by simp [he])]
  have hafter := names?_entered hnames (keyOf here id) e
  have hlookup : lookup here (entered folder (keyOf here id) e d) id = .error .notJson := by
    rw [lookup_entered hfree, if_pos rfl, hleft, entry_empty]
    rfl
  refine ⟨⟨_, h, ?_⟩, ⟨.notJson, ?_⟩, fun workflowId => ?_⟩
  · show d.files.put _ (Disk.jsonLeft true e.toValue) = _
    rw [hleft]
  · rw [run_get? hafter hid, hlookup]
  · exact run_list_of_fault hafter hleads ((mem_ids_entered hnames hid).2 (Or.inl rfl)) hlookup
      workflowId

/-- The two ways in which making an entry ends, each with its cause. -/
theorem create_outcome (folder : String) (r : Report) (url : Value) (digest : Option Digest)
    (workflowId analysis : Value) (w : World) :
    (Enterable r url digest workflowId analysis ∨
          ∀ k, ¬ Takes folder (World.identifier (w.drawn + 1)) k w.disk) ∧
        (∃ w', (create folder r url digest workflowId analysis).run w =
            (.ok (nextEntry w r url digest workflowId analysis), w') ∧
          Survives folder (World.identifier (w.drawn + 1))
            (nextEntry w r url digest workflowId analysis) w.disk w'.disk) ∨
      ¬ (Enterable r url digest workflowId analysis ∨
          ∀ k, ¬ Takes folder (World.identifier (w.drawn + 1)) k w.disk) ∧
        ∃ w', (create folder r url digest workflowId analysis).run w =
            (.error Disk.notSerializable, w') ∧
          Wrecks folder (World.identifier (w.drawn + 1)) w.disk w'.disk := by
  have hslash : '/' ∉ (World.identifier (w.drawn + 1)).toList :=
    (Library.isIdentifier_identifier _).no_slash
  have hwritable := writable_nextEntry w r url digest workflowId analysis
  have hcases := create_cases folder r url digest workflowId analysis w
  have htime :
      (time? (nextEntry w r url digest workflowId analysis).plain.timestamp).isSome = true :=
    time?_float _
  revert hwritable hcases htime
  generalize nextEntry w r url digest workflowId analysis = e
  intro hwritable hcases htime
  rcases hcases with ⟨k, htakes, hrun⟩ | ⟨hnone, f, hrun⟩
  · cases hjson : Json.writable true e.toValue with
    | true =>
      rw [hjson] at hrun
      exact Or.inl ⟨Or.inl (hwritable.1 hjson), _, hrun, htakes.survives hslash htime hjson⟩
    | false =>
      rw [hjson] at hrun
      refine Or.inr ⟨?_, _, hrun, htakes.wrecks hslash hjson⟩
      rintro (henter | hnone)
      · rw [hwritable.2 henter] at hjson
        cases hjson
      · exact hnone k htakes
  · exact Or.inl ⟨Or.inr hnone, _, hrun, Or.inr ⟨hnone, opened_files _ _⟩, fun h => h⟩

/-- Making an entry returns it and leaves it whole, or without a file, exactly if all that is
entered has a JSON text or no file can be opened for it. Otherwise it fails, and leaves an empty
file behind that spoils the journal. -/
theorem create_returns_iff (folder : String) (r : Report) (url : Value) (digest : Option Digest)
    (workflowId analysis : Value) (w : World) :
    let id := World.identifier (w.drawn + 1)
    let e := nextEntry w r url digest workflowId analysis
    let fit := Enterable r url digest workflowId analysis ∨ ∀ k, ¬ Takes folder id k w.disk
    ((∃ w', (create folder r url digest workflowId analysis).run w = (.ok e, w') ∧
        Survives folder id e w.disk w'.disk) ↔ fit) ∧
      ((∃ w', (create folder r url digest workflowId analysis).run w =
        (.error Disk.notSerializable, w') ∧ Wrecks folder id w.disk w'.disk) ↔ ¬ fit) := by
  dsimp only
  rcases create_outcome folder r url digest workflowId analysis w with
    ⟨hfit, w', hrun, hsurvives⟩ | ⟨hfit, w', hrun, hwrecks⟩
  · refine ⟨iff_of_true ⟨w', hrun, hsurvives⟩ hfit, iff_of_false ?_ (not_not_intro hfit)⟩
    rintro ⟨w'', hrun', -⟩
    rw [hrun] at hrun'
    cases congrArg Prod.fst hrun'
  · refine ⟨iff_of_false ?_ hfit, iff_of_true ⟨w', hrun, hwrecks⟩ hfit⟩
    rintro ⟨w'', hrun', -⟩
    rw [hrun] at hrun'
    cases congrArg Prod.fst hrun'

/-- A document with a date for the name of a coordinate. -/
def dated : String :=
  "- hover: \x7bselector: h1, position: \x7b2024-01-01: 1\x7d\x7d"

/-- Such a document is read and run, and the entry on it cannot be made. -/
theorem not_returned_dated :
    ¬ ∀ (text : String) (actions : List Action) (r : Report) (w : World),
      (Document.load .standard text).2 = .ok actions →
      (Execution.run {} {} [] actions w).1.1 = .ok r →
      ((create "run-logs" r (.text "about:blank") none .null .null).run
        (Execution.run {} {} [] actions w).2).1.isOk = true := by
  intro h
  have hfails : (match (Document.load .standard dated).2 with
      | .ok actions =>
        match (Execution.run {} {} [] actions {}).1.1 with
        | .ok r => ((create "run-logs" r (.text "about:blank") none .null .null).run
            (Execution.run {} {} [] actions {}).2).1.isOk
        | .error _ => true
      | .error _ => true) = false := by
    decide +kernel
  have hdated := h dated
  generalize (Document.load .standard dated).2 = loaded at hfails hdated
  cases loaded with
  | error f => cases hfails
  | ok actions =>
    have hrun := fun r => hdated actions r {} rfl
    dsimp only at hfails
    generalize Execution.run {} {} [] actions {} = ran at hfails hrun
    obtain ⟨⟨reported, context⟩, w⟩ := ran
    cases reported with
    | error f => cases hfails
    | ok r =>
      have hmade := hrun r rfl
      dsimp only at hfails hmade
      rw [hfails] at hmade
      cases hmade

end Journal

end BrowserFlow
