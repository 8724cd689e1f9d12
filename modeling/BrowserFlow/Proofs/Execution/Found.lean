import BrowserFlow.Proofs.Execution.Scripts
import BrowserFlow.Proofs.Extraction.Summary

/-!
# What is found of a list

A script that returns a list leaves a line in the report of its step, and what was found is read
back from that line in two places: an entry of the journal names the number of items, and a report
is told to have an empty extraction. The number is right unless the name for the data is refused,
in which case the step has failed and there is no line, or the number has more digits than fit. An
empty list is always noticed, and a list with items is taken for none only if their JSON text or the
path under which they are kept says so (`found_of_returned`).
-/

namespace BrowserFlow

namespace Extraction

/-- What stands behind the number of items, up to the end of their text. -/
def behindCount (items : List Value) : List Char :=
  ": ".toList ++
    (Text.clip previewLength (Json.text .line (.list (items.take previewItems)))).toList

/-- The line for a list with more behind it, as a report keeps it. -/
theorem toList_clip_summary (items : List Value) (behind : String) :
    (Text.clip 500 (summary (.list items) ++ behind)).toList =
      (counted items.length (behindCount items ++ behind.toList)).take 500 := by
  rw [Text.toList_clip, String.toList_append, toList_summary_list]
  unfold counted behindCount
  simp only [List.append_assoc, List.cons_append]

theorem clean_behindCount {items : List Value} (hne : items ≠ [])
    (hitems : ∀ v ∈ items, Clean (Json.text .line v).toList) {behind : List Char}
    (hbehind : behind = [] ∨ ∃ path, Clean path ∧ behind = " - saved to ".toList ++ path) :
    Clean (behindCount items ++ behind) := by
  have hfirst : items.take previewItems ≠ [] := by
    rw [Ne, List.take_eq_nil_iff, not_or]
    exact ⟨by decide, hne⟩
  unfold behindCount
  rw [List.append_assoc]
  exact clean_behind hfirst (fun v hv => hitems v (List.mem_of_mem_take hv))
    (Text.clip_isPrefix _ _) hbehind

/-- The line for an empty list is taken for none. -/
theorem isEmptyLine_counted_nil {line : String}
    (hline : line.toList = (counted 0 (behindCount [])).take 500) : isEmptyLine line = true := by
  have hchars : String.ofList line.toList = line := String.ofList_toList
  rw [← hchars, hline]
  decide +kernel

/-- The line for a list of items is not taken for none. -/
theorem isEmptyLine_counted {items : List Value} (hne : items ≠ [])
    (hitems : ∀ v ∈ items, Clean (Json.text .line v).toList) {behind : List Char}
    (hbehind : behind = [] ∨ ∃ path, Clean path ∧ behind = " - saved to ".toList ++ path)
    {line : String}
    (hline : line.toList = (counted items.length (behindCount items ++ behind)).take 500) :
    isEmptyLine line = false := by
  have hcount : items.length ≠ 0 := fun h => hne (List.eq_nil_of_length_eq_zero h)
  exact isEmptyLine_of_clean hcount (clean_behindCount hne hitems hbehind)
    (hline ▸ List.take_prefix 500 _)

theorem isData_list_iff (items : List Value) : isData (.list items) = true ↔ items ≠ [] := by
  cases items with
  | nil => exact iff_of_false Bool.false_ne_true fun h => h rfl
  | cons v vs => exact iff_of_true rfl (List.cons_ne_nil v vs)

end Extraction

namespace Journal

/-- The number of items of a script is read from its line. -/
theorem found_ofReport_iff {s : StepReport} (hkind : s.kind = "evaluate") (n : Nat) :
    (StepEntry.ofReport s).found = .int n ↔
      ∃ line, s.output = some line ∧ line ≠ "" ∧ Extraction.found? line = some n := by
  have hscript : (s.kind == "evaluate") = true := by
    rw [hkind]
    rfl
  show (if s.kind == "evaluate" then _ else _) = _ ↔ _
  rw [if_pos hscript]
  unfold foundBy?
  split
  · rename_i hnone
    refine iff_of_false (fun h => nomatch h) ?_
    rintro ⟨line, hline, -⟩
    rw [hnone] at hline
    cases hline
  · rename_i hempty
    refine iff_of_false (fun h => nomatch h) ?_
    rintro ⟨line, hline, hne, -⟩
    rw [hempty] at hline
    exact hne (Option.some.inj hline).symm
  · rename_i line hne hline
    rw [hline]
    constructor
    · intro hfound
      refine ⟨line, rfl, hne, ?_⟩
      cases hread : Extraction.found? line with
      | none =>
        rw [hread] at hfound
        cases hfound
      | some m =>
        rw [hread] at hfound
        rw [Int.ofNat.inj (Value.int.inj hfound)]
    · rintro ⟨line', hline', -, hfound⟩
      obtain rfl := Option.some.inj hline'
      rw [hfound]
      rfl

/-- The number of items is read from its line unless it has too many digits to be kept. -/
theorem found_ofReport_counted {s : StepReport} (hkind : s.kind = "evaluate") {line : String}
    (houtput : s.output = some line) {n : Nat} {behind : List Char}
    (hline : line.toList = (Extraction.counted n behind).take 500) :
    (StepEntry.ofReport s).found = .int n ↔ (Nat.toDigits 10 n).length ≤ 477 := by
  have hsome : line ≠ "" := by
    rintro rfl
    rw [Extraction.take_counted] at hline
    cases hline
  rw [found_ofReport_iff hkind, houtput]
  refine Iff.trans ?_ (Extraction.found?_clip_iff hline)
  exact ⟨fun ⟨_, hline', _, hfound⟩ => Option.some.inj hline' ▸ hfound,
    fun hfound => ⟨line, rfl, hsome, hfound⟩⟩

end Journal

/-! ## In a run -/

namespace Extraction

/-- A step that is no script, or tells of something found, makes no difference. -/
theorem isEmpty_eraseIdx {r : Report} {i : Nat} {s : StepReport} (hs : r.steps[i]? = some s)
    (hline : isEmptyLine (s.output.getD "") = false) :
    isEmpty { r with steps := r.steps.eraseIdx i } = isEmpty r := by
  obtain ⟨hi, rfl⟩ := List.getElem?_eq_some_iff.1 hs
  unfold isEmpty
  dsimp only
  conv_rhs => rw [← List.take_append_drop i r.steps, List.drop_eq_getElem_cons hi]
  rw [List.eraseIdx_eq_take_drop_succ, List.any_append, List.any_append, List.any_cons, hline,
    Bool.and_false, Bool.false_or]

end Extraction

namespace Execution

variable {e : Executor} {request : RunRequest} {context : Table Value} {actions : List Action}
  {w : World}

/-- A script that returned a list leaves a line for it, with the path behind it under which it is
kept, unless the name for it is refused. -/
theorem line_of_returned {a : Action} {x u y : World} {total number : Nat}
    {format filename : Option String} {items : List Value} {t : Taken}
    {instruction : Option String} (h : Returned e a x format filename (.list items) u)
    (hreport : (report e instruction total number a).run x = (.ok t, y)) :
    Refuses e a x (.list items) ∧ t.report.output = none ∨
    ¬ Refuses e a x (.list items) ∧ ∃ line behind, t.report.output = some line ∧
      line.toList = (Extraction.counted items.length
        (Extraction.behindCount items ++ behind)).take 500 ∧
      (behind = [] ∨ ∃ path, Saves e instruction a x (.list items) path ∧
        behind = " - saved to ".toList ++ path.toList) := by
  have hline := Extraction.toList_clip_summary items
  rcases report_returned h hreport with
    ⟨path, hsaves, -, houtput⟩ | ⟨-, hnot, -, houtput⟩ | ⟨hrefuses, -, houtput⟩
  · refine Or.inr ⟨hsaves.not_refuses, _, _, houtput, ?_, Or.inr ⟨path, hsaves, rfl⟩⟩
    rw [String.append_assoc]
    exact (hline _).trans (by rw [String.toList_append])
  · refine Or.inr ⟨hnot, _, [], houtput, ?_, Or.inl rfl⟩
    have hplain := hline ""
    rw [String.append_empty] at hplain
    exact hplain
  · exact Or.inl ⟨hrefuses, houtput⟩

/-- What a run reports of a script that returned a list. The number of items is found in it unless
the name for the data is refused, or the number has too many digits to be kept. An empty list makes
the extraction empty. A list of items does not, as long as neither the JSON text of an item nor the
path under which they are kept says so. -/
theorem found_of_returned {r : Report} (hr : Gives (run e request context actions w).1.1 r)
    {i : Nat} {a : Action} {s : StepReport} (ha : actions[i]? = some a)
    (hs : r.steps[i]? = some s) (hkind : a.kind = "evaluate") {format filename : Option String}
    {items : List Value} {u : World}
    (hreturned : Returned e (fill request (contextAt e request context actions w i) a)
      (worldAt e request context actions w i) format filename (.list items) u) :
    ((Journal.StepEntry.ofReport s).found = .int items.length ↔
      (∀ folder ∈ e.data, items ≠ [] → folder.accepts filename = true) ∧
        (Nat.toDigits 10 items.length).length ≤ 477) ∧
    (items = [] → Extraction.isEmpty r = true) ∧
    (items ≠ [] → (∀ v ∈ items, Extraction.Clean (Json.text .line v).toList) →
      (∀ path, Saves e request.instruction
          (fill request (contextAt e request context actions w i) a)
          (worldAt e request context actions w i) (.list items) path →
        Extraction.Clean path.toList) →
      Extraction.isEmpty { r with steps := r.steps.eraseIdx i } = Extraction.isEmpty r) := by
  obtain ⟨a', t, v, ha', rfl, -, hreport⟩ := reported_of_gives hr hs
  cases ha.symm.trans ha'
  have hscript : t.report.kind = "evaluate" := (report_proper hreport).kind.trans hkind
  have hrefuses := hreturned.refuses_iff
  have hdata := Extraction.isData_list_iff items
  rcases line_of_returned hreturned hreport with
    ⟨hrefused, houtput⟩ | ⟨hnot, line, behind, houtput, hline, hbehind⟩
  · obtain ⟨folder, hfolder, hfull, haccepts⟩ := hrefuses.1 hrefused
    have hne := hdata.1 hfull
    refine ⟨iff_of_false ?_ ?_, fun hnil => absurd hnil hne, fun _ _ _ => ?_⟩
    · rw [Journal.found_ofReport_iff hscript, houtput]
      rintro ⟨line, hline, -⟩
      cases hline
    · rintro ⟨hall, -⟩
      rw [hall folder hfolder hne] at haccepts
      cases haccepts
    · refine Extraction.isEmpty_eraseIdx hs ?_
      rw [houtput]
      decide +kernel
  · have haccepts : ∀ folder ∈ e.data, items ≠ [] → folder.accepts filename = true := by
      intro folder hfolder hne
      by_contra hno
      exact hnot (hrefuses.2 ⟨folder, hfolder, hdata.2 hne, Bool.not_eq_true _ ▸ hno⟩)
    refine ⟨?_, ?_, fun hne hitems hpath => ?_⟩
    · rw [and_iff_right haccepts]
      exact Journal.found_ofReport_counted hscript houtput hline
    · rintro rfl
      obtain rfl : behind = [] := by
        refine hbehind.resolve_right ?_
        rintro ⟨path, ⟨folder, hfolder, -, -, -, -, hfull, -⟩, -⟩
        exact hdata.1 hfull rfl
      rw [List.append_nil] at hline
      refine List.any_eq_true.2 ⟨t.report, List.mem_of_getElem? hs, ?_⟩
      rw [hscript, houtput]
      exact Extraction.isEmptyLine_counted_nil hline
    · refine Extraction.isEmpty_eraseIdx hs ?_
      rw [houtput]
      refine Extraction.isEmptyLine_counted hne hitems ?_ hline
      exact hbehind.imp_right fun ⟨path, hsaves, heq⟩ => ⟨path.toList, hpath path hsaves, heq⟩

/-- A script whose data is to be kept under some name. -/
def keptAs (filename : String) : Action :=
  ⟨"evaluate", .evaluate "x" none (some filename), 1⟩

/-- A page on which a script returns a list of one number. -/
def listing : World :=
  { page := { results := [.value (.list [.int 1])] } }

/-- Where the data of scripts is kept without a word. -/
def silently : Executor :=
  { data := some { path := "d", display := false } }

theorem returned_listing {filename : String} (h : '$' ∉ filename.toList) :
    ∃ u, Returned silently (fill {} [] (keptAs filename)) listing none (some filename)
      (.list [.int 1]) u := by
  have hscript : Template.fillText (Table.overlay [] []) "x" = "x" :=
    Template.fillText_of_not_mem (by decide)
  have hname : Template.fillText (Table.overlay [] []) filename = filename :=
    Template.fillText_of_not_mem h
  have hstep : (fill {} [] (keptAs filename)).step = .evaluate "x" none (some filename) := by
    show Step.evaluate (Template.fillText _ "x") none (some (Template.fillText _ filename)) = _
    rw [hscript, hname]
  have hrun : ∃ u, (evaluation silently "x").run listing = (.ok (.list [.int 1]), u) := by
    unfold evaluation
    rw [if_neg (by decide +kernel)]
    exact ⟨_, rfl⟩
  obtain ⟨u, hrun⟩ := hrun
  exact ⟨u, "x", hstep, hrun⟩

/-- One item is found in the line for a list of one. -/
theorem found_of_returned_one :
    ∃ r s, Gives (run silently {} [] [keptAs "n"] listing).1.1 r ∧ r.steps[0]? = some s ∧
      (Journal.StepEntry.ofReport s).found = .int 1 := by
  have hok : (run silently {} [] [keptAs "n"] listing).1.1.toOption.map (·.steps.length) =
      some 1 := by
    decide +kernel
  cases hrun : (run silently {} [] [keptAs "n"] listing).1.1 with
  | error f =>
    rw [hrun] at hok
    cases hok
  | ok r =>
    rw [hrun] at hok
    obtain ⟨s, hs⟩ := List.length_eq_one_iff.1 (Option.some.inj hok)
    have hfirst : r.steps[0]? = some s := by rw [hs]; rfl
    obtain ⟨u, hreturned⟩ := returned_listing (by decide : '$' ∉ "n".toList)
    have hgives : Gives (run silently {} [] [keptAs "n"] listing).1.1 r := Or.inl hrun
    have hfound := (found_of_returned hgives rfl hfirst rfl hreturned).1
    refine ⟨r, s, Or.inl rfl, hfirst, hfound.2 ⟨?_, by decide⟩⟩
    rintro folder ⟨⟩ -
    decide

/-- Nothing is found of data whose name can be part of no path. -/
theorem not_found_refused : ¬ ∀ (e : Executor) (a : Action) (w u : World) (r : Report)
    (s : StepReport) (format filename : Option String) (items : List Value),
    Gives (run e {} [] [a] w).1.1 r → r.steps[0]? = some s → a.kind = "evaluate" →
      Returned e (fill {} [] a) w format filename (.list items) u →
      (Journal.StepEntry.ofReport s).found = .int items.length := by
  intro h
  have hok : (run silently {} [] [keptAs "a\x00b"] listing).1.1.toOption.map
      (fun r => r.steps.map fun s => (s.kind, s.output)) = some [("evaluate", none)] := by
    decide +kernel
  cases hrun : (run silently {} [] [keptAs "a\x00b"] listing).1.1 with
  | error f =>
    rw [hrun] at hok
    cases hok
  | ok r =>
    rw [hrun] at hok
    obtain ⟨s, hs, hstep⟩ := List.map_eq_singleton_iff.1 (Option.some.inj hok)
    obtain ⟨hkind, houtput⟩ := Prod.mk.inj hstep
    have hfirst : r.steps[0]? = some s := by rw [hs]; rfl
    obtain ⟨u, hreturned⟩ := returned_listing (by decide : '$' ∉ "a\x00b".toList)
    have hfound := h silently _ listing u r s _ _ _ (Or.inl hrun) hfirst rfl hreturned
    obtain ⟨line, hline, -⟩ := (Journal.found_ofReport_iff hkind 1).1 hfound
    rw [houtput] at hline
    cases hline

end Execution

end BrowserFlow
