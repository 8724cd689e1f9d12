import BrowserFlow.Proofs.Text.Lines

/-!
# Runs of characters

What is left of a text when its white space is collapsed are its runs of other characters, in order
and with one space between them (`toList_collapse`). Squeezing gives just that, but for a space at
either end (`squeezeChars_eq`). The recursion looks at two characters at a time, so that the cases
are where a run begins, goes on and ends.
-/

namespace BrowserFlow.Text

/-- The runs of characters that are not blank. -/
def runs (cs : List Char) : List (List Char) :=
  (cs.splitOnP isBlank).filter fun run => !run.isEmpty

/-- Runs with one space between them. -/
def spaced (rs : List (List Char)) : List Char :=
  [' '].intercalate rs

variable {c d : Char} {cs run : List Char} {rs : List (List Char)}

/-! ## Runs -/

theorem runs_cons_blank (hc : isBlank c = true) (cs : List Char) : runs (c :: cs) = runs cs := by
  simp [runs, List.splitOnP_cons_eq_if_modifyHead, hc]

/-- A character that no run follows is a run of its own. -/
theorem runs_cons_end (hc : isBlank c = false) (hcs : ∀ d ∈ cs.head?, isBlank d = true) :
    runs (c :: cs) = [c] :: runs cs := by
  cases cs with
  | nil => simp [runs, List.splitOnP_cons_eq_if_modifyHead, hc]
  | cons d rest =>
    have hd : isBlank d = true := hcs d rfl
    simp [runs, List.splitOnP_cons_eq_if_modifyHead, hc, hd]

/-- A character in front of a run is the first one of it. -/
theorem runs_cons_within (hc : isBlank c = false) (hd : isBlank d = false) (cs : List Char) :
    ∃ run rs, runs (d :: cs) = (d :: run) :: rs ∧ runs (c :: d :: cs) = (c :: d :: run) :: rs := by
  cases hpieces : cs.splitOnP isBlank with
  | nil => exact absurd hpieces (List.splitOnP_ne_nil isBlank cs)
  | cons piece pieces =>
    refine ⟨piece, pieces.filter fun run => !run.isEmpty, ?_, ?_⟩
    · simp [runs, List.splitOnP_cons_eq_if_modifyHead, hd, hpieces]
    · simp [runs, List.splitOnP_cons_eq_if_modifyHead, hc, hd, hpieces]

/-- Of a text that is not blank there are runs. -/
theorem runs_eq_nil_iff : runs cs = [] ↔ cs.all isBlank = true := by
  induction cs with
  | nil => exact iff_of_true rfl rfl
  | cons c cs ih =>
    rw [List.all_cons]
    cases hc : isBlank c with
    | true => rw [runs_cons_blank hc, ih, Bool.true_and]
    | false =>
      refine iff_of_false ?_ Bool.false_ne_true
      cases cs with
      | nil =>
        rw [runs_cons_end hc fun _ h => by cases h]
        exact List.cons_ne_nil _ _
      | cons d cs =>
        cases hd : isBlank d with
        | true =>
          rw [runs_cons_end hc fun e he => by cases he; exact hd]
          exact List.cons_ne_nil _ _
        | false =>
          obtain ⟨run, rs, -, hruns⟩ := runs_cons_within hc hd cs
          rw [hruns]
          exact List.cons_ne_nil _ _

/-- A piece between blanks has none in it. -/
theorem not_blank_of_mem_splitOnP (h : run ∈ cs.splitOnP isBlank) :
    ∀ c ∈ run, isBlank c = false := by
  induction cs generalizing run with
  | nil =>
    rw [List.splitOnP_nil, List.mem_singleton] at h
    rw [h]
    exact fun _ hc => absurd hc List.not_mem_nil
  | cons c cs ih =>
    rw [List.splitOnP_cons_eq_if_modifyHead] at h
    split at h
    · rcases List.mem_cons.1 h with rfl | h
      · exact fun _ hc => absurd hc List.not_mem_nil
      · exact ih h
    · next hc =>
      cases hpieces : cs.splitOnP isBlank with
      | nil => exact absurd hpieces (List.splitOnP_ne_nil isBlank cs)
      | cons piece pieces =>
        rw [hpieces] at h ih
        rcases List.mem_cons.1 h with rfl | h
        · intro d hd
          rcases List.mem_cons.1 hd with rfl | hd
          · exact Bool.eq_false_iff.2 hc
          · exact ih List.mem_cons_self d hd
        · exact ih (List.mem_cons_of_mem piece h)

theorem of_mem_runs (h : run ∈ runs cs) : run ≠ [] ∧ ∀ c ∈ run, isBlank c = false := by
  obtain ⟨hmem, hne⟩ := List.mem_filter.1 h
  exact ⟨by simpa using hne, not_blank_of_mem_splitOnP hmem⟩

/-! ## Spaces between runs -/

theorem edged_run (hrun : ∀ c ∈ run, isBlank c = false) : Edged run where
  first c hc := hrun c (List.mem_of_mem_head? hc)
  last c hc := hrun c (List.mem_of_getLast? hc)

theorem spaced_ne_nil (hrs : rs ≠ []) (h : ∀ run ∈ rs, run ≠ []) : spaced rs ≠ [] := by
  obtain ⟨run, others, rfl⟩ := List.exists_cons_of_ne_nil hrs
  have hrun := h run List.mem_cons_self
  unfold spaced
  cases others with
  | nil => rwa [List.intercalate_singleton]
  | cons run' others =>
    rw [List.intercalate_cons_cons]
    simp [hrun]

/-- Runs with spaces between them begin and end with a run. -/
theorem edged_spaced (h : ∀ run ∈ rs, run ≠ [] ∧ ∀ c ∈ run, isBlank c = false) :
    Edged (spaced rs) := by
  induction rs with
  | nil => exact edged_run fun _ hc => absurd hc List.not_mem_nil
  | cons run others ih =>
    obtain ⟨hrun, hothers⟩ := List.forall_mem_cons.1 h
    have hedged := edged_run hrun.2
    cases others with
    | nil =>
      unfold spaced
      rwa [List.intercalate_singleton]
    | cons run' others =>
      have hne : spaced (run' :: others) ≠ [] :=
        spaced_ne_nil (List.cons_ne_nil _ _) fun r hr => (hothers r hr).1
      have hsplit : spaced (run :: run' :: others) =
          (run ++ [' ']) ++ spaced (run' :: others) := by
        unfold spaced
        rw [List.intercalate_cons_cons]
      rw [hsplit]
      constructor
      · intro c hc
        rw [List.append_assoc, List.head?_append_of_ne_nil _ hrun.1] at hc
        exact hedged.first c hc
      · intro c hc
        rw [List.getLast?_append_of_ne_nil _ hne] at hc
        exact (ih hothers).last c hc

/-! ## Squeezing -/

/-- The space in front of squeezed characters. -/
def lead (cs : List Char) : List Char :=
  if cs.head?.any isBlank then [' '] else []

theorem lead_cons_blank (hc : isBlank c = true) (cs : List Char) : lead (c :: cs) = [' '] := by
  simp [lead, hc]

theorem lead_cons_of_not_blank (hc : isBlank c = false) (cs : List Char) :
    lead (c :: cs) = [] := by
  simp [lead, hc]

theorem blank_space : isBlank ' ' = true := by decide

theorem squeezeChars_eq (cs : List Char) :
    ∃ behind, (∀ c ∈ behind, isBlank c = true) ∧
      squeezeChars cs = lead cs ++ spaced (runs cs) ++ behind := by
  have hnone : ∀ c ∈ ([] : List Char), isBlank c = true := fun _ h => absurd h List.not_mem_nil
  fun_induction squeezeChars cs with
  | case1 => exact ⟨[], hnone, rfl⟩
  | case2 c hc =>
    refine ⟨[], hnone, ?_⟩
    rw [lead_cons_blank hc, runs_cons_blank hc]
    rfl
  | case3 c hc =>
    have hc := Bool.eq_false_iff.2 hc
    refine ⟨[], hnone, ?_⟩
    rw [lead_cons_of_not_blank hc, runs_cons_end hc fun _ h => by cases h]
    rfl
  | case4 c d rest hc hd ih =>
    -- the run of blanks goes on
    obtain ⟨behind, hbehind, heq⟩ := ih
    refine ⟨behind, hbehind, ?_⟩
    rw [heq, lead_cons_blank hc, lead_cons_blank hd, runs_cons_blank hc]
  | case5 c d rest hc hd ih =>
    -- a run begins
    have hd := Bool.eq_false_iff.2 hd
    obtain ⟨behind, hbehind, heq⟩ := ih
    refine ⟨behind, hbehind, ?_⟩
    rw [heq, lead_cons_blank hc, lead_cons_of_not_blank hd, runs_cons_blank hc]
    rfl
  | case6 c d rest hc ih =>
    have hc := Bool.eq_false_iff.2 hc
    obtain ⟨behind, hbehind, heq⟩ := ih
    rw [heq, lead_cons_of_not_blank hc]
    cases hd : isBlank d with
    | false =>
      -- a run goes on
      obtain ⟨run, rs, hruns, hruns'⟩ := runs_cons_within hc hd rest
      refine ⟨behind, hbehind, ?_⟩
      rw [lead_cons_of_not_blank hd, hruns, hruns']
      unfold spaced
      cases rs with
      | nil => simp only [List.intercalate_singleton, List.nil_append, List.cons_append]
      | cons r rs => simp only [List.intercalate_cons_cons, List.nil_append, List.cons_append]
    | true =>
      -- a run ends, and perhaps it was the last one
      rw [lead_cons_blank hd, runs_cons_end hc fun e he => by cases he; exact hd]
      cases hruns : runs (d :: rest) with
      | nil =>
        refine ⟨' ' :: behind, List.forall_mem_cons.2 ⟨blank_space, hbehind⟩, ?_⟩
        simp [spaced]
      | cons r rs =>
        refine ⟨behind, hbehind, ?_⟩
        simp [spaced]

/-- A text with its white space collapsed: its runs of other characters with spaces between them. -/
theorem toList_collapse (s : String) : (collapse s).toList = spaced (runs s.toList) := by
  obtain ⟨behind, hbehind, heq⟩ := squeezeChars_eq s.toList
  have hlead : ∀ c ∈ lead s.toList, isBlank c = true := by
    intro c hc
    unfold lead at hc
    split at hc
    · rw [List.mem_singleton.1 hc]
      exact blank_space
    · cases hc
  unfold collapse trim
  rw [String.toList_ofList, String.toList_ofList, heq]
  exact trimChars_eq hlead (edged_spaced fun _ => of_mem_runs) hbehind

end BrowserFlow.Text
