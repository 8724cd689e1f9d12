import BrowserFlow.Decider
import BrowserFlow.Proofs.Text.Figure

/-!
# Answers at the console

A person at the console answers with the first line that is an option of the menu; the lines before
it are passed over, and an option that needs a text takes the first line behind it that is not
blank. `Answers` says so of any menu, without a word on how lines are compared one by one. The menu
after a success is asked in this way whatever is typed. The menu after a failure is not: a line that
is all figures is taken for a number before it is known to be one, so that figures without a place
value, and numerals that are too long to be read, end the question (`console_answers`).
-/

namespace BrowserFlow.Console

/-! ## What a menu offers -/

/-- A text is a numeral of a number: decimal digits of any script, and nothing else. -/
def Numeral (key : String) (n : Nat) : Prop :=
  ∃ ds, key.toList.mapM Text.digitValue? = some ds ∧ ds ≠ [] ∧ Decimal.ofDigits 10 ds = n

/-- The letters that are options after a failure. -/
def failureLetters : List (String × Choice) :=
  [("f", .text .feedback "补充说明: "), ("a", .decided { kind := .autofix }),
    ("m", .text .modify "新指令: "), ("q", .decided { kind := .abandon })]

/-- The options after a failure: the number of a suggestion, or a letter. -/
inductive FailureOption (suggestions : List String) (key : String) : Choice → Prop
  | suggestion {s : String} {i : Nat} (number : Numeral key (i + 1))
      (there : suggestions[i]? = some s) :
      FailureOption suggestions key (.decided ⟨.suggestion, some s⟩)
  | letter {c : Choice} (h : (key, c) ∈ failureLetters) : FailureOption suggestions key c

/-- The letters that are options after a success. -/
def successLetters : List (String × Choice) :=
  [("d", .decided { kind := .done }), ("s", .text .save "工作流名称: "),
    ("e", .text .extend "续写指令: "), ("r", .decided { kind := .rerun }),
    ("f", .text .feedback "改进说明: ")]

/-- The options after a success: a letter. -/
def SuccessOption (key : String) (c : Choice) : Prop :=
  (key, c) ∈ successLetters

/-- A text of figures that cannot be read as a number. -/
def Unreadable (key : String) : Prop :=
  Text.isFigures key = true ∧
    ((∃ c ∈ key.toList, Text.isDecimal c = false) ∨ 4300 < key.toList.length)

/-! ## What the answer is -/

/-- What comes of asking for a text: the first line that is not blank, without the blanks around
it, and the lines behind it. -/
inductive Words (kind : Decision.Kind) (lines : List String) :
    Except Fault Decision → List String → Prop
  | ended (blank : ∀ l ∈ lines, Text.trim l = "") : Words kind lines (.error .endOfInput) []
  | said {passed rest : List String} {line : String} (lines_eq : lines = passed ++ line :: rest)
      (blank : ∀ l ∈ passed, Text.trim l = "") (words : Text.trim line ≠ "") :
      Words kind lines (.ok ⟨kind, some (Text.trim line)⟩) rest

/-- What comes of a choice on the lines behind it. -/
inductive Follows : Choice → List String → Except Fault Decision → List String → Prop
  | decided (d : Decision) (rest : List String) : Follows (.decided d) rest (.ok d) rest
  | text {kind : Decision.Kind} {asked : String} {rest left : List String}
      {q : Except Fault Decision} (words : Words kind rest q left) :
      Follows (.text kind asked) rest q left

/-- What comes of asking for an option: what follows on the first line that is one, or the end of
the lines if none is. -/
inductive Answers (option : String → Choice → Prop) (lines : List String) :
    Except Fault Decision → List String → Prop
  | ended (none : ∀ l ∈ lines, ∀ c, ¬ option (key l) c) :
      Answers option lines (.error .endOfInput) []
  | chosen {passed rest left : List String} {line : String} {c : Choice}
      {q : Except Fault Decision} (lines_eq : lines = passed ++ line :: rest)
      (none : ∀ l ∈ passed, ∀ c, ¬ option (key l) c) (chosen : option (key line) c)
      (follows : Follows c rest q left) : Answers option lines q left

/-- Behind lines that are no options and can be dealt with there is a line that cannot be. -/
def ComesTo (refused : String → Prop) (option : String → Choice → Prop) (lines : List String) :
    Prop :=
  ∃ passed line rest, lines = passed ++ line :: rest ∧ refused (key line) ∧
    ∀ l ∈ passed, ¬ refused (key l) ∧ ∀ c, ¬ option (key l) c

/-- Asking gives a decision or finds the lines at their end. -/
theorem Answers.ne_invalid {option : String → Choice → Prop} {lines left : List String}
    {q : Except Fault Decision} (h : Answers option lines q left) (message : String) :
    q ≠ .error (.invalid message) := by
  rintro rfl
  cases h with
  | chosen _ _ _ follows =>
    cases follows with
    | text words => cases words

/-! ## The loops -/

theorem askText_words (kind : Decision.Kind) (asked : String) (lines : List String) :
    Words kind lines (askText kind asked lines).decision (askText kind asked lines).inputs := by
  induction lines with
  | nil => exact .ended fun l hl => nomatch hl
  | cons line rest ih =>
    unfold askText
    dsimp only
    split
    · rename_i hblank
      have hblank : Text.trim line = "" := String.isEmpty_iff.1 hblank
      -- what comes of the other lines comes of all
      show Words kind (line :: rest) (askText kind asked rest).decision
        (askText kind asked rest).inputs
      generalize (askText kind asked rest).decision = q at ih ⊢
      generalize (askText kind asked rest).inputs = left at ih ⊢
      cases ih with
      | ended blank => exact .ended (List.forall_mem_cons.2 ⟨hblank, blank⟩)
      | @said passed _ l lines_eq blank words =>
        have hlines : line :: rest = (line :: passed) ++ l :: left := by
          rw [lines_eq, List.cons_append]
        exact .said hlines (List.forall_mem_cons.2 ⟨hblank, blank⟩) words
    · rename_i hwords
      have hlines : line :: rest = [] ++ line :: rest := rfl
      exact .said hlines (fun l hl => nomatch hl) fun hblank =>
        hwords (String.isEmpty_iff.2 hblank)

/-- A menu gives the options that it offers, and fails at a text that it cannot deal with. -/
structure Deals (menu : String → Except Fault (Option Choice)) (refused : String → Prop)
    (option : String → Choice → Prop) : Prop where
  gives (k : String) (h : ¬ refused k) : ∃ c?, menu k = .ok c? ∧ ∀ c, option k c ↔ c? = some c
  fails (k : String) (h : refused k) : ∃ message, menu k = .error (.invalid message)

variable {menu : String → Except Fault (Option Choice)} {refused : String → Prop}
  {option : String → Choice → Prop} {line : String} {rest left : List String}
  {q : Except Fault Decision}

/-- What comes of the other lines comes of all, if the first is no option. -/
theorem Answers.cons (h : ∀ c, ¬ option (key line) c) (hrest : Answers option rest q left) :
    Answers option (line :: rest) q left := by
  cases hrest with
  | ended none => exact .ended (List.forall_mem_cons.2 ⟨h, none⟩)
  | @chosen passed behind _ l c _ lines_eq none chosen follows =>
    have hlines : line :: rest = (line :: passed) ++ l :: behind := by
      rw [lines_eq, List.cons_append]
    exact .chosen hlines (List.forall_mem_cons.2 ⟨h, none⟩) chosen follows

theorem Answers.first {c : Choice} (h : option (key line) c) (hfollows : Follows c rest q left) :
    Answers option (line :: rest) q left := by
  have hlines : line :: rest = [] ++ line :: rest := rfl
  exact .chosen hlines (fun l hl => nomatch hl) h hfollows

theorem ComesTo.cons (h : ¬ refused (key line) ∧ ∀ c, ¬ option (key line) c)
    (hrest : ComesTo refused option rest) : ComesTo refused option (line :: rest) := by
  obtain ⟨passed, l, behind, rfl, hrefused, hpassed⟩ := hrest
  exact ⟨line :: passed, l, behind, rfl, hrefused, List.forall_mem_cons.2 ⟨h, hpassed⟩⟩

theorem comesTo_first (h : refused (key line)) (rest : List String) :
    ComesTo refused option (line :: rest) :=
  ⟨[], line, rest, rfl, h, fun _ hl => nomatch hl⟩

/-- Asking for an option fails at a line that cannot be dealt with. -/
theorem choose_fails (h : Deals menu refused option) {lines : List String}
    (hcomes : ComesTo refused option lines) :
    ∃ message, (choose menu lines).decision = .error (.invalid message) := by
  obtain ⟨passed, line, rest, rfl, hrefused, hpassed⟩ := hcomes
  induction passed with
  | nil =>
    obtain ⟨message, hmenu⟩ := h.fails _ hrefused
    refine ⟨message, ?_⟩
    rw [List.nil_append, choose, hmenu]
  | cons l others ih =>
    obtain ⟨hl, hothers⟩ := List.forall_mem_cons.1 hpassed
    obtain ⟨c?, hmenu, hoption⟩ := h.gives _ hl.1
    rw [List.cons_append, choose, hmenu]
    cases c? with
    | none => exact ih hothers
    | some c => exact absurd ((hoption c).2 rfl) (hl.2 c)

/-- If it comes to no such line it answers as it should. -/
theorem choose_answers (h : Deals menu refused option) (lines : List String)
    (hnever : ¬ ComesTo refused option lines) :
    Answers option lines (choose menu lines).decision (choose menu lines).inputs := by
  induction lines with
  | nil => exact .ended fun _ hl => nomatch hl
  | cons line rest ih =>
    have hgood : ¬ refused (key line) := fun hrefused => hnever (comesTo_first hrefused rest)
    obtain ⟨c?, hmenu, hoption⟩ := h.gives _ hgood
    rw [choose, hmenu]
    cases c? with
    | none =>
      have hnone : ∀ c, ¬ option (key line) c := fun c hc => nomatch (hoption c).1 hc
      exact (ih fun hcomes => hnever (hcomes.cons ⟨hgood, hnone⟩)).cons hnone
    | some c =>
      refine .first ((hoption c).2 rfl) ?_
      cases c with
      | decided d => exact .decided d rest
      | text kind asked => exact .text (askText_words kind asked rest)

/-! ## The menus -/

theorem deals_successMenu : Deals successMenu (fun _ => False) SuccessOption where
  gives k _ := by
    have hletters : ∀ c, SuccessOption k c ↔ (k, c) ∈ successLetters := fun _ => Iff.rfl
    unfold successMenu
    split
    all_goals exact ⟨_, rfl, fun c => by simp_all [successLetters, eq_comm]⟩
  fails k h := h.elim

/-- The letters after a failure are those for which there is an option. -/
theorem failureLetter?_eq_some_iff {k : String} {c : Choice} :
    failureLetter? k = some c ↔ (k, c) ∈ failureLetters := by
  unfold failureLetter?
  split
  all_goals simp_all [failureLetters, eq_comm]

/-- A suggestion has the number under which it is found. -/
theorem suggestion?_eq_some_iff {suggestions : List String} {n : Nat} {s : String} :
    suggestion? suggestions n = some s ↔ ∃ i, n = i + 1 ∧ suggestions[i]? = some s := by
  unfold suggestion?
  cases n with
  | zero => simp
  | succ i =>
    rw [if_pos (by omega)]
    simp

/-- No letter that is an option is a figure. -/
theorem not_isFigures_of_mem {k : String} {c : Choice} (h : (k, c) ∈ failureLetters) :
    Text.isFigures k = false := by
  have hall : ∀ p ∈ failureLetters, Text.isFigures p.1 = false := by decide +kernel
  exact hall _ h

/-- What is a numeral is made of figures. -/
theorem Numeral.isFigures {k : String} {n : Nat} (h : Numeral k n) : Text.isFigures k = true := by
  obtain ⟨ds, hds, hne, -⟩ := h
  refine Text.isFigures_iff.2 ⟨fun hnil => hne ?_, fun c hc => ?_⟩
  · rw [hnil] at hds
    cases hds
    rfl
  · cases hdecimal : Text.isDecimal c with
    | true =>
      unfold Text.isFigure
      rw [hdecimal, Bool.true_or]
    | false =>
      rw [Text.mapM_digitValue?_eq_none_iff.2 ⟨c, hc, hdecimal⟩] at hds
      cases hds

theorem deals_failureMenu (suggestions : List String) :
    Deals (failureMenu suggestions) Unreadable (FailureOption suggestions) where
  gives k h := by
    unfold failureMenu
    cases hfigures : Text.isFigures k with
    | false =>
      refine ⟨failureLetter? k, rfl, fun c => ?_⟩
      rw [failureLetter?_eq_some_iff]
      constructor
      · rintro (⟨number, -⟩ | hletter)
        · rw [number.isFigures] at hfigures
          cases hfigures
        · exact hletter
      · exact .letter
    | true =>
      have hreads : ¬ ((∃ c ∈ k.toList, Text.isDecimal c = false) ∨ 4300 < k.toList.length) :=
        fun hbad => h ⟨hfigures, hbad⟩
      rw [not_or, ← Text.mapM_digitValue?_eq_none_iff] at hreads
      obtain ⟨ds, hds⟩ := Option.ne_none_iff_exists'.1 hreads.1
      have hnumber : wholeOfText 10 k (Text.quoted k) = .ok (Decimal.ofDigits 10 ds : Nat) := by
        rw [Decimal.wholeOfText_of_figures hfigures, hds]
        dsimp only
        rw [Text.length_of_mapM_digitValue? hds, if_neg hreads.2]
      rw [if_pos rfl, hnumber]
      refine ⟨_, rfl, fun c => ?_⟩
      rw [Option.map_eq_some_iff]
      constructor
      · rintro (⟨⟨ds', hds', -, hvalue⟩, there⟩ | hletter)
        · cases hds.symm.trans hds'
          exact ⟨_, suggestion?_eq_some_iff.2 ⟨_, hvalue, there⟩, rfl⟩
        · rw [not_isFigures_of_mem hletter] at hfigures
          cases hfigures
      · rintro ⟨s, hs, rfl⟩
        obtain ⟨i, hi, there⟩ := suggestion?_eq_some_iff.1 hs
        have hne : ds ≠ [] := by
          rintro rfl
          exact absurd hi (by simp [Decimal.ofDigits])
        exact .suggestion ⟨ds, hds, hne, hi⟩ there
  fails k h := by
    obtain ⟨hfigures, hbad⟩ := h
    have hnumber : ∃ e, wholeOfText 10 k (Text.quoted k) = .error e := by
      rw [Decimal.wholeOfText_of_figures hfigures]
      cases hds : k.toList.mapM Text.digitValue? with
      | none => exact ⟨_, rfl⟩
      | some ds =>
        have hlong : 4300 < ds.length := by
          rw [Text.length_of_mapM_digitValue? hds]
          refine hbad.resolve_left fun hsome => ?_
          rw [Text.mapM_digitValue?_eq_none_iff.2 hsome] at hds
          cases hds
        exact ⟨_, if_pos hlong⟩
    obtain ⟨e, he⟩ := hnumber
    unfold failureMenu
    rw [if_pos hfigures, he]
    exact ⟨_, rfl⟩

/-! ## The questions -/

/-- The suggestions that a person is shown. -/
def shownSuggestions (v : Option Verification) : List String :=
  (v.map (·.suggestions)).getD []

/-- Among the answers after a failure there is, before any option, a text of figures that cannot be
read as a number. -/
def Trips (suggestions : List String) (lines : List String) : Prop :=
  ComesTo Unreadable (FailureOption suggestions) lines

/-- Whatever is typed, the question after a success passes over all lines that are no options and
gives the decision of the first that is one, or finds the lines at their end. So does the question
after a failure with any suggestions, unless it comes to figures that cannot be read as a number:
exactly then it gives neither, but fails. -/
theorem console_answers (v : Option Verification) (lines : List String) :
    (Answers (FailureOption (shownSuggestions v)) lines (onFailure v lines).decision
      (onFailure v lines).inputs ↔ ¬ Trips (shownSuggestions v) lines) ∧
    (Trips (shownSuggestions v) lines ↔
      ∃ message, (onFailure v lines).decision = .error (.invalid message)) ∧
    Answers SuccessOption lines (onSuccess lines).decision (onSuccess lines).inputs := by
  have hdeals := deals_failureMenu (shownSuggestions v)
  have hfails : Trips (shownSuggestions v) lines →
      ∃ message, (onFailure v lines).decision = .error (.invalid message) := choose_fails hdeals
  have hanswers : ¬ Trips (shownSuggestions v) lines →
      Answers (FailureOption (shownSuggestions v)) lines (onFailure v lines).decision
        (onFailure v lines).inputs := choose_answers hdeals lines
  refine ⟨⟨fun h htrips => ?_, hanswers⟩, ⟨hfails, fun ⟨message, h⟩ => ?_⟩, ?_⟩
  · obtain ⟨message, h'⟩ := hfails htrips
    exact h.ne_invalid message h'
  · refine Classical.byContradiction fun hnever => ?_
    exact (hanswers hnever).ne_invalid message h
  · refine choose_answers deals_successMenu lines ?_
    rintro ⟨passed, line, rest, -, hrefused, -⟩
    exact hrefused

/-- A figure without a place value ends the question after a failure, where an option is still to
come. -/
theorem not_answers_superscript : ¬ ∀ (v : Option Verification) (lines : List String),
    Answers (FailureOption (shownSuggestions v)) lines (onFailure v lines).decision
      (onFailure v lines).inputs := by
  intro h
  have hkey : key "²" = "²" := by decide +kernel
  have hunreadable : Unreadable (key "²") := by
    rw [hkey]
    exact ⟨by decide +kernel, Or.inl ⟨'²', by decide +kernel, by decide +kernel⟩⟩
  obtain ⟨message, hfails⟩ := choose_fails (deals_failureMenu [])
    (comesTo_first hunreadable ["q"])
  exact (h none ["²", "q"]).ne_invalid message hfails

end BrowserFlow.Console
